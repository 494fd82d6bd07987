import StarShapes.Query.Basic
import StarShapes.Shape.Basic

/-!
Trails: the goals that the match of a star against a shape has led to.

* `Scene`: a query and the shapes that its stars may have to conform to.
* `Goal`: a star to be matched against a shape, both by name. `Scene.goals` are those that the
  scene can set.
* `Trail`: the goals from the first one to the current one. None occurs twice, so a trail has at
  most one goal more than the scene can set (`Trail.length_le`) and can be prolonged only so often
  (`Trail.room_push_lt`).
-/

namespace StarShapes

/-- A query and the shapes that may be asked for at the ends of its rays. -/
structure Scene where
  /-- The query. -/
  query : Query
  /-- The shapes that are loaded, by name. -/
  shapes : Keyed Shape.name

/-- A star to be matched against a shape. -/
structure Goal where
  /-- The name of the shape. -/
  shape : String
  /-- The name of the star. -/
  star : String
  deriving DecidableEq, Repr

/-- The goals made of a loaded shape and a star of the query. -/
def Scene.goals (scene : Scene) : List Goal :=
  scene.shapes.keys.flatMap fun s => scene.query.names.map fun n => ⟨s, n⟩

theorem Scene.mem_goals {scene : Scene} {g : Goal} :
    g ∈ scene.goals ↔ g.shape ∈ scene.shapes.keys ∧ g.star ∈ scene.query.names := by
  obtain ⟨s, n⟩ := g
  simp [goals]

/-- A list without repetition is no longer than one that has all its elements. -/
theorem length_le_of_nodup_of_subset {α : Type} [DecidableEq α] {l l' : List α} (h : l.Nodup)
    (hs : ∀ a ∈ l, a ∈ l') : l.length ≤ l'.length := by
  induction l generalizing l' with
  | nil => exact Nat.zero_le _
  | cons a l ih =>
    have hn := List.nodup_cons.1 h
    have ha : a ∈ l' := hs a List.mem_cons_self
    have : l.length ≤ (l'.erase a).length := ih hn.2 fun b hb => by
      have hne : b ≠ a := fun e => hn.1 (e ▸ hb)
      exact (List.mem_erase_of_ne hne).2 (hs b (List.mem_cons_of_mem _ hb))
    have hpos : 0 < l'.length := List.length_pos_of_mem ha
    rw [List.length_erase_of_mem ha] at this
    simp only [List.length_cons]
    omega

/-- The goals from the first one to the current one. -/
structure Trail (scene : Scene) where
  /-- The goals, the first one first. -/
  goals : List Goal
  /-- No goal occurs twice. -/
  nodup : goals.Nodup
  /-- The goals after the first are the scene's. -/
  known : ∀ g ∈ goals.tail, g ∈ scene.goals

namespace Trail

variable {scene : Scene}

/-- The trail of a first goal. -/
def start (g : Goal) : Trail scene := ⟨[g], by simp, by simp⟩

/-- The number of goals. -/
def length (t : Trail scene) : Nat := t.goals.length

/-- The place of a goal on the trail, counted from the first. -/
def position? (t : Trail scene) (g : Goal) : Option Nat := t.goals.idxOf? g

theorem position?_eq_none_iff {t : Trail scene} {g : Goal} :
    t.position? g = none ↔ g ∉ t.goals := by
  simp [position?]

/-- A trail has at most one goal more than the scene can set. -/
theorem length_le (t : Trail scene) : t.length ≤ 1 + scene.goals.length := by
  have h : t.goals.tail.length ≤ scene.goals.length :=
    length_le_of_nodup_of_subset (t.nodup.sublist (List.tail_sublist _)) t.known
  rw [List.length_tail] at h
  unfold length
  omega

/-- A trail prolonged by a goal of the scene that it does not have yet. -/
def push (t : Trail scene) (g : Goal) (hg : g ∈ scene.goals) (hn : g ∉ t.goals) : Trail scene where
  goals := t.goals ++ [g]
  nodup := by
    rw [List.nodup_append]
    refine ⟨t.nodup, by simp, fun a ha b hb e => ?_⟩
    rw [List.mem_singleton] at hb
    exact hn (hb ▸ e ▸ ha)
  known := by
    intro a ha
    cases h : t.goals with
    | nil => simp [h] at ha
    | cons b l =>
      rw [h] at ha
      rcases List.mem_append.1 ha with ha | ha
      · exact t.known a (by simpa [h] using ha)
      · rw [List.mem_singleton] at ha
        exact ha ▸ hg

/-- How often a trail can be prolonged at most. -/
def room (t : Trail scene) : Nat := 1 + scene.goals.length - t.length

/-- A prolonged trail has less room. -/
theorem room_push_lt (t : Trail scene) (g : Goal) (hg : g ∈ scene.goals) (hn : g ∉ t.goals) :
    (t.push g hg hn).room < t.room := by
  have h := (t.push g hg hn).length_le
  have e : (t.push g hg hn).length = t.length + 1 := by simp [push, length]
  unfold room
  omega

end Trail

end StarShapes
