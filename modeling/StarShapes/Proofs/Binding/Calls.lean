import Mathlib.Data.List.Forall2
import StarShapes.Proofs.Binding.Run

/-!
Calls: what a memory answers, whatever it was asked before.

* `Memory.bindAll`: a sequence of calls on one memory.
* `full_bindAll_iff`: each call finds bindings if the query has a star of that
  name, and these are full exactly if the star conforms to the shape.
* `Scene.circle`: two stars with rays to each other, and a third of which one
  alternative fits.
-/

namespace StarShapes

/-! ### Small shapes and stars -/

/-- A rule for a predicate, which may name one shape. -/
def Rule.asking (predicate : String) : Option String → Rule
  | some target => (Rule.new predicate).withConstraint (.shape (.ofList [target]))
  | none => .new predicate

/-- A closed shape with a rule for each of some predicates, which may name one
shape. -/
def Shape.asking (name : String) (rules : List (String × Option String)) : Shape :=
  { Shape.free name with
    closed := true
    positive := .ofList (rules.map fun (predicate, target?) => .asking predicate target?)
    isNegative_positive := by
      intro r hr
      obtain ⟨⟨_, target?⟩, _, rfl⟩ := List.mem_map.mp (Keyed.mem_of_mem_ofList hr)
      cases target? <;> rfl
    disjoint := by simp [Shape.free] }

/-- The star of a variable with the given predicates and objects. -/
def Star.ofPairs (name : String) (pairs : List (String × Term)) : Star :=
  pairs.foldl (fun s x => s.insert ⟨name, x.1, x.2, false⟩ none) (.new name true)

/-! ### Calls in sequence -/

/-- A sequence of calls on one memory: the answers, and what is remembered
afterwards. -/
def Memory.bindAll (scene : Scene) : List Task → Memory → List (Option Bindings) × Memory
  | [], m => ([], m)
  | t :: rest, m =>
    let (b?, m) := m.bind scene t.shape t.star
    let (answers, m) := bindAll scene rest m
    (b? :: answers, m)

namespace Scene

variable {scene : Scene} {roots : Set Task} {known : Set Shape}

/-- Each call is answered by bindings that can be found without assumption. -/
lemma finds_bindAll (hknown : Set.InjOn Shape.name known)
    (hloaded : ∀ name s, scene.shapes.get? name = some s → s ∈ known) {calls : List Task}
    (hcalls : ∀ t ∈ calls, t ∈ roots ∧ t.shape ∈ known) {m : Memory}
    (hm : m.Sound scene roots known) :
    List.Forall₂ (fun t b? => (∀ b, b? = some b → scene.Finds roots ∅ t b) ∧
      (t.star ∈ scene.query.names → ∃ b, b? = some b)) calls (m.bindAll scene calls).1 := by
  induction calls generalizing m with
  | nil => exact .nil
  | cons t calls ih =>
      obtain ⟨hroot, hshape⟩ := hcalls t List.mem_cons_self
      obtain ⟨hsound, -, hfinds, hsome⟩ := finds_bind hknown hloaded hroot hshape hm
      rw [Memory.bindAll]
      exact .cons ⟨hfinds, hsome⟩ (ih (fun u hu => hcalls u (List.mem_cons_of_mem _ hu)) hsound)

/-- Each call on an empty memory is answered so, where shapes are told apart by their names. -/
lemma finds_calls {calls : List Task}
    (hnames : Set.InjOn Shape.name {s | s ∈ scene.shapes.toList ∨ ∃ t ∈ calls, t.shape = s}) :
    List.Forall₂ (fun t b? => (∀ b, b? = some b → scene.Finds Set.univ ∅ t b) ∧
      (t.star ∈ scene.query.names → ∃ b, b? = some b))
        calls (Memory.empty.bindAll scene calls).1 :=
  finds_bindAll hnames (fun _ _ hs => Or.inl (Keyed.mem_of_get? hs))
    (fun t ht => ⟨trivial, Or.inr ⟨t, ht, rfl⟩⟩) Memory.sound_empty

/-- Loaded shapes are told apart by their names. -/
lemma injOn_of_loaded {calls : List Task} (h : ∀ t ∈ calls, t.shape ∈ scene.shapes.toList) :
    Set.InjOn Shape.name {s | s ∈ scene.shapes.toList ∨ ∃ t ∈ calls, t.shape = s} := by
  refine scene.shapes.injOn.mono ?_
  rintro s (hs | ⟨t, ht, rfl⟩)
  · exact hs
  · exact h t ht

/-- **Whatever a memory was asked before**, a call finds bindings exactly if the
query has a star of the name, and these are full exactly if the star and the
shape are in the greatest fixed point of `conform`. Shapes are told apart by
their names. -/
theorem full_bindAll_iff (scene : Scene) (calls : List Task)
    (hnames : Set.InjOn Shape.name {s | s ∈ scene.shapes.toList ∨ ∃ t ∈ calls, t.shape = s}) :
    List.Forall₂ (fun t b? => (b? = none ↔ t.star ∉ scene.query.names) ∧
      ∀ b, b? = some b → (b.full = true ↔ t ∈ OrderHom.gfp scene.conform))
        calls (Memory.bindAll scene calls .empty).1 := by
  have hloaded : ∀ name s, scene.shapes.get? name = some s →
      s ∈ {s | s ∈ scene.shapes.toList ∨ ∃ t ∈ calls, t.shape = s} :=
    fun _ _ hs => Or.inl (Keyed.mem_of_get? hs)
  have hcalls : ∀ t ∈ calls, t ∈ (Set.univ : Set Task) ∧
      t.shape ∈ {s | s ∈ scene.shapes.toList ∨ ∃ t ∈ calls, t.shape = s} :=
    fun t ht => ⟨trivial, Or.inr ⟨t, ht, rfl⟩⟩
  refine (finds_bindAll hnames hloaded hcalls Memory.sound_empty).imp fun t b? h => ⟨?_, ?_⟩
  · constructor
    · rintro rfl hn
      obtain ⟨b, hb⟩ := h.2 hn
      cases hb
    · intro hn
      cases b? with
      | none => rfl
      | some b => exact absurd (h.1 b rfl).star_mem_names hn
  · exact fun b hb => (h.1 b hb).full_iff_conforms

/-! ### A circle -/

/-- Two shapes that ask for each other: the one by `p`, the other by `r`. -/
def circleShapes : Keyed Shape.name :=
  .ofList [.asking "S" [("p", some "T")], .asking "T" [("r", some "S")]]

/-- Stars `b` and `c` with rays to each other, and two alternatives for a star
`d`, the second of which has a ray to `c`. -/
def circle : Scene where
  query :=
    (Query.ofStars [.ofPairs "b" [("p", .var "c")], .ofPairs "c" [("r", .var "b")]]).withUnion
      [[.ofPairs "d" [("q", .var "x")]], [.ofPairs "d" [("p", .var "c")]]]
  shapes := circleShapes

/-- Calls on the stars of the circle, and one on a star that is not there. -/
def circleCalls : List Task :=
  [⟨.asking "T" [("r", some "S")], "c"⟩, ⟨.asking "S" [("p", some "T")], "d"⟩,
    ⟨.asking "T" [("r", some "S")], "b"⟩, ⟨.asking "S" [("p", some "T")], "e"⟩]

/-- What the circle leads to conforms with it: the second alternative of `d` is
found to fit; `b` does not fit the shape of `c`. -/
theorem circle_conforms :
    (⟨.asking "S" [("p", some "T")], "d"⟩ : Task) ∈ OrderHom.gfp circle.conform ∧
      (⟨.asking "T" [("r", some "S")], "b"⟩ : Task) ∉ OrderHom.gfp circle.conform := by
  have hcalls : ∀ t ∈ circleCalls, t.shape ∈ circle.shapes.toList := by decide +kernel
  have hnames : Set.InjOn Shape.name
      {s | s ∈ circle.shapes.toList ∨ ∃ t ∈ circleCalls, t.shape = s} := by
    refine circle.shapes.injOn.mono ?_
    rintro s (hs | ⟨t, ht, rfl⟩)
    · exact hs
    · exact hcalls t ht
  have h := full_bindAll_iff circle circleCalls hnames
  have hfull : (Memory.bindAll circle circleCalls .empty).1.map (Option.map Bindings.full) =
      [some true, some true, some false, none] := by decide +kernel
  generalize (Memory.bindAll circle circleCalls .empty).1 = answers at h hfull
  rcases h with _ | ⟨-, _ | ⟨hd, _ | ⟨hb, -⟩⟩⟩
  simp only [List.map_cons, List.cons.injEq, Option.map_eq_some_iff] at hfull
  obtain ⟨-, ⟨n, hn, hnfull⟩, ⟨n', hn', hnfull'⟩, -⟩ := hfull
  refine ⟨(hd.2 n hn).mp hnfull, fun hmem => ?_⟩
  rw [(hb.2 n' hn').mpr hmem] at hnfull'
  cases hnfull'

end Scene

end StarShapes
