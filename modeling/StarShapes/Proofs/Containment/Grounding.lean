import Mathlib.Logic.Relation
import StarShapes.Containment.Solution
import StarShapes.Proofs.Collection.Dictionaries

/-!
Grounding: which shapes explain a star, read off the dependencies.

* `mem_groundedTargets`: a shape explains a star if a full dependency names the
  two and comes from another star, which is ready or is explained by stars that
  are left.
* `Steps`: a full dependency leads from one star to another.
* `mem_groundedTargets_iff`: a shape explains a star if a walk along such steps
  comes to the origin of a full dependency that names the two, from a star that
  is ready and without passing the star that is explained.
* `direct_of_walk`: a walk can be had without detours.
* `mem_groundedTargets_iff_explainedBy`: only the ends and the targets of the full
  dependencies matter, and which stars are ready; more of them explain more
  (`explainedBy_mono`).
-/

namespace StarShapes

variable {edges : List Dependency} {ready : String → Bool}

/-- A shape explains a star if it is the target of a full dependency on the star
that comes from another star, which is ready or is explained in turn. -/
lemma mem_groundedTargets {rest : List String} {name target : String} :
    target ∈ groundedTargets edges ready rest name ↔ name ∈ rest ∧ ∃ d ∈ edges,
      d.nested = name ∧ d.full = true ∧ d.origin ≠ name ∧ d.target = target ∧
        (ready d.origin = true ∨ groundedTargets edges ready (rest.erase name) d.origin ≠ []) := by
  rw [groundedTargets]
  split
  · rename_i hname
    rw [and_iff_right hname]
    refine (mem_foldl_iff id (fun _ => True) (fun _ _ _ => trivial) (fun found d _ => ?_) _
      trivial).trans (or_iff_right List.not_mem_nil)
    simp only [id]
    split
    · rename_i hcond
      simp only [Bool.and_eq_true, decide_eq_true_eq, Bool.or_eq_true, Bool.not_eq_true',
        List.isEmpty_eq_false_iff] at hcond
      obtain ⟨⟨⟨⟨hnested, hfull⟩, horigin⟩, -⟩, hground⟩ := hcond
      rw [List.mem_append, List.mem_singleton, eq_comm (a := target)]
      refine or_congr_right ⟨fun he => ?_, fun h => h.2.2.2.1⟩
      exact ⟨hnested, hfull, horigin, he, hground⟩
    · rename_i hcond
      refine (or_iff_left_of_imp ?_).symm
      rintro ⟨hnested, hfull, horigin, rfl, hground⟩
      by_contra hnew
      refine hcond ?_
      simp only [Bool.and_eq_true, decide_eq_true_eq, Bool.or_eq_true, Bool.not_eq_true',
        List.isEmpty_eq_false_iff]
      exact ⟨⟨⟨⟨hnested, hfull⟩, horigin⟩, by simpa using hnew⟩, hground⟩
  · rename_i hname
    exact iff_of_false List.not_mem_nil fun h => hname h.1

/-- No shape explains a star twice. -/
lemma nodup_groundedTargets (rest : List String) (name : String) :
    (groundedTargets edges ready rest name).Nodup := by
  rw [groundedTargets]
  split
  · refine List.foldlRecOn edges _ List.nodup_nil fun found hfound d _ => ?_
    split
    · rename_i hcond
      have hnew : d.target ∉ found := by
        simp only [Bool.and_eq_true, Bool.not_eq_true'] at hcond
        simpa using hcond.1.2
      exact List.nodup_append.mpr ⟨hfound, by simp, fun a ha b hb he =>
        hnew (List.mem_singleton.mp hb ▸ he ▸ ha)⟩
    · exact hfound
  · exact List.nodup_nil

/-! ### Walks -/

section

variable {α : Type} [DecidableEq α] {R : α → α → Prop} {a z : α}

/-- A walk that goes anywhere arrives at its end for a first time. -/
lemma arrival_of_walk {rest : List α}
    (h : Relation.ReflTransGen (fun x y => y ∈ rest ∧ R x y) a z) :
    a = z ∨ z ∈ rest ∧ ∃ y, R y z ∧
      Relation.ReflTransGen (fun x y => y ∈ rest.erase z ∧ R x y) a y := by
  induction h using Relation.ReflTransGen.head_induction_on with
  | refl => exact Or.inl rfl
  | @head a b hstep _ ih =>
      obtain ⟨hb, hR⟩ := hstep
      right
      by_cases hbz : b = z
      · exact ⟨hbz ▸ hb, a, hbz ▸ hR, .refl⟩
      · obtain ⟨hz, y, hyz, hwalk⟩ := ih.resolve_left hbz
        exact ⟨hz, y, hyz, .head ⟨(List.mem_erase_of_ne hbz).mpr hb, hR⟩ hwalk⟩

/-- A walk can be had without detours: each step of it can be reached without
passing the place that the step leads to. -/
lemma direct_of_walk {rest : List α} (hrest : rest.Nodup)
    (h : Relation.ReflTransGen (fun x y => y ∈ rest ∧ R x y) a z) :
    Relation.ReflTransGen
      (fun x y => R x y ∧ Relation.ReflTransGen (fun v w => w ≠ y ∧ R v w) a x) a z := by
  induction hlength : rest.length using Nat.strong_induction_on generalizing rest z with
  | _ length ih =>
      rcases arrival_of_walk h with rfl | ⟨hz, y, hyz, hwalk⟩
      · exact .refl
      · have hlt : (rest.erase z).length < length := by
          rw [List.length_erase_of_mem hz, ← hlength]
          exact Nat.sub_lt (List.length_pos_of_mem hz) Nat.one_pos
        have hbefore : Relation.ReflTransGen (fun v w => w ≠ z ∧ R v w) a y :=
          Relation.ReflTransGen.mono
            (fun _ _ hw => ⟨(hrest.mem_erase_iff.mp hw.1).1, hw.2⟩) _ _ hwalk
        exact (ih _ hlt (hrest.erase z) hwalk rfl).tail ⟨hyz, hbefore⟩

end

/-- A full dependency leads from one star to another. -/
def Steps (edges : List Dependency) (a b : String) : Prop :=
  a ≠ b ∧ ∃ d ∈ edges, d.full = true ∧ d.origin = a ∧ d.nested = b

lemma Steps.mem_dependencyStars {a b : String} (h : Steps edges a b) :
    b ∈ dependencyStars edges := by
  obtain ⟨-, d, hd, -, -, rfl⟩ := h
  exact mem_distinct.mpr (List.mem_flatMap.mpr ⟨d, hd, by simp⟩)

/-- A star is ready or explained by stars that are left if a walk among these
comes to it from a star that is ready. -/
lemma grounded_iff {rest : List String} {name : String} :
    ready name = true ∨ groundedTargets edges ready rest name ≠ [] ↔
      ∃ r, ready r = true ∧
        Relation.ReflTransGen (fun a b => b ∈ rest ∧ Steps edges a b) r name := by
  induction hlength : rest.length using Nat.strong_induction_on generalizing rest name with
  | _ length ih =>
      have hrec : ∀ origin, name ∈ rest →
          (ready origin = true ∨ groundedTargets edges ready (rest.erase name) origin ≠ [] ↔
            ∃ r, ready r = true ∧ Relation.ReflTransGen
              (fun a b => b ∈ rest.erase name ∧ Steps edges a b) r origin) := by
        intro origin hname
        refine ih _ ?_ rfl
        rw [List.length_erase_of_mem hname, ← hlength]
        exact Nat.sub_lt (List.length_pos_of_mem hname) Nat.one_pos
      constructor
      · rintro (hready | hne)
        · exact ⟨name, hready, .refl⟩
        · obtain ⟨target, htarget⟩ := List.exists_mem_of_ne_nil _ hne
          obtain ⟨hname, d, hd, hnested, hfull, horigin, -, hground⟩ :=
            mem_groundedTargets.mp htarget
          obtain ⟨r, hr, hwalk⟩ := (hrec d.origin hname).mp hground
          have hbefore : Relation.ReflTransGen (fun a b => b ∈ rest ∧ Steps edges a b) r d.origin :=
            Relation.ReflTransGen.mono
              (fun _ _ hb => And.imp_left List.mem_of_mem_erase hb) _ _ hwalk
          exact ⟨r, hr, hbefore.tail ⟨hname, horigin, d, hd, hfull, rfl, hnested⟩⟩
      · rintro ⟨r, hr, hwalk⟩
        rcases arrival_of_walk hwalk with rfl | ⟨hname, _, ⟨hne, d, hd, hfull, rfl, hnested⟩, hwalk⟩
        · exact Or.inl hr
        · have hground := (hrec d.origin hname).mpr ⟨r, hr, hwalk⟩
          exact Or.inr (List.ne_nil_of_mem (mem_groundedTargets.mpr
            ⟨hname, d, hd, hnested, hfull, hne, rfl, hground⟩))

/-- **Which shapes explain a star**: the targets of the full dependencies on it
that come from another star, to which a walk leads from a star that is ready
without passing the star itself. -/
theorem mem_groundedTargets_iff {name target : String} :
    target ∈ groundedTargets edges ready (dependencyStars edges) name ↔
      ∃ d ∈ edges, d.nested = name ∧ d.full = true ∧ d.origin ≠ name ∧ d.target = target ∧
        ∃ r, ready r = true ∧
          Relation.ReflTransGen (fun a b => b ≠ name ∧ Steps edges a b) r d.origin := by
  have hwalks : ∀ r o, Relation.ReflTransGen
      (fun a b => b ∈ (dependencyStars edges).erase name ∧ Steps edges a b) r o ↔
        Relation.ReflTransGen (fun a b => b ≠ name ∧ Steps edges a b) r o := by
    intro r o
    constructor
    · exact Relation.ReflTransGen.mono
        (fun _ _ hb => ⟨((nodup_distinct _).mem_erase_iff.mp hb.1).1, hb.2⟩) _ _
    · exact Relation.ReflTransGen.mono
        (fun _ _ hb => ⟨(List.mem_erase_of_ne hb.1).mpr hb.2.mem_dependencyStars, hb.2⟩) _ _
  simp only [mem_groundedTargets, grounded_iff, hwalks]
  constructor
  · exact fun h => h.2
  · rintro ⟨d, hd, hnested, h⟩
    exact ⟨mem_distinct.mpr (List.mem_flatMap.mpr ⟨d, hd, by simp [hnested]⟩), d, hd, hnested, h⟩

/-! ### Any steps that explain -/

/-- The shapes that explain a star, where `E a b s` is a step from the star `a` to the star `b` that
explains it by the shape `s`: a step comes from another star, and a walk leads there from a star
that is ready without passing the star itself. -/
def explainedBy (E : String → String → String → Prop) (ready : Set String) (name : String) :
    Set String :=
  {s | ∃ a, E a name s ∧ a ≠ name ∧ ∃ r ∈ ready,
    Relation.ReflTransGen (fun x y => y ≠ name ∧ x ≠ y ∧ ∃ s, E x y s) r a}

/-- More steps and more stars that are ready explain more. -/
lemma explainedBy_mono {E E' : String → String → String → Prop} {ready ready' : Set String}
    (hE : ∀ a b s, E a b s → E' a b s) (hready : ready ⊆ ready') (name : String) :
    explainedBy E ready name ⊆ explainedBy E' ready' name := by
  rintro s ⟨a, ha, hne, r, hr, hwalk⟩
  refine ⟨a, hE _ _ _ ha, hne, r, hready hr, Relation.ReflTransGen.mono ?_ _ _ hwalk⟩
  rintro x y ⟨hy, hxy, s, hs⟩
  exact ⟨hy, hxy, s, hE _ _ _ hs⟩

/-- A full dependency is a step that explains. -/
def FullEdge (edges : List Dependency) (a b s : String) : Prop :=
  ∃ d ∈ edges, d.full = true ∧ d.origin = a ∧ d.nested = b ∧ d.target = s

/-- Which shapes explain a star depends on nothing but the ends and the targets of the full
dependencies and on the stars that are ready. -/
theorem mem_groundedTargets_iff_explainedBy {name target : String} :
    target ∈ groundedTargets edges ready (dependencyStars edges) name ↔
      target ∈ explainedBy (FullEdge edges) {r | ready r = true} name := by
  have hsteps : (fun x y => y ≠ name ∧ Steps edges x y) =
      fun x y => y ≠ name ∧ x ≠ y ∧ ∃ s, FullEdge edges x y s := by
    funext x y
    simp [Steps, FullEdge]
  rw [mem_groundedTargets_iff, hsteps]
  constructor
  · rintro ⟨d, hd, rfl, hfull, hne, rfl, hwalk⟩
    exact ⟨d.origin, ⟨d, hd, hfull, rfl, rfl, rfl⟩, hne, hwalk⟩
  · rintro ⟨_, ⟨d, hd, hfull, rfl, hnested, htarget⟩, hne, hwalk⟩
    exact ⟨d, hd, hnested, hfull, hne, htarget, hwalk⟩

end StarShapes
