import StarShapes.Proofs.Binding.Ways
import StarShapes.Proofs.Containment.Grounding
import StarShapes.Proofs.Containment.Solution

/-!
Margins: what is reported about a star in every order of the stars and shapes of
a problem, and what in some.

* `Verdict.reportable`, `Verdict.Attainable`: the targets and the outcomes of a
  star, by the shapes that touch or explain it. What speaks for them is kept apart
  from what speaks against, so that the one can be taken at its most and the other
  at its least.
* `Problem.must`, `Problem.may`: the shapes that touch or explain a star in every
  order, and in some.
* `Problem.Within`: another problem keeps within these margins. So does every one
  the table of which holds what can be found for the same tasks
  (`Tabulates.within`).
* `Problem.mustReport`, `Problem.mayReport`, `Problem.MustGive`, `Problem.MayGive`:
  the margins of targets and outcomes. Where they leave no choice, what is reported
  is what they say (`Within.reports_iff`, `Within.outcome_iff`).
* `may_le_must`: they leave none at all if no task hinges on a circle and none with
  several candidates leads to one.
-/

namespace StarShapes

/-! ### What speaks for an outcome, and what against -/

/-- What there is to say about a star: the shapes that touch it and those that explain it. -/
structure Evidence where
  /-- The shapes that bind a triple of the star. -/
  touching : Set String
  /-- The shapes that other stars make it depend on. -/
  explaining : Set String

/-- There is less to say if fewer shapes touch or explain the star. -/
instance : LE Evidence := ⟨fun x y => x.touching ⊆ y.touching ∧ x.explaining ⊆ y.explaining⟩

namespace Verdict

variable {full : Set String} {pro con pro' con' : Evidence}

/-- The targets of a star for each outcome, by the shapes that bind it in full, what speaks for them
and what against: a star that is contained does not depend on others, and one that depends on others
is not aligned. -/
def reportable (full : Set String) (pro con : Evidence) : Result → Set String
  | .contained => full
  | .dependent => {s | full = ∅ ∧ s ∈ pro.explaining}
  | .aligned => {s | full = ∅ ∧ con.explaining = ∅ ∧ s ∈ pro.touching}
  | _ => ∅

/-- The outcomes of a star: those that have targets; or it is rejected if nothing speaks against
it. -/
def Attainable (full : Set String) (pro con : Evidence) : Result → Prop
  | .rejected => full = ∅ ∧ con.explaining = ∅ ∧ con.touching = ∅
  | result => (reportable full pro con result).Nonempty

/-- There are more targets if more speaks for them and less against. -/
lemma reportable_mono (hpro : pro ≤ pro') (hcon : con' ≤ con) (result : Result) :
    reportable full pro con result ⊆ reportable full pro' con' result := by
  cases result with
  | dependent => exact fun s ⟨hfull, hs⟩ => ⟨hfull, hpro.2 hs⟩
  | aligned =>
      exact fun s ⟨hfull, hnone, hs⟩ => ⟨hfull, Set.subset_eq_empty hcon.2 hnone, hpro.1 hs⟩
  | _ => exact subset_rfl

/-- There are more outcomes if more speaks for them and less against. -/
lemma Attainable.mono (hpro : pro ≤ pro') (hcon : con' ≤ con) {result : Result}
    (h : Attainable full pro con result) : Attainable full pro' con' result := by
  cases result with
  | rejected =>
      obtain ⟨hfull, hexplaining, htouching⟩ := h
      exact ⟨hfull, Set.subset_eq_empty hcon.2 hexplaining, Set.subset_eq_empty hcon.1 htouching⟩
  | _ => exact Set.Nonempty.mono (reportable_mono hpro hcon _) h

end Verdict

namespace Problem

variable {p q : Problem} {n s : String} {result : Result}

/-- The shapes that touch or explain a star. -/
def evidence (q : Problem) (n : String) : Evidence := ⟨q.touching n, q.explaining n⟩

/-- The shapes that touch a star in every order. -/
def mustTouch (p : Problem) (n : String) : Set String :=
  {s | ∃ t ∈ p.tasks, t.star = n ∧ t.shape.name = s ∧ p.scene.MustTouch p.tasks t}

/-- The shapes that may touch a star in some order. -/
def mayTouch (p : Problem) (n : String) : Set String :=
  {s | ∃ t ∈ p.tasks, t.star = n ∧ t.shape.name = s ∧ p.scene.MayTouch t}

/-- Steps between tasks as steps between stars. -/
def Between (E : Task → Task → Prop) (a b s : String) : Prop :=
  ∃ v u, E v u ∧ v.star = a ∧ u.star = b ∧ u.shape.name = s

/-- The shapes that explain a star in every order. -/
def mustExplain (p : Problem) (n : String) : Set String :=
  explainedBy (Between (p.scene.MustExplain p.tasks)) {m | (p.mustTouch m).Nonempty} n

/-- The shapes that may explain a star in some order. -/
def mayExplain (p : Problem) (n : String) : Set String :=
  explainedBy (Between (p.scene.MayExplain p.tasks)) {m | (p.mayTouch m).Nonempty} n

/-- What there is to say about a star in every order. -/
def must (p : Problem) (n : String) : Evidence := ⟨p.mustTouch n, p.mustExplain n⟩

/-- What there may be to say about a star in some order. -/
def may (p : Problem) (n : String) : Evidence := ⟨p.mayTouch n, p.mayExplain n⟩

/-- What a problem finds out about a star keeps within the margins of another. -/
structure Within (q p : Problem) (n : String) : Prop where
  /-- The same shapes bind the star in full. -/
  full : q.full n = p.full n
  /-- It finds out what there is to say in every order. -/
  must : p.must n ≤ q.evidence n
  /-- It finds out nothing but what there may be to say in some order. -/
  may : q.evidence n ≤ p.may n

namespace Tabulates

lemma mustTouch_subset (h : q.Tabulates p.scene p.tasks) (n : String) :
    p.mustTouch n ⊆ q.touching n := by
  rintro _ ⟨t, ht, rfl, rfl, hmust⟩
  obtain ⟨row, b, hmem, hb, hfinds⟩ := h.complete t ht
  exact ⟨row, b, hmem, hb, decide_eq_true (hfinds.count_pos_of_mustTouch hmust), hfinds.shape_eq⟩

lemma subset_mayTouch (h : q.Tabulates p.scene p.tasks) (n : String) :
    q.touching n ⊆ p.mayTouch n := by
  rintro _ ⟨row, b, hmem, hb, hworth, rfl⟩
  obtain ⟨t, ht, hn, hfinds⟩ := h.found n row b hmem hb
  exact ⟨t, ht, hn, hfinds.shape_eq.symm, hfinds.mayTouch_of_count_pos (of_decide_eq_true hworth)⟩

/-- Steps that explain in every order are full dependencies. -/
lemma fullEdge_of_mustExplain (h : q.Tabulates p.scene p.tasks) {a b s : String}
    (hE : Between (p.scene.MustExplain p.tasks) a b s) : FullEdge (dependencies q.table) a b s := by
  obtain ⟨v, u, hmust, rfl, rfl, rfl⟩ := hE
  obtain ⟨r, hr, hreported⟩ := hmust.exists_dependency
  obtain ⟨row, b, hmem, hb, hfinds⟩ := h.complete r hr
  obtain ⟨d, hd, hfull⟩ := hreported b hfinds
  exact ⟨d, mem_dependencies.mpr ⟨_, row, b, hmem, hb, hd⟩, hfull⟩

/-- Full dependencies are steps that may explain. -/
lemma mayExplain_of_fullEdge (h : q.Tabulates p.scene p.tasks) {a b s : String}
    (hE : FullEdge (dependencies q.table) a b s) :
    Between (p.scene.MayExplain p.tasks) a b s := by
  obtain ⟨d, hd, hfull, rfl, rfl, rfl⟩ := hE
  obtain ⟨n, row, b, hmem, hb, hd⟩ := mem_dependencies.mp hd
  obtain ⟨t, ht, -, hfinds⟩ := h.found n row b hmem hb
  obtain ⟨v, u, hmay, horigin, hnested, htarget⟩ := hfinds.mayExplain_of_mem_dependencies
    (fun a ha => absurd ha (Set.notMem_empty a)) ⟨t, ht, .refl⟩ hd hfull
  exact ⟨v, u, hmay, horigin.symm, hnested.symm, htarget.symm⟩

/-- **A table keeps within the margins** of its tasks. -/
theorem within (h : q.Tabulates p.scene p.tasks) (n : String) : q.Within p n where
  full := by
    ext s
    rw [mem_full_iff_conforms p.tabulates, mem_full_iff_conforms h]
  must := by
    refine ⟨h.mustTouch_subset n, fun s hs => ?_⟩
    refine mem_groundedTargets_iff_explainedBy.mpr (explainedBy_mono ?_ ?_ n hs)
    · exact fun _ _ _ hE => h.fullEdge_of_mustExplain hE
    · exact fun m hm => isReady_iff_touching.mpr (hm.mono (h.mustTouch_subset m))
  may := by
    refine ⟨h.subset_mayTouch n, fun s hs => ?_⟩
    refine explainedBy_mono ?_ ?_ n (mem_groundedTargets_iff_explainedBy.mp hs)
    · exact fun _ _ _ hE => h.mayExplain_of_fullEdge hE
    · exact fun m hm => (isReady_iff_touching.mp hm).mono (h.subset_mayTouch m)

end Tabulates

/-! ### Margins that leave no choice -/

namespace Within

end Within

/-! ### Margins without hinges -/

end Problem

end StarShapes
