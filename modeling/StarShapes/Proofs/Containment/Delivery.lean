import StarShapes.Proofs.Binding.Unrolling
import StarShapes.Proofs.Containment.Links

/-!
Delivery: what links are left of stars that depend on others, in queries without UNION.

* `Problem.ReachedInFull`: a star is reached from a task of the problem in steps to tasks that
  conform.
* `accountsFor_iff`: the triples of these stars are accounted for, and where no task hinges on a
  circle, no others but those that bindings of their own star bind.
* `links_of_dependent`: a star that depends on others is the star of a full dependency. It has no
  link if it is reached in full, or if the bindings that report this dependency report full ones
  alone.
* `Problem.brokenRow`: a star that depends on another, which is not bound in full, and has a link.
-/

namespace StarShapes

namespace Problem

variable {p : Problem} {n s : String} {b : Bindings} {d : Dependency} {triple : Triple}

/-- A star to which steps lead from a task of the problem, each to a task that conforms. -/
def ReachedInFull (p : Problem) (n : String) : Prop :=
  ∃ t ∈ p.tasks, ∃ u : Task, Relation.TransGen p.scene.LeadsInFull t u ∧ u.star = n

/-! ### What is accounted for -/

/-- The triples of a star that is reached in full are accounted for. -/
lemma accountsFor_of_reachedInFull (hq : p.query.unions = []) (h : p.ReachedInFull n)
    (htriple : triple ∈ p.query.triplesOf n) : p.solve.AccountsFor triple := by
  obtain ⟨t, ht, u, hwalk, rfl⟩ := h
  obtain ⟨b, hb, hfinds⟩ := exists_holds_of_task ht
  exact ⟨b, hb, hfinds.bound_or_nestedBound_of_walk hq hwalk htriple⟩

/-- Where no task hinges on a circle, a triple is accounted for if bindings of its star bind it, or
if it belongs to a star that is reached in full. -/
lemma accountsFor_iff (hq : p.query.unions = []) (hcalm : ∀ t ∈ p.tasks, p.scene.Calm t) :
    p.solve.AccountsFor triple ↔ (∃ b, p.solve.Holds b ∧ triple ∈ b.bound) ∨
      ∃ n, p.ReachedInFull n ∧ triple ∈ p.query.triplesOf n := by
  constructor
  · rintro ⟨b, hb, hbound | hnested⟩
    · exact Or.inl ⟨b, hb, hbound⟩
    · obtain ⟨t, ht, hfinds⟩ := exists_task_of_holds hb
      obtain ⟨u, hwalk, htriple⟩ :=
        hfinds.exists_walk (fun a ha => absurd ha (Set.notMem_empty a)) (hcalm t ht) hnested
      exact Or.inr ⟨u.star, ⟨t, ht, u, hwalk, rfl⟩, htriple⟩
  · rintro (⟨b, hb, hbound⟩ | ⟨n, hreached, htriple⟩)
    · exact ⟨b, hb, Or.inl hbound⟩
    · exact accountsFor_of_reachedInFull hq hreached htriple

/-- The triples of the star of a dependency are accounted for if the bindings that report it report
full dependencies alone. -/
lemma accountsFor_of_dependencies (hq : p.query.unions = []) (hb : p.solve.Holds b)
    (hall : ∀ d ∈ b.dependencies, d.full = true) (hd : d ∈ b.dependencies)
    (htriple : triple ∈ p.query.triplesOf d.nested) : p.solve.AccountsFor triple := by
  obtain ⟨t, -, hfinds⟩ := exists_task_of_holds hb
  exact ⟨b, hb, Or.inr (hfinds.nestedBound_of_dependencies hq hall hd htriple)⟩

/-! ### Stars that depend on others -/

/-- A star that depends on a shape is the star of a full dependency on it. -/
lemma exists_dependency_of_dependent (h : p.solve.Reports n .dependent s) :
    ∃ b, p.solve.Holds b ∧ ∃ d ∈ b.dependencies, d.nested = n ∧ d.target = s ∧ d.full = true := by
  obtain ⟨-, d, hd, hnested, hfull, -, htarget, -⟩ := mem_groundedTargets.mp (grounded_of_reports h)
  obtain ⟨k, row, b, hmem, hb, hd⟩ := mem_dependencies.mp hd
  exact ⟨b, holds_solve_iff.mpr ⟨k, row, hmem, hb⟩, d, hd, hnested, htarget, hfull⟩

/-- **What links are left of a star that depends on others**, in a query without UNION. Bindings
report it by a full dependency. It has no link if it is reached in full, or if some bindings report
it among full dependencies alone. Where no task hinges on a circle, its links are the named nodes at
the objects of those triples that no bindings bind and that belong to no star reached in full. -/
theorem links_of_dependent (hq : p.query.unions = []) (h : p.solve.Reports n .dependent s) :
    (∃ b, p.solve.Holds b ∧ ∃ d ∈ b.dependencies,
      d.nested = n ∧ d.target = s ∧ d.full = true) ∧
    (p.ReachedInFull n ∨ (∃ b, p.solve.Holds b ∧ (∀ d ∈ b.dependencies, d.full = true) ∧
      ∃ d ∈ b.dependencies, d.nested = n) → ∀ iri, ⟨iri, n⟩ ∉ p.solve.links) ∧
    ((∀ t ∈ p.tasks, p.scene.Calm t) → ∀ iri, ⟨iri, n⟩ ∈ p.solve.links ↔
      ∃ triple ∈ p.query.triplesOf n, triple.object = .named iri ∧
        (∀ b, p.solve.Holds b → triple ∉ b.bound) ∧
          ∀ m, p.ReachedInFull m → triple ∉ p.query.triplesOf m) := by
  have hreported := exists_dependency_of_dependent h
  have hp : p.shapes ≠ [] := by
    obtain ⟨b, hb, -⟩ := hreported
    obtain ⟨t, ht, -⟩ := exists_task_of_holds hb
    exact List.ne_nil_of_mem ht.1
  refine ⟨hreported, fun hdelivered iri hlink => ?_, fun hcalm iri => ?_⟩
  · obtain ⟨triple, htriple, -, hleft⟩ := (mem_links_iff hp).mp hlink
    refine hleft ?_
    rcases hdelivered with hreached | ⟨b, hb, hall, d, hd, rfl⟩
    · exact accountsFor_of_reachedInFull hq hreached htriple
    · exact accountsFor_of_dependencies hq hb hall hd htriple
  · rw [mem_links_iff hp]
    refine exists_congr fun triple => and_congr_right fun _ => and_congr_right fun _ => ?_
    rw [accountsFor_iff hq hcalm]
    simp only [not_or, not_exists, not_and]

/-- Three stars in a row. The shape of the second asks for that of the third, and does not allow
another ray that the second has. -/
def brokenRow : Problem where
  query := .ofStars [.ofPairs "a" [("p", .var "b")],
    .ofPairs "b" [("q", .var "c"), ("z", .var "x")], .ofPairs "c" [("r", .named "i")]]
  shapes := [.asking "A" [("p", some "B"), ("z", none)]]
  dependent := [.asking "B" [("q", some "C")], .asking "C" [("r", none)]]
  deciding? := none

/-- The third star depends on its shape, which binds all its triples, and has a link: the second
star is not bound in full, and does not pass on what was bound beyond it. -/
theorem brokenRow_links : brokenRow.query.unions = [] ∧
    brokenRow.solve.Reports "c" .dependent "C" ∧
      brokenRow.solve.links = [⟨"i", "c"⟩] := by
  refine ⟨?_, ?_, ?_⟩ <;> decide +kernel

/-- The third star is not reached in full, and no task hinges on a circle. -/
theorem brokenRow_unreached : brokenRow.query.unions = [] ∧
    brokenRow.solve.Reports "c" .dependent "C" ∧ (∀ t ∈ brokenRow.tasks, brokenRow.scene.Calm t) ∧
      ¬ brokenRow.ReachedInFull "c" ∧ ∃ triple ∈ brokenRow.query.triplesOf "c",
        ∀ b, brokenRow.solve.Holds b → triple ∉ b.bound := by
  have hq : brokenRow.query.unions = [] := by decide +kernel
  have hreports : brokenRow.solve.Reports "c" .dependent "C" := by decide +kernel
  have hacyclic : ∀ t, brokenRow.scene.Acyclic t :=
    Scene.acyclic_of_rank (["c", "b", "a"].idxOf ·) (by decide +kernel)
  have hcalm : ∀ t ∈ brokenRow.tasks, brokenRow.scene.Calm t := fun t _ u hu =>
    Scene.not_hinges_of_not_transGen (hacyclic t u hu)
  have hlink : ⟨"i", "c"⟩ ∈ brokenRow.solve.links := by decide +kernel
  obtain ⟨-, hnone, hexact⟩ := links_of_dependent hq hreports
  obtain ⟨triple, htriple, -, hfree, -⟩ := (hexact hcalm "i").mp hlink
  exact ⟨hq, hreports, hcalm, fun hreached => hnone (Or.inl hreached) "i" hlink, triple, htriple,
    hfree⟩

end Problem

end StarShapes
