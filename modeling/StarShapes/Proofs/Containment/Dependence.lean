import StarShapes.Proofs.Binding.Calls
import StarShapes.Proofs.Containment.Grounding
import StarShapes.Proofs.Containment.Solution

/-!
Dependence: what it means that a star is reported to depend on a shape.

* `full_bind_iff_of_dependent`: the star is bound in full by that shape unless
  it hinges on a circle.
* `Problem.halfCircle`: two stars with rays to each other, one of which has a
  ray too many.
-/

namespace StarShapes

namespace Problem

variable {p : Problem}

/-- A dependency of the problem belongs to a task, which conforms if it is
reported full and the others on its circles do. -/
lemma task_of_mem_dependencies {d : Dependency} (h : d ∈ dependencies p.table) :
    ∃ u : Task, u.star = d.nested ∧ p.own? d.target = some u.shape ∧
      u.star ∈ p.query.names ∧ (d.full = true → p.scene.ConformsIf (p.scene.mates u) u) := by
  obtain ⟨n, row, b, hmem, hb, hd⟩ := mem_dependencies.mp h
  obtain ⟨_, _, _, hfinds⟩ := p.tabulates.found n row b hmem hb
  obtain ⟨u, hstar, -, hs, hnames, hfull⟩ :=
    hfinds.task_of_mem_dependencies (fun a ha => absurd ha (Set.notMem_empty a)) hd
  exact ⟨u, hstar, (get?_scene p _).symm.trans hs, hnames, hfull⟩

/-- **What a star is reported to depend on.** The target is one of the shapes of
the problem, and there are bindings of the star against it; they are full
exactly if the star does not hinge on a circle, that is, unless it fails only
because the others on a circle with it fail. -/
theorem full_bind_iff_of_dependent (p : Problem) {n target : String}
    (h : p.solve.Reports n .dependent target) :
    ∃ s ∈ p.shapes ++ p.dependent, s.name = target ∧ p.own? target = some s ∧
      ∃ b, (Memory.empty.bind p.scene s n).1 = some b ∧
        (b.full = true ↔ ¬ p.scene.Hinges ⟨s, n⟩) := by
  obtain ⟨-, d, hd, rfl, hfull, -, rfl, -⟩ := mem_groundedTargets.mp (grounded_of_reports h)
  obtain ⟨u, hstar, hown, hnames, hmates⟩ := task_of_mem_dependencies hd
  obtain ⟨hmem, hname⟩ := mem_of_own? hown
  rw [← hstar]
  have hloaded : u.shape ∈ p.scene.shapes.toList :=
    Keyed.mem_of_get? ((get?_scene p _).trans hown)
  obtain ⟨-, -, hfinds, hsome⟩ := Scene.finds_bind p.scene.shapes.injOn
    (fun _ _ hs => Keyed.mem_of_get? hs) (Set.mem_univ u) hloaded Memory.sound_empty
  obtain ⟨b, hb⟩ := hsome hnames
  refine ⟨u.shape, hmem, hname, hown, b, hb, ?_⟩
  rw [(hfinds b hb).full_iff_conforms]
  constructor
  · exact fun hconf hhinges => hhinges.1 hconf
  · intro hhinges
    by_contra hconf
    exact hhinges ⟨hconf, hmates hfull⟩

/-- Two stars with rays to each other, of which the first has a ray that its
shape does not allow. -/
def halfCircle : Problem where
  query := .ofStars [.ofPairs "b" [("p", .var "c"), ("q", .var "x")],
    .ofPairs "c" [("r", .var "b")]]
  shapes := [.asking "S" [("p", some "T")], .asking "T" [("r", some "S")]]
  dependent := []
  deciding? := none

/-- The second star is reported to depend on a shape that it fails: it was bound
in full while the first was assumed, which failed in the end. -/
theorem halfCircle_dependent : halfCircle.solve.Reports "c" .dependent "T" ∧
    halfCircle.own? "T" = some (.asking "T" [("r", some "S")]) ∧
      (Memory.empty.bind halfCircle.scene (.asking "T" [("r", some "S")]) "c").1.map Bindings.full =
        some false := by
  refine ⟨?_, ?_, ?_⟩ <;> decide +kernel

/-- That star hinges on the circle. -/
theorem halfCircle_hinges : halfCircle.scene.Hinges ⟨.asking "T" [("r", some "S")], "c"⟩ := by
  have hreports : halfCircle.solve.Reports "c" .dependent "T" := by decide +kernel
  have hown : halfCircle.own? "T" = some (.asking "T" [("r", some "S")]) := by decide +kernel
  have hbind : (Memory.empty.bind halfCircle.scene (.asking "T" [("r", some "S")]) "c").1.map
      Bindings.full = some false := by decide +kernel
  obtain ⟨s, -, -, hs, b, hb, hfull⟩ := full_bind_iff_of_dependent halfCircle hreports
  obtain rfl : s = .asking "T" [("r", some "S")] := Option.some.inj (hs.symm.trans hown)
  by_contra hhinges
  rw [hb, Option.map_some, hfull.mpr hhinges] at hbind
  cases hbind

end Problem

end StarShapes
