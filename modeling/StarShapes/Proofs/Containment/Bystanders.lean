import StarShapes.Proofs.Binding.Asking
import StarShapes.Proofs.Containment.Classification
import StarShapes.Proofs.Containment.Shuffling

/-!
Bystanders: dependent shapes that no rule leads to have no part in a solution, and those that some
rule leads to show up only where stars depend on others.

* `Problem.withDependent`: the problem with more dependent shapes after its own.
* `alikeFor_withDependent`: if no shape asks for one of them, the shapes of the problem are matched
  as before, and so is the whole table (`table_withDependent`).
* `name_mem_of_reports`: a star that does not depend on others is reported with shapes that stars
  are classified against.
* `solve_withDependent`: what dependent shapes do to a solution.
-/

namespace StarShapes

namespace Problem

variable {p : Problem} {ts : List Shape}

/-! ### Shapes that no rule leads to -/

/-- The problem with further dependent shapes at the end. -/
def withDependent (p : Problem) (ts : List Shape) : Problem :=
  { p with dependent := p.dependent ++ ts }

/-- A name that none of the further shapes has stands for the same shape. -/
lemma own?_withDependent {name : String} (h : ∀ t ∈ ts, t.name ≠ name) :
    (p.withDependent ts).own? name = p.own? name := by
  have hnone : ts.find? (fun t => t.name = name) = none := by
    rw [List.find?_eq_none]
    exact fun t ht => by simpa using h t ht
  rw [own?, own?, withDependent]
  dsimp only
  rw [← List.append_assoc, List.find?_append, hnone, Option.or_none]

/-- Where no shape asks for one of the further shapes, all find the same shapes. -/
lemma alikeFor_withDependent
    (h : ∀ s ∈ p.shapes ++ p.dependent, ∀ t ∈ ts, ¬ s.AsksFor t.name) :
    p.scene.AlikeFor (p.withDependent ts).scene {s | s ∈ p.shapes ++ p.dependent} where
  query := rfl
  asked s hs name hasks := by
    rw [get?_scene, get?_scene, own?_withDependent]
    rintro t ht rfl
    exact h s hs t ht hasks
  found name s hs := by
    rw [get?_scene] at hs
    exact (mem_of_own? hs).1

/-- Stars are matched alike against shapes that find the same shapes. -/
lemma bindRows_of_alike {scene scene' : Scene} {known : Set Shape}
    (h : scene.AlikeFor scene' known) {shapes : List Shape} (hshapes : ∀ s ∈ shapes, s ∈ known)
    (names : List String) {m : Memory} (hm : m.Labelled scene) :
    bindRows scene' shapes names m = bindRows scene shapes names m := by
  induction names generalizing m with
  | nil => rfl
  | cons n names ih =>
      have hcalls : ∀ t ∈ shapes.map fun s => (⟨s, n⟩ : Task), t.shape ∈ known := by
        intro t ht
        obtain ⟨s, hs, rfl⟩ := List.mem_map.mp ht
        exact hshapes s hs
      have hrow : bindRow scene' n shapes m = bindRow scene n shapes m := by
        rw [bindRow_eq_bindAll, bindRow_eq_bindAll, Memory.bindAll_of_alike h hcalls hm]
      rw [bindRows, bindRows, hrow]
      exact congrArg _ (ih (labelled_bindRow n shapes hm))

/-- Where no shape asks for one of the further shapes, the table stays as it is. -/
lemma table_withDependent (h : ∀ s ∈ p.shapes ++ p.dependent, ∀ t ∈ ts, ¬ s.AsksFor t.name) :
    (p.withDependent ts).table = p.table :=
  bindRows_of_alike (alikeFor_withDependent h) (fun _ hs => List.mem_append_left _ hs)
    p.query.names Memory.labelled_empty

/-! ### Shapes that a star is reported with -/

/-- A star that does not depend on others is reported with shapes that stars are classified
against. -/
lemma name_mem_of_reports {n s : String} {result : Result} (h : p.solve.Reports n result s)
    (hresult : result ≠ .dependent) : s ∈ p.shapes.map Shape.name := by
  obtain ⟨c, targets, hc, rfl, htargets, hs⟩ := h
  obtain ⟨row, hmem, rfl⟩ := mem_containments.mp hc
  have hrow : ∀ P : Bindings → Bool, s ∈ Verdict.shapesOf P row → s ∈ p.shapes.map Shape.name := by
    intro P hs
    obtain ⟨b, hb, -, rfl⟩ := Verdict.mem_shapesOf.mp hs
    exact map_shape_row hmem ▸ List.mem_map_of_mem hb
  rcases verdict_reported hmem with ⟨he, -⟩ | ⟨-, _, -, -, -, he⟩
  · rw [he] at htargets
    exact (Verdict.mem_of_targets?_ofShapes htargets hs).elim (hrow _) (hrow _)
  · exact absurd (he ▸ rfl) hresult

/-- **Dependent shapes matter only where rules lead to them.** Further dependent shapes leave the
whole solution as it is, if no shape asks for one of them. And a dependent shape that stars are not
classified against has no flag and no bindings, and a star is reported with it only if it depends on
others. -/
theorem solve_withDependent (p : Problem) :
    (∀ ts, (∀ s ∈ p.shapes ++ p.dependent, ∀ t ∈ ts, ¬ s.AsksFor t.name) →
      (p.withDependent ts).solve = p.solve) ∧
      ∀ s ∈ p.dependent, s.name ∉ p.shapes.map Shape.name →
        s.name ∉ p.solve.visits.keys ∧
        (∀ n c, (n, c) ∈ p.solve.containments → s.name ∉ c.bindings.keys) ∧
        ∀ n result, p.solve.Reports n result s.name → result = .dependent := by
  refine ⟨fun ts h => ?_, fun s _ hname => ⟨?_, fun n c hc => ?_, fun n result hreports => ?_⟩⟩
  · rw [solve, table_withDependent h]
    rfl
  · rwa [keys_visits, mem_distinct]
  · obtain ⟨row, hmem, rfl⟩ := mem_containments.mp hc
    rwa [keys_reported hmem, mem_distinct]
  · by_contra hresult
    exact hname (name_mem_of_reports hreports hresult)

/-- One more dependent shape, which asks for another, has no part in the solution of a circle. The
dependent shape of the circle has one, but for the visits. -/
theorem wholeCircle_withDependent :
    (∀ s ∈ (wholeCircle id).shapes ++ (wholeCircle id).dependent,
      ∀ t ∈ [Shape.asking "V" [("r", some "S")]], ¬ s.AsksFor t.name) ∧
    ((wholeCircle id).withDependent [.asking "V" [("r", some "S")]]).solve =
      (wholeCircle id).solve ∧
    (wholeCircle id).solve.Reports "c" .dependent "T" ∧
    "T" ∉ (wholeCircle id).solve.visits.keys := by
  have hunasked : ∀ s ∈ (wholeCircle id).shapes ++ (wholeCircle id).dependent,
      ∀ t ∈ [Shape.asking "V" [("r", some "S")]], ¬ s.AsksFor t.name := by decide +kernel
  obtain ⟨hsame, hdependent⟩ := solve_withDependent (wholeCircle id)
  obtain ⟨hvisits, -⟩ := hdependent (.asking "T" [("r", some "S")]) List.mem_cons_self
    (by decide +kernel)
  exact ⟨hunasked, hsame _ hunasked, by decide +kernel, hvisits⟩

end Problem

end StarShapes
