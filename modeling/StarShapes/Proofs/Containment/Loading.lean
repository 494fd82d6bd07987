import StarShapes.Proofs.Binding.Calls
import StarShapes.Proofs.Containment.Solution

/-!
Loading: what more dependent shapes do to a problem.

* `Problem.Loads`: a problem with dependent shapes of new names added to those
  of another.
* `contained_of_loads`: containment is only ever lost, and it is lost only where
  a shape is loaded that was reported missing.
-/

namespace StarShapes

namespace Scene

variable {scene scene' : Scene} {t : Task}

/-- A ray that is left to another task is left to it in an extended scene. -/
lemma Extends.next?_eq_some (hext : scene.Extends scene') {shape : Shape} {ray : Ray} {u : Task}
    (h : scene.next? shape ray = some u) : scene'.next? shape ray = some u := by
  obtain ⟨hc, hd, hs, hn⟩ := next?_eq_some_iff.mp h
  exact next?_eq_some_iff.mpr ⟨hc, hd, hext.shapes _ _ hs, hext.query ▸ hn⟩

/-- What conforms in an extended scene conforms: there is less to ask for. -/
lemma Extends.conforms (hext : scene.Extends scene') (ht : scene'.Conforms t) :
    scene.Conforms t := by
  refine conforms_of_subset (X := {u | scene'.Conforms u}) ?_ ht
  intro u hu
  obtain ⟨c, hc, hm⟩ := mem_conform.mp (conforms_iff_mem_conform.mp hu)
  obtain ⟨hne, hall⟩ := meets_iff.mp hm
  refine mem_conform.mpr ⟨c, hext.query ▸ hc, meets_iff.mpr ⟨hne, fun ray hray => ?_⟩⟩
  exact ⟨(hall ray hray).1, fun v hv =>
    Or.inl ((hall ray hray).2 v (hext.next?_eq_some hv))⟩

end Scene

namespace Problem

variable {p p' : Problem}

/-- The names of all shapes of a problem. -/
def loaded (p : Problem) : List String := (p.shapes ++ p.dependent).map Shape.name

/-- A problem has the dependent shapes of another and, anywhere among them,
shapes whose names are new. -/
structure Loads (p p' : Problem) : Prop where
  /-- The query is the same. -/
  query : p'.query = p.query
  /-- Stars are classified against the same shapes. -/
  shapes : p'.shapes = p.shapes
  /-- Without the shapes of new names the dependent shapes are the same. -/
  dependent : p'.dependent.filter (fun s => s.name ∈ p.loaded) = p.dependent

lemma mem_loaded_of_own? {name : String} {s : Shape} (h : p.own? name = some s) :
    name ∈ p.loaded :=
  List.mem_map.mpr ⟨s, mem_of_own? h⟩

/-- A name that was there stands for the same shape. -/
lemma Loads.own?_eq (h : p.Loads p') {name : String} (hname : name ∈ p.loaded) :
    p'.own? name = p.own? name := by
  rw [own?, own?, List.find?_append, List.find?_append, h.shapes, ← h.dependent,
    List.find?_filter]
  congr 2
  funext s
  by_cases hs : s.name = name
  · simp [hs, hname]
  · simp [hs]

lemma Loads.extends (h : p.Loads p') : p.scene.Extends p'.scene where
  query := h.query
  shapes name s hs := by
    rw [get?_scene] at hs ⊢
    rw [h.own?_eq (mem_loaded_of_own? hs), hs]

/-- The shapes reported missing are those that bindings in the table report. -/
lemma mem_unresolved_solve {x : Unresolved} : x ∈ p.solve.unresolved ↔
    ∃ n row b, (n, row) ∈ p.table ∧ b ∈ row ∧ x ∈ b.unresolved := by
  simp only [solve, entries, mem_distinct, List.mem_flatMap]
  constructor
  · rintro ⟨b, ⟨⟨n, row⟩, hmem, hb⟩, hx⟩
    exact ⟨n, row, b, hmem, hb, hx⟩
  · rintro ⟨n, row, b, hmem, hb, hx⟩
    exact ⟨b, ⟨(n, row), hmem, hb⟩, hx⟩

/-- The tasks stay the same. -/
lemma Loads.tasks_eq (h : p.Loads p') : p'.tasks = p.tasks := by
  ext t
  rw [tasks, tasks, h.query, h.shapes]
  refine and_congr_right fun hs => and_congr_left fun _ => ?_
  rw [h.own?_eq (List.mem_map_of_mem (List.mem_append_left _ hs))]

/-- Full bindings in the table still mean conformance when shapes are loaded
that were not reported missing. -/
lemma Loads.conforms_of_full (h : p.Loads p')
    (hmissing : ∀ x ∈ p.solve.unresolved, ∀ s ∈ p'.dependent, s.name ∉ p.loaded →
      s.name ≠ x.shape) {n : String} {row : List Bindings} (hmem : (n, row) ∈ p.table)
    {b : Bindings} (hb : b ∈ row) (hfull : b.full = true) {t : Task}
    (hfinds : p.scene.Finds p.tasks ∅ t b) : p'.scene.Conforms t := by
  refine (hfinds.conformsIf_of_extends h.extends hfull fun x hx => ?_).conforms
    fun u hu => absurd hu (Set.notMem_empty u)
  have hold : x.shape ∉ p.loaded := by
    intro hmem
    obtain ⟨s, hs, he⟩ := List.mem_map.mp hmem
    have hnone := hfinds.get?_of_mem_unresolved hx
    rw [get?_scene, own?, List.find?_eq_none] at hnone
    exact hnone s hs (by simpa using he)
  rw [get?_scene]
  by_contra hne
  obtain ⟨s, hs⟩ := Option.ne_none_iff_exists'.mp hne
  obtain ⟨hs, he⟩ := mem_of_own? hs
  rcases List.mem_append.mp hs with hs | hs
  · rw [h.shapes] at hs
    exact hold (he ▸ List.mem_map_of_mem (List.mem_append_left _ hs))
  · exact hmissing x (mem_unresolved_solve.mpr ⟨n, row, b, hmem, hb, hx⟩) s hs
      (he ▸ hold) he

/-- **Loading shapes only refines containment.** When dependent shapes of new
names are added, a star that is reported contained in a shape was so before;
and it still is unless a shape was added that had been reported missing. -/
theorem contained_of_loads (h : p.Loads p') (hd : p.deciding? = none)
    (hd' : p'.deciding? = none) (n s : String) :
    (p'.solve.Reports n .contained s → p.solve.Reports n .contained s) ∧
      ((∀ x ∈ p.solve.unresolved, ∀ t ∈ p'.dependent, t.name ∉ p.loaded → t.name ≠ x.shape) →
        p.solve.Reports n .contained s → p'.solve.Reports n .contained s) := by
  rw [reports_contained_iff p.tabulates hd, reports_contained_iff p'.tabulates hd', h.tasks_eq]
  constructor
  · rintro ⟨t, ht, hn, hs, hconf⟩
    exact ⟨t, ht, hn, hs, h.extends.conforms hconf⟩
  · rintro hmissing ⟨t, ht, hn, hs, hconf⟩
    obtain ⟨row, b, hmem, hb, hfinds⟩ := p.tabulates.complete t ht
    exact ⟨t, ht, hn, hs, h.conforms_of_full hmissing hmem hb
      (hfinds.full_iff_conforms.mpr hconf) hfinds⟩

/-- Two stars, and a shape for the first that asks for a shape at the second
which is not loaded. -/
def unlinked : Problem where
  query := .ofStars [.ofPairs "b" [("p", .var "c")], .ofPairs "c" [("q", .var "x")]]
  shapes := [.asking "S" [("p", some "T")]]
  dependent := []
  deciding? := none

/-- A shape of another name is loaded to no effect. The one that was missing is
not: the second star fails it. -/
theorem unlinked_contained :
    unlinked.solve.Reports "b" .contained "S" ∧
      { unlinked with dependent := [.free "U"] }.solve.Reports "b" .contained "S" ∧
        ¬ { unlinked with dependent := [.asking "T" [("r", some "S")]] }.solve.Reports
          "b" .contained "S" := by
  have hloads : unlinked.Loads { unlinked with dependent := [.free "U"] } :=
    ⟨rfl, rfl, by decide +kernel⟩
  have hmissing : ∀ x ∈ unlinked.solve.unresolved, ∀ t ∈ [Shape.free "U"],
      t.name ∉ unlinked.loaded → t.name ≠ x.shape := by decide +kernel
  have hreports : unlinked.solve.Reports "b" .contained "S" := by decide +kernel
  refine ⟨hreports, ?_, by decide +kernel⟩
  exact (contained_of_loads hloads rfl rfl "b" "S").2 hmissing hreports

end Problem

end StarShapes
