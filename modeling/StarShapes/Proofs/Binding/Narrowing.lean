import StarShapes.Proofs.Binding.Certificates
import StarShapes.Proofs.Query.Gains

/-!
Narrowing: a query that asks for more is not matched where the other one is not.

* `Scene.Narrows`: a scene with the same shapes and star names, each of whose candidates has all
  rays of a candidate of the other scene.
* `Narrows.conforms`: what conforms in it conforms in the other scene.
* `full_bind_of_gains`: with one more triple in a star that has some, nothing is bound in full that
  was not before, whatever the two memories were asked.
-/

namespace StarShapes

namespace Scene

/-- A scene with the same shapes and star names, each of whose candidates has all rays of a
candidate of the other scene. -/
structure Narrows (scene scene' : Scene) : Prop where
  /-- The shapes are the same. -/
  shapes : ∀ name, scene'.shapes.get? name = scene.shapes.get? name
  /-- The names of the stars are the same. -/
  names : ∀ n, n ∈ scene'.query.names ↔ n ∈ scene.query.names
  /-- Each candidate asks for all that some candidate asked for before. -/
  candidates : ∀ n, ∀ c' ∈ scene'.query.candidates n, ∃ c ∈ scene.query.candidates n, c.Within c'

/-- What conforms in a scene that asks for more conforms: the candidates that meet a shape there
come from candidates with fewer rays, all of which meet it. -/
lemma Narrows.conforms {scene scene' : Scene} (h : scene.Narrows scene') {t : Task}
    (ht : scene'.Conforms t) : scene.Conforms t := by
  refine conforms_of_subset (X := {u | scene'.Conforms u}) ?_ ht
  intro u hu
  obtain ⟨c', hc', hmeets⟩ := mem_conform.mp (conforms_iff_mem_conform.mp hu)
  obtain ⟨hne, hall⟩ := meets_iff.mp hmeets
  obtain ⟨c, hc, hwithin⟩ := h.candidates u.star c' hc'
  refine mem_conform.mpr ⟨c, hc, meets_iff.mpr ⟨hwithin.nonempty hne, fun ray hray => ?_⟩⟩
  obtain ⟨hdemand, hnext⟩ := hall ray (hwithin.subset hray)
  refine ⟨hdemand, fun v hv => Or.inl (hnext v ?_)⟩
  rw [next?_congr h.shapes h.names]
  exact hv

/-- A query with one more ray asks for more, whatever shapes are loaded. -/
lemma narrows_of_gains {q q' : Query} {n : String} {ray : Ray} (h : q.Gains q' n ray)
    (shapes : Keyed Shape.name) : (⟨q, shapes⟩ : Scene).Narrows ⟨q', shapes⟩ where
  shapes _ := rfl
  names _ := h.mem_names_iff
  candidates _ _ := h.exists_candidate

/-- **More demands never create containment.** If a star of a query that has triples gains one of a
new predicate, then every star that the new query binds in full against some shape is bound in full
by the old one, whatever the memories on either side were asked before. Shapes are told apart by
their names. -/
theorem full_bind_of_gains {q q' : Query} {n : String} {ray : Ray} (h : q.Gains q' n ray)
    (shapes : Keyed Shape.name) (t : Task) (calls calls' : List Task)
    (hnames : Set.InjOn Shape.name {s | s ∈ shapes.toList ∨ ∃ u ∈ t :: calls, u.shape = s})
    (hnames' : Set.InjOn Shape.name {s | s ∈ shapes.toList ∨ ∃ u ∈ t :: calls', u.shape = s})
    (hfull : ((Memory.empty.bindAll ⟨q', shapes⟩ calls').2.bind
      ⟨q', shapes⟩ t.shape t.star).1.any Bindings.full = true) :
    ((Memory.empty.bindAll ⟨q, shapes⟩ calls).2.bind
      ⟨q, shapes⟩ t.shape t.star).1.any Bindings.full = true := by
  have hconf' : Conforms ⟨q', shapes⟩ t := (any_full_bind_iff hnames').mp hfull
  have hconf : Conforms ⟨q, shapes⟩ t := (narrows_of_gains h shapes).conforms hconf'
  exact (any_full_bind_iff hnames).mpr hconf

/-- Two stars with rays to each other, the first of which may have further triples, and two shapes
that ask for each other, the first of which allows another triple. -/
def roundTrip (more : List (String × Term)) : Scene where
  query := .ofStars [.ofPairs "b" (("p", .var "c") :: more), .ofPairs "c" [("r", .var "b")]]
  shapes := .ofList [.asking "S" [("p", some "T"), ("q", none)], .asking "T" [("r", some "S")]]

/-- With a triple more the second star is bound in full, by a memory that was asked for the first,
and so it is without it, by one that was asked nothing. -/
theorem roundTrip_narrowed :
    (roundTrip []).query.Gains (roundTrip [("q", .var "x")]).query "b"
      ⟨⟨"b", "q", .var "x", false⟩, none⟩ ∧
    ((Memory.empty.bindAll (roundTrip [("q", .var "x")])
      [⟨.asking "S" [("p", some "T"), ("q", none)], "b"⟩]).2.bind (roundTrip [("q", .var "x")])
        (.asking "T" [("r", some "S")]) "c").1.any Bindings.full = true ∧
    (Memory.empty.bind (roundTrip []) (.asking "T" [("r", some "S")]) "c").1.any
      Bindings.full = true := by
  have hgains : (roundTrip []).query.Gains (roundTrip [("q", .var "x")]).query "b"
      ⟨⟨"b", "q", .var "x", false⟩, none⟩ :=
    { stars := ⟨[], .linkWhere (· = "c") (.ofPairs "b" [("p", .var "c")]),
        .linkWhere (· = "c") (.ofPairs "b" [("p", .var "c"), ("q", .var "x")]),
        [.linkWhere (· = "b") (.ofPairs "c" [("r", .var "b")])], by decide +kernel,
        by decide +kernel, rfl, by decide +kernel, rfl,
        [⟨⟨"b", "p", .var "c", false⟩, some "c"⟩], [], by decide +kernel, by decide +kernel⟩
      unions := by decide +kernel }
  have hfull : ((Memory.empty.bindAll (roundTrip [("q", .var "x")])
      [⟨.asking "S" [("p", some "T"), ("q", none)], "b"⟩]).2.bind (roundTrip [("q", .var "x")])
        (.asking "T" [("r", some "S")]) "c").1.any Bindings.full = true := by decide +kernel
  have hnames : ∀ {calls : List Task}, (∀ t ∈ calls, t.shape ∈ (roundTrip []).shapes.toList) →
      Set.InjOn Shape.name {s | s ∈ (roundTrip []).shapes.toList ∨ ∃ t ∈ calls, t.shape = s} :=
    injOn_of_loaded
  exact ⟨hgains, hfull, full_bind_of_gains hgains (roundTrip []).shapes
    ⟨.asking "T" [("r", some "S")], "c"⟩ [] _ (hnames (by decide +kernel))
    (hnames (by decide +kernel)) hfull⟩

end Scene

end StarShapes
