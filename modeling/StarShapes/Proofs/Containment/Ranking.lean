import StarShapes.Proofs.Containment.Screening

/-!
Ranking: where the shapes that match the most triples are told from the others, a shape that
contains a star is among them.

* `Shape.degree_le_length`, `Shape.degree_eq_length`: no shape matches more triples than there are,
  and one that asks for all their predicates matches them all.
* `Scene.Finds.mem_keys_of_full`: a closed shape that binds a star in full asks for the predicates
  of all its triples.
* `AlignmentOptions.entry_eq_weak`: an open shape keeps its weak alignment, and so does a closed one
  that no other exceeds.
* `alignment?_of_contained`: without UNION, a shape that contains a star is weakly aligned with it,
  whichever other shapes there are.
-/

namespace StarShapes

/-! ### Degrees -/

namespace Shape

variable {s : Shape} {triples : List Triple}

/-- No shape matches more triples than there are. -/
lemma degree_le_length : s.degree triples ≤ triples.length := by
  rw [degree]
  split
  · omega
  · exact Int.ofNat_le.mpr (List.length_filter_le _ _)

/-- A shape that asks for the predicates of all triples matches them all, as it forbids none of
these. -/
lemma degree_eq_length (h : ∀ t ∈ triples, t.predicate ∈ s.positive.keys) :
    s.degree triples = triples.length := by
  have hallowed : ¬ ∃ t ∈ triples, t.predicate ∈ s.negative.keys := by
    rintro ⟨t, ht, hnegative⟩
    exact s.disjoint t.predicate (h t ht) hnegative
  have hall : (triples.filter fun t => t.predicate ∈ s.positive.keys) = triples :=
    List.filter_eq_self.mpr fun t ht => decide_eq_true (h t ht)
  rw [degree, if_neg hallowed, hall]

end Shape

/-- A closed shape that binds a star without alternatives in full asks for the predicates of all its
triples, also where it leaves a ray to another shape. -/
lemma Scene.Finds.mem_keys_of_full {scene : Scene} {roots A : Set Task} {t : Task} {b : Bindings}
    (h : scene.Finds roots A t b) (hfull : b.full = true) (hc : t.shape.closed = true)
    (halternatives : scene.query.alternatives t.star = []) :
    ∀ triple ∈ scene.query.triplesOf t.star, triple.predicate ∈ t.shape.positive.keys := by
  intro triple htriple
  obtain ⟨c, hcandidate, reply, rfl⟩ := h.exists_tally
  rw [Query.triplesOf_eq_of_mem_candidates halternatives hcandidate] at htriple
  obtain ⟨ray, hray, rfl⟩ := List.mem_map.mp htriple
  obtain ⟨-, hbinds⟩ := full_tally_iff.mp hfull
  exact Shape.isPositive_iff.mp (isPositive_of_binds hc (hbinds ray hray))

/-! ### Alignments -/

/-- Where no alignment is strong, a weak shape keeps its alignment if it is open, or if no other
exceeds it: open shapes are not told from others. -/
lemma AlignmentOptions.entry_eq_weak {options : AlignmentOptions} {shapes : List Shape}
    {triples : List Triple} {s : Shape} (hoff : options.strong = false) (hs : s ∈ shapes)
    (hweak : s.IsWeak triples)
    (hmost : s.closed = true → ∀ s' : Shape, s'.degree triples ≤ s.degree triples) :
    options.entry shapes triples s = .weak := by
  have hnone : ¬ ∃ s' ∈ shapes, options.IsStrong triples s' := by
    rintro ⟨s', -, hon, -⟩
    exact Bool.false_ne_true (hoff.symm.trans hon)
  have hbest : options.Narrows shapes triples → ∀ s' ∈ shapes, s'.IsWeak triples →
      s'.degree triples ≤ s.degree triples := fun ⟨_, _, hclosed⟩ s' _ _ =>
    hmost (hclosed s hs hweak) s'
  rw [entry, if_neg hnone, if_pos ⟨hweak, hbest⟩]

namespace Problem

variable {p : Problem}

/-- **A shape that contains a star is not outranked.** Let a query have no UNION, and let no shapes
decide. Where weak alignments are compared by the number of triples that they match, a shape in
which a star is contained keeps its weak alignment with this star, whichever shapes compete with it
and whichever others its rules name. -/
theorem alignment?_of_contained (p : Problem) (hq : p.query.unions = [])
    (hnames : (p.shapes.map Shape.name).Nodup) (hd : p.deciding? = none) {n s : String}
    (h : p.solve.Reports n .contained s) :
    (alignmentReport ⟨false, true⟩ p.shapes p.query).alignment? n s = some .weak := by
  obtain ⟨row, b, hmem, hb, hworth, hfull, rfl⟩ := (reports_contained_iff_mem_full hd).mp h
  obtain ⟨t, ⟨hs, -, hn⟩, rfl, hfinds⟩ := p.tabulates.found n row b hmem hb
  have hweak : t.shape.IsWeak (p.query.triplesOf t.star) :=
    Shape.isWeakFor_iff.mp (hfinds.isWeakFor (by simpa [Bindings.isWorthVisiting] using hworth))
  rw [hfinds.shape_eq, alignment?_alignmentReport _ _ hn, find?_alignRow hnames hs]
  refine congrArg some (AlignmentOptions.entry_eq_weak rfl hs hweak fun hc s' => ?_)
  have hasks : ∀ triple ∈ p.query.triplesOf t.star, triple.predicate ∈ t.shape.positive.keys :=
    hfinds.mem_keys_of_full hfull hc (Query.alternatives_eq_nil hq t.star)
  rw [Shape.degree_eq_length hasks]
  exact Shape.degree_le_length

/-- Two stars, each at an end of the other, and a shape for the first one whose rules name the shape
of the second, which is known as dependent only. Another shape asks for one predicate of each
star. -/
def outranking : Problem where
  query := .ofStars [.ofPairs "b" [("p", .var "c"), ("q", .var "x")],
    .ofPairs "c" [("r", .var "b")]]
  shapes := [.asking "R" [("p", none), ("r", none)], .asking "S" [("p", some "T"), ("q", none)]]
  dependent := [.asking "T" [("r", some "S")]]
  deciding? := none

/-- The first star is contained in a shape that matches all its triples; the other shape is
outranked. -/
theorem outranking_contained : outranking.query.unions = [] ∧
    (outranking.shapes.map Shape.name).Nodup ∧ outranking.deciding? = none ∧
    outranking.solve.Reports "b" .contained "S" ∧
    (alignmentReport ⟨false, true⟩ outranking.shapes outranking.query).alignment? "b" "S" =
      some .weak ∧
    (alignmentReport ⟨false, true⟩ outranking.shapes outranking.query).alignment? "b" "R" =
      some .none := by
  have hnames : (outranking.shapes.map Shape.name).Nodup := by decide +kernel
  have hcontained : outranking.solve.Reports "b" .contained "S" := by decide +kernel
  exact ⟨rfl, hnames, rfl, hcontained, outranking.alignment?_of_contained rfl hnames rfl hcontained,
    by decide +kernel⟩

end Problem

end StarShapes
