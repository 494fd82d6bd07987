import StarShapes.Proofs.Alignment.Rows
import StarShapes.Proofs.Containment.Classification

/-!
Screening: the coarse comparison of stars and shapes rules out no shape that the match of the star
finds worth visiting.

* `Scene.isPositive_of_binds`, `Scene.Finds.isWeakFor`: a shape that binds a triple of a star is
  open or asks for its predicate, whatever the ray was left to.
* `find?_alignRow_default`: by default a row says of each shape whether it is weakly aligned.
* `screens`: a shape that binds a triple of a star is weakly aligned with it, so shapes aligned with
  no star are not worth visiting.
-/

namespace StarShapes

/-! ### Shapes that bind a triple -/

/-- A shape that does not refuse a ray on the spot asks for its predicate. -/
lemma Shape.isPositive_of_demand {shape : Shape} {ray : Ray}
    (h : shape.demand ray ≠ .settled false) : shape.isPositive ray.predicate = true := by
  rw [isPositive]
  cases hrule : shape.get? ray.predicate with
  | none => simp [demand, hrule] at h
  | some rule =>
      cases hnegative : rule.isNegative with
      | true => simp [demand, hrule, Rule.demand, hnegative] at h
      | false => simp [hnegative]

namespace Scene

variable {scene : Scene}

/-- A closed shape that binds a ray asks for its predicate. -/
lemma isPositive_of_binds {shape : Shape} {reply : Ray → Option Bindings} {ray : Ray}
    (hc : shape.closed = true) (hbinds : scene.binds shape reply ray = true) :
    shape.isPositive ray.predicate = true := by
  refine Shape.isPositive_of_demand fun hd => ?_
  simp [Scene.binds, hc, hd] at hbinds

/-- A shape that binds a ray is weakly aligned with triples among which the ray's is. -/
lemma isWeakFor_of_binds {shape : Shape} {reply : Ray → Option Bindings} {ray : Ray}
    {triples : List Triple} (hbinds : scene.binds shape reply ray = true)
    (hmem : ray.triple ∈ triples) : shape.isWeakFor triples = true := by
  rw [Shape.isWeakFor]
  cases hc : shape.closed with
  | false => rfl
  | true =>
      rw [Bool.not_true, Bool.false_or, List.any_eq_true]
      exact ⟨ray.triple, hmem, isPositive_of_binds hc hbinds⟩

/-- Bindings with a bound triple are found only for a shape that is weakly aligned with the triples
of the star. -/
lemma Finds.isWeakFor {roots A : Set Task} {t : Task} {b : Bindings}
    (h : scene.Finds roots A t b) (hb : 0 < b.count) :
    t.shape.isWeakFor (scene.query.triplesOf t.star) = true := by
  obtain ⟨c, hc, reply, rfl⟩ := h.exists_tally
  rw [count_tally] at hb
  obtain ⟨ray, hray⟩ := List.exists_mem_of_length_pos hb
  obtain ⟨hray, hbinds⟩ := List.mem_filter.mp hray
  exact isWeakFor_of_binds hbinds
    (Query.triple_mem_triplesOf hc (List.mem_map_of_mem hray))

end Scene

/-! ### Rows of a report -/

/-- The alignment of a star with a shape that a report gives. -/
def AlignmentReport.alignment? (report : AlignmentReport) (star shape : String) :
    Option Alignment :=
  (report.rows.find? (·.1 = star)).bind fun row => row.2.find? shape

/-- The row of a star is that of its triples. -/
lemma alignment?_alignmentReport (options : AlignmentOptions) (shapes : List Shape) {q : Query}
    {n : String} (hn : n ∈ q.names) (shape : String) :
    (alignmentReport options shapes q).alignment? n shape =
      (alignRow options shapes (q.triplesOf n)).find? shape := by
  have hnodup : ((q.names.map fun k => (k, alignRow options shapes (q.triplesOf k))).map
      Prod.fst).Nodup := by
    rw [List.map_map]
    exact (List.map_id' q.names).symm ▸ q.nodup_names
  rw [AlignmentReport.alignment?, rows_alignmentReport, (Keyed.find?_eq_some_iff hnodup).mpr
    ⟨List.mem_map_of_mem hn, rfl⟩]
  rfl

/-- By default a row says of each shape whether it is weakly aligned. -/
lemma find?_alignRow_default {shapes : List Shape} (h : (shapes.map Shape.name).Nodup)
    (triples : List Triple) {s : Shape} (hs : s ∈ shapes) :
    (alignRow default shapes triples).find? s.name =
      some (if s.isWeakFor triples then .weak else .none) := by
  have hstrong : ¬ ∃ s ∈ shapes, AlignmentOptions.IsStrong default triples s := by
    rintro ⟨s, -, hstrong, -⟩
    exact Bool.false_ne_true hstrong
  have hwide : ¬ AlignmentOptions.Narrows default shapes triples := fun h =>
    Bool.false_ne_true h.1
  rw [find?_alignRow h hs, AlignmentOptions.entry_of_not_narrows hstrong hwide]
  simp only [Shape.isWeakFor_iff]

namespace Problem

variable {p : Problem}

/-- A shape that binds a triple of a star is weakly aligned with its triples. -/
lemma isWeakFor_of_touching (hnames : (p.shapes.map Shape.name).Nodup) {n : String} {s : Shape}
    (hs : s ∈ p.shapes) (h : s.name ∈ p.touching n) :
    n ∈ p.query.names ∧ s.isWeakFor (p.query.triplesOf n) = true := by
  obtain ⟨row, b, hmem, hb, hworth, hname⟩ := h
  obtain ⟨t, ⟨ht, -, hn⟩, rfl, hfinds⟩ := p.tabulates.found n row b hmem hb
  have he : t.shape = s :=
    List.inj_on_of_nodup_map hnames ht hs (hfinds.shape_eq.symm.trans hname)
  exact ⟨hn, he ▸ hfinds.isWeakFor (by simpa [Bindings.isWorthVisiting] using hworth)⟩

/-- By default a shape that binds a triple of a star has a weak alignment with it. -/
lemma alignment?_of_touching (hnames : (p.shapes.map Shape.name).Nodup) {n : String} {s : Shape}
    (hs : s ∈ p.shapes) (h : s.name ∈ p.touching n) :
    (alignmentReport default p.shapes p.query).alignment? n s.name = some .weak := by
  obtain ⟨hn, hweak⟩ := isWeakFor_of_touching hnames hs h
  rw [alignment?_alignmentReport _ _ hn, find?_alignRow_default hnames _ hs, if_pos hweak]

/-- A shape that a report calls unaligned is one of the shapes, and no star has another alignment
with it. -/
lemma alignment?_of_mem_unaligned {options : AlignmentOptions} {shapes : List Shape} {q : Query}
    {s : String} (h : s ∈ (alignmentReport options shapes q).unaligned) :
    s ∈ shapes.map Shape.name ∧ ∀ n a,
      (alignmentReport options shapes q).alignment? n s = some a → a = .none := by
  obtain ⟨hs, hall⟩ := List.mem_filter.mp (mem_distinct.mp h)
  refine ⟨hs, fun n a ha => ?_⟩
  obtain ⟨row, hrow, ha⟩ := Option.bind_eq_some_iff.mp ha
  have hnone := List.all_eq_true.mp hall row (List.mem_of_find?_eq_some hrow)
  simpa [ha] using hnone

/-- **Screening by predicates is safe.** By default, a shape whose reported bindings of a star bind
a triple is weakly aligned with the star; and a shape that is aligned with no star is not worth
visiting, whatever further shapes there are and whichever decide. -/
theorem screens (p : Problem) (hnames : (p.shapes.map Shape.name).Nodup) :
    (∀ n c s b, (n, c) ∈ p.solve.containments → (s, b) ∈ c.bindings.toList →
      b.isWorthVisiting = true →
        (alignmentReport default p.shapes p.query).alignment? n s = some .weak) ∧
      ∀ s ∈ (alignmentReport default p.shapes p.query).unaligned,
        p.solve.visits.find? s = some false := by
  constructor
  · intro n c s b hc hb hworth
    have htouching : s ∈ p.touching n := mem_touching_iff_reported.mpr ⟨c, b, hc, hb, hworth⟩
    obtain ⟨row, hmem, rfl⟩ := mem_containments.mp hc
    obtain ⟨hrow, rfl⟩ := (mem_toList_reported hmem).mp hb
    have hname : b.shape ∈ p.shapes.map Shape.name :=
      map_shape_row hmem ▸ List.mem_map_of_mem hrow
    obtain ⟨shape, hs, he⟩ := List.mem_map.mp hname
    rw [← he] at htouching ⊢
    exact alignment?_of_touching hnames hs htouching
  · intro s hs
    obtain ⟨hname, hnone⟩ := alignment?_of_mem_unaligned hs
    have huntouched : ¬ ∃ n, s ∈ p.touching n := by
      rintro ⟨n, htouching⟩
      obtain ⟨shape, hshape, rfl⟩ := List.mem_map.mp hname
      have hweak := hnone n _ (alignment?_of_touching hnames hshape htouching)
      cases hweak
    rw [find?_visits, if_neg huntouched, if_pos hname]

/-- A star with an alternative in a UNION. The first shape binds a triple of the alternative alone,
at whose other end a shape is missing, the second asks for something else. -/
def alternative : Problem where
  query := (Query.ofStars [.ofPairs "b" [("p", .var "x")]]).withUnion
    [[.ofPairs "b" [("q", .var "c")], .ofPairs "c" [("r", .var "y")]]]
  shapes := [.asking "S" [("q", some "T")], .asking "U" [("s", none)]]
  dependent := []
  deciding? := some ["S"]

/-- The first shape is worth visiting and weakly aligned, the second is neither. -/
theorem alternative_screened :
    (alternative.shapes.map Shape.name).Nodup ∧
      (alignmentReport default alternative.shapes alternative.query).alignment? "b" "S" =
        some .weak ∧
      "U" ∈ (alignmentReport default alternative.shapes alternative.query).unaligned ∧
      alternative.solve.visits.find? "U" = some false := by
  have hnames : (alternative.shapes.map Shape.name).Nodup := by decide +kernel
  have hunaligned : "U" ∈
      (alignmentReport default alternative.shapes alternative.query).unaligned := by decide +kernel
  have hworth : ∃ x ∈ alternative.solve.containments, x.1 = "b" ∧ ∃ y ∈ x.2.bindings.toList,
      y.1 = "S" ∧ y.2.isWorthVisiting = true := by decide +kernel
  obtain ⟨⟨_, c⟩, hc, rfl, ⟨_, b⟩, hb, rfl, hworth⟩ := hworth
  obtain ⟨hweak, hvisits⟩ := screens alternative hnames
  exact ⟨hnames, hweak _ c _ b hc hb hworth, hunaligned, hvisits "U" hunaligned⟩

end Problem

end StarShapes
