import Mathlib.Data.Finset.Max
import StarShapes.Alignment
import StarShapes.Proofs.Binding.Calls
import StarShapes.Proofs.Collection.Distinct

/-!
Rows: the alignments of a star, shape by shape and at once.

* `Shape.IsWeak`, `AlignmentOptions.IsStrong`, `Shape.degree`: what a shape has in common with the
  triples of a star.
* `AlignmentOptions.entry`: the alignment that a shape has beside others, as a table; and what this
  comes to where no shape is strong (`entry_of_not_narrows`, `entry_of_narrows`).
* `toList_alignRow`, `find?_alignRow`: a row that is filled and then changed in place comes to this
  table.
* `alignmentReport_tabulates`: so do the rows of a report. No star that goes with some shape is left
  without alignment, the order of the shapes does not matter, and the shapes that go with no star
  are those without alignment in all rows.
-/

namespace StarShapes

/-! ### Shapes and triples -/

namespace Shape

/-- A shape goes with triples if it is open or asks for a predicate of theirs. -/
def IsWeak (s : Shape) (triples : List Triple) : Prop :=
  s.closed = false ∨ ∃ t ∈ triples, t.predicate ∈ s.positive.keys

instance (s : Shape) (triples : List Triple) : Decidable (s.IsWeak triples) :=
  inferInstanceAs (Decidable (_ ∨ _))

/-- The number of triples whose predicates a shape asks for, or minus one if it forbids the
predicate of some triple. -/
def degree (s : Shape) (triples : List Triple) : Int :=
  if ∃ t ∈ triples, t.predicate ∈ s.negative.keys then -1
  else (triples.filter fun t => t.predicate ∈ s.positive.keys).length

variable {s s' : Shape} {triples : List Triple}

lemma isWeakFor_iff : s.isWeakFor triples = true ↔ s.IsWeak triples := by
  simp only [isWeakFor, IsWeak, Bool.or_eq_true, Bool.not_eq_true', List.any_eq_true,
    isPositive_iff]

/-- Match degrees are ordered as numbers, a forbidden predicate counting as minus one. -/
lemma degreeLt_iff : degreeLt (s.matchDegree? triples) (s'.matchDegree? triples) = true ↔
    s.degree triples < s'.degree triples := by
  have hforbids : ∀ r : Shape, (triples.any fun t => r.isNegative t.predicate) = true ↔
      ∃ t ∈ triples, t.predicate ∈ r.negative.keys := by
    intro r
    simp only [List.any_eq_true, isNegative_iff]
  have hasked : ∀ r : Shape, (triples.filter fun t => r.isPositive t.predicate) =
      triples.filter fun t => t.predicate ∈ r.positive.keys := by
    intro r
    refine List.filter_congr fun t _ => ?_
    rw [Bool.eq_iff_iff, isPositive_iff, decide_eq_true_eq]
  simp only [matchDegree?, degree, hforbids, hasked]
  split <;> split <;> simp [degreeLt]
  omega

end Shape

/-! ### The table -/

namespace AlignmentOptions

variable (options : AlignmentOptions) (shapes : List Shape) (triples : List Triple)

/-- A shape goes strongly with triples, where this is looked for. -/
def IsStrong (s : Shape) : Prop :=
  options.strong = true ∧ s.IsWeak triples ∧ s.isStrongFor triples = true

instance (s : Shape) : Decidable (options.IsStrong triples s) :=
  inferInstanceAs (Decidable (_ ∧ _))

/-- The shapes of greatest degree are told from the others: this is asked for, and at least two
shapes go with the triples, all of them closed. -/
def Narrows : Prop :=
  options.intersection = true ∧ 2 ≤ (shapes.filter (·.IsWeak triples)).length ∧
    ∀ s ∈ shapes, s.IsWeak triples → s.closed = true

instance : Decidable (options.Narrows shapes triples) := inferInstanceAs (Decidable (_ ∧ _))

/-- The alignment of a shape beside others: if some shapes are strong, these are and no others
count. Otherwise the weak shapes are, or only those of greatest degree. -/
def entry (s : Shape) : Alignment :=
  if ∃ s' ∈ shapes, options.IsStrong triples s' then
    if options.IsStrong triples s then .strong else .none
  else if s.IsWeak triples ∧ (options.Narrows shapes triples → ∀ s' ∈ shapes, s'.IsWeak triples →
      s'.degree triples ≤ s.degree triples) then .weak
  else .none

variable {options shapes triples}

/-- The alignment of a shape by itself. -/
lemma alignment_eq (s : Shape) : s.alignment options.strong triples =
    if options.IsStrong triples s then .strong else if s.IsWeak triples then .weak else .none := by
  by_cases hweak : s.IsWeak triples
  · simp [Shape.alignment, IsStrong, Shape.isWeakFor_iff.mpr hweak, hweak]
  · have hfalse : s.isWeakFor triples = false := by
      simpa using fun h => hweak (Shape.isWeakFor_iff.mp h)
    simp [Shape.alignment, IsStrong, hfalse, hweak]

section

variable (hnone : ¬ ∃ s ∈ shapes, options.IsStrong triples s)

include hnone

/-- Where no shape is strong, one by itself is weak or not aligned. -/
lemma alignment_of_not_strong {s : Shape} (hs : s ∈ shapes) :
    s.alignment options.strong triples = if s.IsWeak triples then .weak else .none := by
  rw [alignment_eq, if_neg fun hstrong => hnone ⟨s, hs, hstrong⟩]

/-- Where no shape is strong and none is told from others, the weak shapes are aligned. -/
lemma entry_of_not_narrows (hwide : ¬ options.Narrows shapes triples) (s : Shape) :
    options.entry shapes triples s = if s.IsWeak triples then .weak else .none := by
  rw [entry, if_neg hnone]
  simp only [hwide, false_implies, and_true]

/-- Where no shape is strong and those of greatest degree are told from others, the weak shapes are
aligned but for those that others exceed. -/
lemma entry_of_narrows (hnarrow : options.Narrows shapes triples) (s : Shape) :
    options.entry shapes triples s =
      if s.IsWeak triples ∧ ∃ s' ∈ shapes, s'.IsWeak triples ∧
        s.degree triples < s'.degree triples then .none
      else if s.IsWeak triples then .weak else .none := by
  have hmost : (∀ s' ∈ shapes, s'.IsWeak triples → s'.degree triples ≤ s.degree triples) ↔
      ¬ ∃ s' ∈ shapes, s'.IsWeak triples ∧ s.degree triples < s'.degree triples := by
    simp only [not_exists, not_and, not_lt]
  rw [entry, if_neg hnone]
  simp only [hnarrow, true_implies, hmost]
  by_cases hweak : s.IsWeak triples
  · by_cases hbeaten : ∃ s' ∈ shapes, s'.IsWeak triples ∧ s.degree triples < s'.degree triples
    · rw [if_neg fun h => h.2 hbeaten, if_pos ⟨hweak, hbeaten⟩]
    · rw [if_pos ⟨hweak, hbeaten⟩, if_neg fun h => hbeaten h.2, if_pos hweak]
  · rw [if_neg fun h => hweak h.1, if_neg fun h => hweak h.1, if_neg hweak]

end

/-- Where some shape goes with the triples, some shape is aligned. -/
lemma exists_entry_ne_none (options : AlignmentOptions) (h : ∃ s ∈ shapes, s.IsWeak triples) :
    ∃ s ∈ shapes, options.entry shapes triples s ≠ .none := by
  by_cases hstrong : ∃ s ∈ shapes, options.IsStrong triples s
  · obtain ⟨s, hs, hss⟩ := id hstrong
    exact ⟨s, hs, by simp [entry, if_pos hstrong, hss]⟩
  · obtain ⟨s, hs, hweak⟩ := h
    obtain ⟨best, hbest, hmax⟩ := Finset.exists_max_image
      (shapes.filter (·.IsWeak triples)).toFinset (·.degree triples)
      ⟨s, by simp [hs, hweak]⟩
    simp only [List.mem_toFinset, List.mem_filter, decide_eq_true_eq, and_imp] at hbest hmax
    refine ⟨best, hbest.1, ?_⟩
    rw [entry, if_neg hstrong, if_pos ⟨hbest.2, fun _ => hmax⟩]
    exact Alignment.noConfusion

/-- The order of the shapes does not matter. -/
lemma entry_perm {shapes' : List Shape} (h : shapes'.Perm shapes) (s : Shape) :
    options.entry shapes' triples s = options.entry shapes triples s := by
  have hstrong : (∃ s' ∈ shapes', options.IsStrong triples s') ↔
      ∃ s' ∈ shapes, options.IsStrong triples s' := by simp only [h.mem_iff]
  have hnarrows : options.Narrows shapes' triples ↔ options.Narrows shapes triples := by
    simp only [Narrows, h.mem_iff, (h.filter _).length_eq]
  have hbest : (∀ s' ∈ shapes', s'.IsWeak triples → s'.degree triples ≤ s.degree triples) ↔
      ∀ s' ∈ shapes, s'.IsWeak triples → s'.degree triples ≤ s.degree triples := by
    simp only [h.mem_iff]
  exact if_congr hstrong rfl
    (if_congr (and_congr_right fun _ => imp_congr hnarrows hbest) rfl rfl)

end AlignmentOptions

/-! ### Rows -/

section

variable {options : AlignmentOptions} {shapes : List Shape} {triples : List Triple}
  {row : Dict String Alignment}

/-- The row before shapes are compared: each shape has its alignment by itself. -/
lemma toList_ofList_alignment (options : AlignmentOptions) (triples : List Triple)
    (hnames : (shapes.map Shape.name).Nodup) :
    (Keyed.ofList (shapes.map fun s => (s.name, s.alignment options.strong triples)) :
      Dict String Alignment).toList =
        shapes.map fun s => (s.name, s.alignment options.strong triples) := by
  refine Keyed.toList_ofList ?_
  rw [List.map_map]
  exact hnames

/-- Shapes are told apart by their names, so a name belongs to a weak shape that others exceed in
degree if its own shape is one. -/
lemma exists_beaten_iff (triples : List Triple) (hnames : (shapes.map Shape.name).Nodup) {s : Shape}
    (hs : s ∈ shapes) :
    (∃ s' ∈ (shapes.filter (·.IsWeak triples)).filter fun s =>
      (shapes.filter (·.IsWeak triples)).any fun s' =>
        degreeLt (s.matchDegree? triples) (s'.matchDegree? triples), s'.name = s.name) ↔
      s.IsWeak triples ∧ ∃ s' ∈ shapes, s'.IsWeak triples ∧
        s.degree triples < s'.degree triples := by
  simp only [List.mem_filter, List.any_eq_true, decide_eq_true_eq, Shape.degreeLt_iff]
  constructor
  · rintro ⟨s', ⟨⟨hs', hweak⟩, best, ⟨hbest, hweakbest⟩, hlt⟩, hname⟩
    obtain rfl := List.inj_on_of_nodup_map hnames hs' hs hname
    exact ⟨hweak, best, hbest, hweakbest, hlt⟩
  · rintro ⟨hweak, best, hbest, hweakbest, hlt⟩
    exact ⟨s, ⟨⟨hs, hweak⟩, best, ⟨hbest, hweakbest⟩, hlt⟩, rfl⟩

/-- Among weak shapes alone, those of greatest degree are kept where they are told from others. -/
lemma toList_keepBest (hnames : (shapes.map Shape.name).Nodup)
    (hrow : row.toList = shapes.map fun s => (s.name, s.alignment options.strong triples))
    (hintersection : options.intersection = true)
    (hnone : ¬ ∃ s ∈ shapes, options.IsStrong triples s) :
    (keepBest shapes triples row).toList =
      shapes.map fun s => (s.name, options.entry shapes triples s) := by
  have hfind : ∀ s ∈ shapes, row.find? s.name =
      some (if s.IsWeak triples then .weak else .none) := by
    intro s hs
    rw [← AlignmentOptions.alignment_of_not_strong hnone hs]
    exact Dict.find?_eq_some_iff.mpr (hrow ▸ List.mem_map_of_mem hs)
  have hcandidates : (shapes.filter fun s => row.find? s.name = some .weak) =
      shapes.filter (·.IsWeak triples) := by
    refine List.filter_congr fun s hs => ?_
    rw [hfind s hs]
    by_cases hweak : s.IsWeak triples <;> simp [hweak]
  have hnarrows : ((shapes.filter (·.IsWeak triples)).length < 2 ||
      (shapes.filter (·.IsWeak triples)).any fun s => !s.closed) = true ↔
        ¬ options.Narrows shapes triples := by
    simp only [AlignmentOptions.Narrows, hintersection, true_and, not_and_or, not_le,
      Bool.or_eq_true, decide_eq_true_eq, List.any_eq_true, List.mem_filter, not_forall,
      Bool.not_eq_true', Bool.not_eq_true, exists_prop, and_assoc]
  rw [keepBest, hcandidates]
  split
  · rename_i hwide
    rw [hnarrows] at hwide
    rw [hrow]
    refine List.map_congr_left fun s hs => ?_
    rw [AlignmentOptions.alignment_of_not_strong hnone hs,
      AlignmentOptions.entry_of_not_narrows hnone hwide]
  · rename_i hnarrow
    rw [hnarrows, not_not] at hnarrow
    have hkeys : row.keys = shapes.map Shape.name := by
      rw [Keyed.keys, hrow, List.map_map]
      rfl
    -- the row is changed at names that it has, so what counts is which values are overwritten
    refine Dict.toList_eq_map ?_ fun s hs => ?_
    · rw [Dict.keys_foldl_set, hkeys]
      refine pushAllNew_of_subset fun n hn => ?_
      obtain ⟨s, hs, rfl⟩ := List.mem_map.mp hn
      exact List.mem_map_of_mem (List.mem_filter.mp (List.mem_filter.mp hs).1).1
    · rw [Dict.find?_foldl_set, hfind s hs, AlignmentOptions.entry_of_narrows hnone hnarrow]
      simp only [exists_beaten_iff triples hnames hs]
      split <;> rfl

/-- A row that is filled and then changed in place comes to the table. -/
lemma toList_alignRow (hnames : (shapes.map Shape.name).Nodup) :
    (alignRow options shapes triples).toList =
      shapes.map fun s => (s.name, options.entry shapes triples s) := by
  have hrow := toList_ofList_alignment options triples hnames
  rw [alignRow]
  generalize (Keyed.ofList (shapes.map fun s => (s.name, s.alignment options.strong triples)) :
      Dict String Alignment) = row at hrow ⊢
  have hstrong : (Dict.values row).contains .strong = true ↔
      ∃ s ∈ shapes, options.IsStrong triples s := by
    rw [Dict.values, hrow, List.map_map, List.contains_iff_mem, List.mem_map]
    refine exists_congr fun s => and_congr_right fun _ => ?_
    rw [Function.comp_apply, AlignmentOptions.alignment_eq]
    split
    · simp [*]
    · split <;> simp [*]
  split
  · rename_i hsome
    rw [Keyed.toList_map, hrow, List.map_map]
    refine List.map_congr_left fun s _ => ?_
    rw [Function.comp_apply, AlignmentOptions.entry, if_pos (hstrong.mp hsome),
      AlignmentOptions.alignment_eq]
    refine congrArg (Prod.mk s.name) ?_
    by_cases hss : options.IsStrong triples s
    · rw [if_pos hss, if_pos hss]
      rfl
    · rw [if_neg hss, if_neg hss]
      split <;> rfl
  · rename_i hnone
    rw [hstrong] at hnone
    split
    · rename_i hintersection
      exact toList_keepBest hnames hrow hintersection hnone
    · rename_i hintersection
      rw [hrow]
      refine List.map_congr_left fun s hs => ?_
      rw [AlignmentOptions.alignment_of_not_strong hnone hs,
        AlignmentOptions.entry_of_not_narrows hnone fun h => hintersection h.1]

/-- The alignment found in a row is that of the table. -/
lemma find?_alignRow (hnames : (shapes.map Shape.name).Nodup) {s : Shape} (hs : s ∈ shapes) :
    (alignRow options shapes triples).find? s.name = some (options.entry shapes triples s) := by
  rw [Dict.find?_eq_some_iff, toList_alignRow hnames]
  exact List.mem_map_of_mem (f := fun s => (s.name, options.entry shapes triples s)) hs

/-- The order of the shapes does not matter to what is found in a row. -/
lemma find?_alignRow_perm (hnames : (shapes.map Shape.name).Nodup) {shapes' : List Shape}
    (h : shapes'.Perm shapes) (n : String) :
    (alignRow options shapes' triples).find? n = (alignRow options shapes triples).find? n := by
  have hrows : (alignRow options shapes' triples).toList.Perm
      (alignRow options shapes triples).toList := by
    rw [toList_alignRow hnames, toList_alignRow ((h.map _).nodup_iff.mpr hnames)]
    simp only [AlignmentOptions.entry_perm h]
    exact h.map _
  ext a
  rw [Dict.find?_eq_some_iff, Dict.find?_eq_some_iff, hrows.mem_iff]

end

/-! ### Reports -/

variable (options : AlignmentOptions) (shapes : List Shape) (q : Query)

/-- A report has a row for each star of the query. -/
lemma rows_alignmentReport : (alignmentReport options shapes q).rows =
    q.names.map fun n => (n, alignRow options shapes (q.triplesOf n)) := by
  rw [alignmentReport, Query.triplesBySubject, List.map_map]
  rfl

variable {options shapes q}

/-- The row of a star is that of its triples. -/
lemma mem_rows_iff {n : String} {row : Dict String Alignment} :
    (n, row) ∈ (alignmentReport options shapes q).rows ↔
      n ∈ q.names ∧ row = alignRow options shapes (q.triplesOf n) := by
  rw [rows_alignmentReport, List.mem_map]
  constructor
  · rintro ⟨n, hn, he⟩
    obtain ⟨rfl, rfl⟩ := Prod.mk.inj he
    exact ⟨hn, rfl⟩
  · rintro ⟨hn, rfl⟩
    exact ⟨n, hn, rfl⟩

/-- The shapes that go with no star are those without alignment in all rows. -/
lemma unaligned_eq (hnames : (shapes.map Shape.name).Nodup) :
    (alignmentReport options shapes q).unaligned = (shapes.map Shape.name).filter fun s =>
      ∀ x ∈ (alignmentReport options shapes q).rows, x.2.find? s = some .none := by
  have hnone : ∀ s ∈ shapes.map Shape.name, (∀ x ∈ (alignmentReport options shapes q).rows,
      ((x.2.find? s).all fun a => a = .none) = true) ↔
        ∀ x ∈ (alignmentReport options shapes q).rows, x.2.find? s = some .none := by
    intro s hs
    obtain ⟨shape, hshape, rfl⟩ := List.mem_map.mp hs
    refine forall₂_congr fun ⟨n, row⟩ hrow => ?_
    obtain ⟨-, rfl⟩ := mem_rows_iff.mp hrow
    rw [find?_alignRow hnames hshape]
    simp
  rw [alignmentReport] at hnone ⊢
  rw [distinct_of_nodup (hnames.filter _)]
  refine List.filter_congr fun s hs => ?_
  rw [Bool.eq_iff_iff, List.all_eq_true, decide_eq_true_eq]
  exact hnone s hs

/-- **Alignments are as the table has them.** A report has a row for each star, with the shapes in
order and the alignment of each beside the others. No star that goes with some shape is left without
alignment; what is found in a row does not depend on the order of the shapes; and the shapes that go
with no star are those without alignment in all rows. -/
theorem alignmentReport_tabulates (options : AlignmentOptions) {shapes : List Shape} (q : Query)
    (hnames : (shapes.map Shape.name).Nodup) :
    (alignmentReport options shapes q).rows.map Prod.fst = q.names ∧
      (∀ n row, (n, row) ∈ (alignmentReport options shapes q).rows →
        row.toList = (shapes.map fun s => (s.name, options.entry shapes (q.triplesOf n) s)) ∧
        ((∃ s ∈ shapes, s.IsWeak (q.triplesOf n)) → ∃ s a, (s, a) ∈ row.toList ∧ a ≠ .none) ∧
        ∀ shapes' row', shapes'.Perm shapes → (n, row') ∈ (alignmentReport options shapes' q).rows →
          ∀ s, row'.find? s = row.find? s) ∧
      (alignmentReport options shapes q).unaligned = (shapes.map Shape.name).filter fun s =>
        ∀ x ∈ (alignmentReport options shapes q).rows, x.2.find? s = some .none := by
  refine ⟨?_, fun n row hrow => ⟨?_, ?_, ?_⟩, unaligned_eq hnames⟩
  · rw [rows_alignmentReport, List.map_map]
    exact List.map_id' q.names
  all_goals obtain ⟨hn, rfl⟩ := mem_rows_iff.mp hrow
  · exact toList_alignRow hnames
  · intro hweak
    obtain ⟨s, hs, hne⟩ := options.exists_entry_ne_none hweak
    exact ⟨s.name, _, Dict.find?_eq_some_iff.mp (find?_alignRow hnames hs), hne⟩
  · intro shapes' row' hperm hrow' s
    obtain ⟨-, rfl⟩ := mem_rows_iff.mp hrow'
    exact find?_alignRow_perm hnames hperm s

/-- A star of two triples. -/
def pairQuery : Query := .ofStars [.ofPairs "x" [("p", .var "y"), ("q", .var "z")]]

/-- Shapes that ask for both, for one or for none of its predicates. -/
def graded : List Shape :=
  [.asking "A" [("p", none), ("q", none)], .asking "B" [("p", none), ("r", none)],
    .asking "C" [("s", none)]]

/-- Where the shapes of greatest degree are told from the others, only the first is aligned, in
either order of the shapes. -/
theorem graded_tabulated : (graded.map Shape.name).Nodup ∧
    (∃ row, ("x", row) ∈ (alignmentReport ⟨false, true⟩ graded pairQuery).rows ∧
      row.toList = [("A", .weak), ("B", .none), ("C", .none)] ∧
      ∀ row', ("x", row') ∈ (alignmentReport ⟨false, true⟩ graded.reverse pairQuery).rows →
        row'.find? "A" = row.find? "A") ∧
    (alignmentReport ⟨false, true⟩ graded pairQuery).unaligned = ["B", "C"] := by
  have hnames : (graded.map Shape.name).Nodup := by decide +kernel
  have hentries : (graded.map fun s => (s.name, AlignmentOptions.entry ⟨false, true⟩ graded
      (pairQuery.triplesOf "x") s)) = [("A", .weak), ("B", .none), ("C", .none)] := by
    decide +kernel
  have hunaligned : ((graded.map Shape.name).filter fun s =>
      ∀ x ∈ (alignmentReport ⟨false, true⟩ graded pairQuery).rows,
        x.2.find? s = some .none) = ["B", "C"] := by decide +kernel
  obtain ⟨hstars, hrows, hnone⟩ := alignmentReport_tabulates ⟨false, true⟩ pairQuery hnames
  have hx : "x" ∈ (alignmentReport ⟨false, true⟩ graded pairQuery).rows.map Prod.fst := by
    rw [hstars]
    decide +kernel
  obtain ⟨⟨_, row⟩, hrow, rfl⟩ := List.mem_map.mp hx
  obtain ⟨htable, -, horder⟩ := hrows _ row hrow
  exact ⟨hnames, ⟨row, hrow, htable.trans hentries,
    fun row' hrow' => horder _ row' (List.reverse_perm graded) hrow' "A"⟩,
    hnone.trans hunaligned⟩

end StarShapes
