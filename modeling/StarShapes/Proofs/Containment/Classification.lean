import Mathlib.Data.List.ReduceOption
import StarShapes.Proofs.Binding.Keeping
import StarShapes.Proofs.Containment.Grounding
import StarShapes.Proofs.Containment.Solution

/-!
Classification: how the verdict on a star follows from the bindings that are reported with it.

* `bindRow_eq_bindAll`, `fst_bindRow_eq`: a row is what a sequence of calls on one memory answers,
  and so what the memory holds in the end. Bindings in it are told apart by their shapes
  (`injOn_shape`).
* `containments_eq`: each row of the table is reported, with its bindings by shape.
* `Containment.shapesWhere`: the shapes whose bindings of a star have a property.
* `solve_classifies`: the verdict on a star is settled by the shapes that bind it in full or in
  part, in the order in which the shapes are given, unless it depends on others; and the shapes
  worth visiting are those that bind a triple of some star.
-/

namespace StarShapes

/-- The shapes whose bindings of a star have a property, in order. -/
def Containment.shapesWhere (c : Containment) (P : Bindings → Bool) : List String :=
  (c.bindings.toList.filter fun x => P x.2).map Prod.fst

namespace Problem

variable {p : Problem}

/-! ### Rows as answers to calls -/

/-- A row is what a sequence of calls on one star answers. -/
lemma bindRow_eq_bindAll (scene : Scene) (n : String) (shapes : List Shape) (m : Memory) :
    bindRow scene n shapes m =
      ((m.bindAll scene (shapes.map fun s => ⟨s, n⟩)).1.reduceOption,
        (m.bindAll scene (shapes.map fun s => ⟨s, n⟩)).2) := by
  induction shapes generalizing m with
  | nil => rfl
  | cons s shapes ih =>
      rw [bindRow, List.map_cons, Memory.bindAll]
      dsimp only
      rw [ih]
      cases (m.bind scene s n).1 <;> rfl

/-- A row keeps the memory labelled. -/
lemma labelled_bindRow {scene : Scene} (n : String) (shapes : List Shape) {m : Memory}
    (hm : m.Labelled scene) : (bindRow scene n shapes m).2.Labelled scene := by
  rw [bindRow_eq_bindAll]
  exact (Memory.keeps_bindAll _ hm).2

/-- A row is what the memory holds in the end of the names of the shapes. -/
lemma fst_bindRow_eq {scene : Scene} {n : String} (shapes : List Shape) {m : Memory}
    (hm : m.Labelled scene) : (bindRow scene n shapes m).1 =
      (shapes.map Shape.name).filterMap fun k =>
        (bindRow scene n shapes m).2.decided.find? ⟨k, n⟩ := by
  rw [bindRow_eq_bindAll]
  dsimp only
  rw [Memory.bindAll_eq_map _ hm, List.map_map, List.filterMap_map, List.reduceOption,
    List.filterMap_map]
  rfl

/-- Each row is read off a labelled memory. -/
lemma exists_memory_of_mem_bindRows {scene : Scene} {shapes : List Shape} {names : List String}
    {m : Memory} (hm : m.Labelled scene) {n : String} {row : List Bindings}
    (h : (n, row) ∈ bindRows scene shapes names m) : ∃ m' : Memory, m'.Labelled scene ∧
      ∀ b ∈ row, ∃ s ∈ shapes, m'.decided.find? ⟨s.name, n⟩ = some b := by
  induction names generalizing m with
  | nil => cases h
  | cons k names ih =>
      have hlabelled := labelled_bindRow k shapes hm
      rw [bindRows] at h
      rcases List.mem_cons.mp h with he | h
      · obtain ⟨rfl, rfl⟩ := Prod.mk.inj he
        refine ⟨_, hlabelled, fun b hb => ?_⟩
        rw [fst_bindRow_eq shapes hm, List.mem_filterMap] at hb
        obtain ⟨_, hk, hb⟩ := hb
        obtain ⟨s, hs, rfl⟩ := List.mem_map.mp hk
        exact ⟨s, hs, hb⟩
      · exact ih hlabelled h

/-- Bindings in a row are told apart by their shapes. -/
lemma injOn_shape {n : String} {row : List Bindings} (h : (n, row) ∈ p.table) :
    Set.InjOn Bindings.shape {b | b ∈ row} := by
  obtain ⟨m, hlabelled, hrow⟩ := exists_memory_of_mem_bindRows Memory.labelled_empty h
  intro b hb b' hb' he
  obtain ⟨s, -, hs⟩ := hrow b hb
  obtain ⟨s', -, hs'⟩ := hrow b' hb'
  have hname : s.name = s'.name :=
    (hlabelled _ _ hs).1.symm.trans (he.trans (hlabelled _ _ hs').1)
  rw [hname, hs'] at hs
  exact (Option.some.inj hs).symm

/-- Bindings in a row are of its star. -/
lemma star_of_mem_row {n : String} {row : List Bindings} (h : (n, row) ∈ p.table) {b : Bindings}
    (hb : b ∈ row) : b.star = n := by
  obtain ⟨m, hlabelled, hrow⟩ := exists_memory_of_mem_bindRows Memory.labelled_empty h
  obtain ⟨s, -, hs⟩ := hrow b hb
  exact (hlabelled _ _ hs).2.1

/-- A row has bindings against each of the shapes, in their order. -/
lemma map_shape_row {n : String} {row : List Bindings} (h : (n, row) ∈ p.table) :
    row.map Bindings.shape = p.shapes.map Shape.name := by
  obtain ⟨k, -, -, hrow⟩ := exists_of_forall₂_right (rows_table p) h
  have key : ∀ {shapes : List Shape} {row : List Bindings},
      List.Forall₂ (p.Entry k) shapes row → row.map Bindings.shape = shapes.map Shape.name := by
    intro shapes row h
    induction h with
    | nil => rfl
    | cons hentry _ ih =>
        obtain ⟨own, hown, hfinds⟩ := hentry
        rw [List.map_cons, List.map_cons, ih, hfinds.shape_eq, (mem_of_own? hown).2]
  exact key hrow

/-- Full bindings in a row bind a triple. -/
lemma isWorthVisiting_of_full {n : String} {row : List Bindings} (h : (n, row) ∈ p.table)
    {b : Bindings} (hb : b ∈ row) (hfull : b.full = true) : b.isWorthVisiting = true := by
  obtain ⟨t, -, -, hfinds⟩ := p.tabulates.found n row b h hb
  simpa [Bindings.isWorthVisiting] using hfinds.count_pos hfull

/-! ### What is reported about a star -/

/-- The bindings of a row are reported in order, each once. -/
lemma toList_reported {n : String} {row : List Bindings} (h : (n, row) ∈ p.table) :
    (p.reported n row).bindings.toList = (distinct row).map fun b => (b.shape, b) := by
  have hinj : Set.InjOn (fun b : Bindings => (b.shape, b)) {b | b ∈ row} :=
    fun b _ b' _ he => congrArg Prod.snd he
  rw [reported, Keyed.toList_ofList_eq_distinct, map_distinct hinj]
  rintro x hx y hy he
  obtain ⟨b, hb, rfl⟩ := List.mem_map.mp hx
  obtain ⟨b', hb', rfl⟩ := List.mem_map.mp hy
  rw [injOn_shape h hb hb' he]

lemma mem_toList_reported {n : String} {row : List Bindings} (h : (n, row) ∈ p.table)
    {s : String} {b : Bindings} :
    (s, b) ∈ (p.reported n row).bindings.toList ↔ b ∈ row ∧ b.shape = s := by
  rw [toList_reported h, List.mem_map]
  constructor
  · rintro ⟨b', hb', he⟩
    obtain ⟨rfl, rfl⟩ := Prod.mk.inj he
    exact ⟨mem_distinct.mp hb', rfl⟩
  · rintro ⟨hb, rfl⟩
    exact ⟨b, mem_distinct.mpr hb, rfl⟩

/-- The shapes whose reported bindings have a property are those of the row that do. -/
lemma shapesWhere_reported {n : String} {row : List Bindings} (h : (n, row) ∈ p.table)
    (P : Bindings → Bool) :
    (p.reported n row).shapesWhere P = Verdict.shapesOf P row := by
  have hinj : Set.InjOn Bindings.shape {b | b ∈ row.filter P} :=
    (injOn_shape h).mono fun b hb => (List.mem_filter.mp hb).1
  rw [Containment.shapesWhere, toList_reported h, List.filter_map, List.map_map, Verdict.shapesOf,
    ← map_distinct hinj, ← filter_distinct]
  rfl

lemma keys_reported {n : String} {row : List Bindings} (h : (n, row) ∈ p.table) :
    (p.reported n row).bindings.keys = distinct (p.shapes.map Shape.name) := by
  rw [reported, Keyed.keys_ofList, List.map_map, ← map_shape_row h]
  rfl

/-! ### Verdicts and visits -/

/-- The verdict on a row, by the shapes of its bindings. -/
lemma ofRow_eq {n : String} {row : List Bindings} (h : (n, row) ∈ p.table) :
    Verdict.ofRow row = Verdict.ofShapes none (Verdict.shapesOf Bindings.full row)
      (Verdict.shapesOf Bindings.isWorthVisiting row)
      (Verdict.shapesOf (fun b => b.isWorthVisiting && b.byClass) row) := by
  have hfull : row.filter (fun b => b.isWorthVisiting && b.full) = row.filter Bindings.full := by
    refine List.filter_congr fun b hb => ?_
    cases hbfull : b.full with
    | false => rw [Bool.and_false]
    | true => rw [isWorthVisiting_of_full h hb hbfull, Bool.and_true]
  rw [Verdict.ofRow_eq_ofShapes, Verdict.shapesOf, hfull, ← Verdict.shapesOf]

/-- The verdict that is reported about the star of a row is what its shapes come to, or else no
shape binds the star in full and others explain it. -/
lemma verdict_reported {n : String} {row : List Bindings} (h : (n, row) ∈ p.table) :
    (p.reported n row).verdict = Verdict.ofShapes p.deciding?
        (Verdict.shapesOf Bindings.full row) (Verdict.shapesOf Bindings.isWorthVisiting row)
        (Verdict.shapesOf (fun b => b.isWorthVisiting && b.byClass) row) ∧
        (Verdict.shapesOf Bindings.full row ≠ [] ∨ p.explaining n = ∅) ∨
      Verdict.shapesOf Bindings.full row = [] ∧ ∃ targets, targets ≠ [] ∧ targets.Nodup ∧
        p.explaining n = {s | s ∈ targets} ∧ (p.reported n row).verdict = .depend targets := by
  rcases p.explained_cases n row with ⟨he, hkept⟩ | ⟨hresult, targets, htargets, hne, he⟩
  · left
    rw [reported, he]
    rw [ofRow_eq h] at hkept ⊢
    refine ⟨?_, hkept.imp Verdict.result_ofShapes_iff.mp fun hnil => ?_⟩
    · cases p.deciding? with
      | none => rfl
      | some deciding => exact Verdict.restrict_ofShapes deciding _ _ _
    · rw [explaining, hnil]
      simp
  · right
    rw [ofRow_eq h, ne_eq, Verdict.result_ofShapes_iff, not_not] at hresult
    refine ⟨hresult, targets, hne, htargets ▸ nodup_groundedTargets _ _, ?_, ?_⟩
    · rw [explaining, htargets]
    · rw [reported, he]
      cases p.deciding? with
      | none => rfl
      | some deciding => simp [Verdict.restrict, Verdict.depend]

/-- Some shape binds a star in full that is contained, possibly in part. -/
lemma full_ne_nil_of_contained {n : String} {row : List Bindings} (h : (n, row) ∈ p.table)
    (hcontained : (p.reported n row).verdict.result = .contained ∨
      (p.reported n row).verdict.result = .partlyContained) :
    Verdict.shapesOf Bindings.full row ≠ [] := by
  rcases verdict_reported h with ⟨he, -⟩ | ⟨-, targets, -, -, -, he⟩
  · exact Verdict.full_ne_nil_of_result_ofShapes (he ▸ hcontained)
  · rw [he] at hcontained
    simp [Verdict.depend] at hcontained

/-- A star has bindings with a bound triple if it is reported with them. -/
lemma mem_touching_iff_reported {n s : String} : s ∈ p.touching n ↔
    ∃ c b, (n, c) ∈ p.solve.containments ∧ (s, b) ∈ c.bindings.toList ∧
      b.isWorthVisiting = true := by
  constructor
  · rintro ⟨row, b, hmem, hb, hworth, hs⟩
    exact ⟨p.reported n row, b, mem_containments.mpr ⟨row, hmem, rfl⟩,
      (mem_toList_reported hmem).mpr ⟨hb, hs⟩, hworth⟩
  · rintro ⟨c, b, hc, hb, hworth⟩
    obtain ⟨row, hmem, rfl⟩ := mem_containments.mp hc
    obtain ⟨hb, hs⟩ := (mem_toList_reported hmem).mp hb
    exact ⟨row, b, hmem, hb, hworth, hs⟩

/-- Every shape has a flag. -/
lemma keys_visits (p : Problem) : p.solve.visits.keys = distinct (p.shapes.map Shape.name) := by
  have hstart : (Keyed.ofList (p.shapes.map fun s => (s.name, false)) : Dict String Bool).keys =
      distinct (p.shapes.map Shape.name) := by
    rw [Keyed.keys_ofList, List.map_map]
    rfl
  rw [solve]
  dsimp only
  rw [visits, Dict.keys_foldl_set, pushAllNew_of_subset, hstart]
  intro s hs
  obtain ⟨b, hb, rfl⟩ := List.mem_map.mp hs
  obtain ⟨⟨n, row⟩, hmem, hb⟩ := List.mem_flatMap.mp (List.mem_filter.mp hb).1
  rw [hstart, mem_distinct, ← map_shape_row hmem]
  exact List.mem_map_of_mem hb

/-- **How stars are classified.** Every star of the query is reported once, in order, with bindings
against each of the shapes. Its verdict is settled by the shapes that bind it in full, those that
bind a triple of it and those of them that a class triple speaks for, unless it depends on others
and no shape binds it in full. Every shape has a flag, which is set if it binds a triple of some
star. -/
theorem solve_classifies (p : Problem) :
    p.solve.containments.map Prod.fst = p.query.names ∧ p.query.names.Nodup ∧
      (∀ n c, (n, c) ∈ p.solve.containments →
        c.bindings.keys = distinct (p.shapes.map Shape.name) ∧
        (∀ s b, (s, b) ∈ c.bindings.toList → b.shape = s ∧ b.star = n) ∧
        (c.verdict = .ofShapes p.deciding? (c.shapesWhere Bindings.full)
            (c.shapesWhere Bindings.isWorthVisiting)
            (c.shapesWhere fun b => b.isWorthVisiting && b.byClass) ∨
          c.verdict.result = .dependent ∧ c.shapesWhere Bindings.full = [])) ∧
      p.solve.visits.keys = distinct (p.shapes.map Shape.name) ∧
      ∀ s, p.solve.visits.find? s = some true ↔ ∃ n c b, (n, c) ∈ p.solve.containments ∧
        (s, b) ∈ c.bindings.toList ∧ b.bound ≠ [] := by
  refine ⟨?_, p.query.nodup_names, fun n c hc => ?_, keys_visits p, fun s => ?_⟩
  · rw [containments_eq, List.map_map, ← map_fst_table p]
    rfl
  · obtain ⟨row, hmem, rfl⟩ := mem_containments.mp hc
    refine ⟨keys_reported hmem, fun s b hb => ?_, ?_⟩
    · obtain ⟨hb, hs⟩ := (mem_toList_reported hmem).mp hb
      exact ⟨hs, star_of_mem_row hmem hb⟩
    · simp only [shapesWhere_reported hmem]
      rcases verdict_reported hmem with ⟨he, -⟩ | ⟨hnone, targets, -, -, -, he⟩
      · exact Or.inl he
      · exact Or.inr ⟨he ▸ rfl, hnone⟩
  · have hbound : ∀ b : Bindings, b.isWorthVisiting = true ↔ b.bound ≠ [] := fun b => by
      rw [Bindings.isWorthVisiting, decide_eq_true_eq, Bindings.count, List.length_pos_iff]
    have htouching : (∃ n, s ∈ p.touching n) ↔ ∃ n c b, (n, c) ∈ p.solve.containments ∧
        (s, b) ∈ c.bindings.toList ∧ b.bound ≠ [] := by
      simp only [mem_touching_iff_reported, hbound]
    rw [← htouching, find?_visits]
    split
    · rename_i h
      exact iff_of_true rfl h
    · rename_i h
      refine iff_of_false ?_ h
      split <;> simp

/-- Three stars, of which one fits a deciding shape, one fits two shapes in part and one fits
none. -/
def threeStars : Problem where
  query := .ofStars [.ofPairs "b" [("p", .var "x")],
    .ofPairs "c" [("p", .var "x"), ("q", .var "y")], .ofPairs "d" [("r", .var "x")]]
  shapes := [.asking "S" [("p", none)], .asking "U" [("q", none)]]
  dependent := []
  deciding? := some ["S"]

/-- The first is contained in part, as all its shapes are deciding ones; the second is aligned with
both shapes. -/
theorem threeStars_classified :
    (∃ c, ("b", c) ∈ threeStars.solve.containments ∧
      c.verdict = ⟨.partlyContained, some ["S"], none⟩) ∧
    (∃ c, ("c", c) ∈ threeStars.solve.containments ∧
      c.verdict = ⟨.aligned, some ["S", "U"], none⟩) := by
  obtain ⟨-, -, hclass, -, -⟩ := solve_classifies threeStars
  have hb : ∃ x ∈ threeStars.solve.containments, x.1 = "b" ∧
      x.2.shapesWhere Bindings.full = ["S"] := by decide +kernel
  have hc : ∃ x ∈ threeStars.solve.containments, x.1 = "c" ∧ x.2.verdict.result ≠ .dependent ∧
      x.2.shapesWhere Bindings.full = [] ∧
        x.2.shapesWhere Bindings.isWorthVisiting = ["S", "U"] ∧
        x.2.shapesWhere (fun b => b.isWorthVisiting && b.byClass) = [] := by decide +kernel
  constructor
  · obtain ⟨⟨_, c⟩, hmem, rfl, hfull⟩ := hb
    refine ⟨c, hmem, ?_⟩
    obtain ⟨-, -, he | ⟨-, hnone⟩⟩ := hclass "b" c hmem
    · rw [he, hfull]
      rfl
    · rw [hfull] at hnone
      cases hnone
  · obtain ⟨⟨_, c⟩, hmem, rfl, hresult, hfull, htouching, hbyClass⟩ := hc
    refine ⟨c, hmem, ?_⟩
    obtain ⟨-, -, he | ⟨hdependent, -⟩⟩ := hclass "c" c hmem
    · rw [he, hfull, htouching, hbyClass]
      rfl
    · exact absurd hdependent hresult

end Problem

end StarShapes
