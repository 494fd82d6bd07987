import StarShapes.Proofs.Containment.Verdict

/-!
Solutions: what is reported about a star, and which shapes are worth visiting.

* `Solution.Reports`: a star is reported with an outcome that rests on a shape.
* `Solution.Gives`: a star is reported with an outcome and a set of targets.
* `Solution.Outcome`: a star is reported with an outcome, whatever its targets.
* `gives_iff`: without deciding shapes, outcome and targets are settled by the
  shapes that bind the star in full, those that bind a triple of it, and those
  that explain it.
* `reports_contained_iff`: without deciding shapes, a star is reported contained
  in the shapes that it conforms to.
* `grounded_of_reports`: a star is reported to depend on shapes that explain it.
* `find?_visits`: a shape is worth visiting if it binds a triple of some star.
-/

namespace StarShapes

/-- A star is reported with an outcome that rests on a shape, among others. -/
def Solution.Reports (x : Solution) (n : String) (result : Result) (shape : String) : Prop :=
  ∃ c targets, (n, c) ∈ x.containments ∧ c.verdict.result = result ∧
    c.verdict.targets? = some targets ∧ shape ∈ targets

instance (x : Solution) (n : String) (result : Result) (shape : String) :
    Decidable (x.Reports n result shape) :=
  decidable_of_iff (∃ y ∈ x.containments, y.1 = n ∧ y.2.verdict.result = result ∧
      shape ∈ y.2.verdict.targets?.getD []) <| by
    constructor
    · rintro ⟨⟨k, c⟩, hc, rfl, hres, hs⟩
      cases ht : c.verdict.targets? with
      | none => simp [ht] at hs
      | some targets => exact ⟨c, targets, hc, hres, ht, by simpa [ht] using hs⟩
    · rintro ⟨c, targets, hc, hres, ht, hs⟩
      exact ⟨(n, c), hc, rfl, hres, by simpa [ht] using hs⟩

/-! ### Outcome and targets -/

/-- A star is reported with an outcome and a set of targets. -/
def Solution.Gives (x : Solution) (n : String) (result : Result)
    (targets? : Option (Set String)) : Prop :=
  ∃ c, (n, c) ∈ x.containments ∧ c.verdict.result = result ∧
    c.verdict.targets?.map (fun targets => {s | s ∈ targets}) = targets?

/-- A shape is among the targets of a star if it is in the set of targets that the star is reported
with. -/
lemma Solution.reports_iff_gives {x : Solution} {n s : String} {result : Result} :
    x.Reports n result s ↔ ∃ targets, x.Gives n result (some targets) ∧ s ∈ targets := by
  constructor
  · rintro ⟨c, targets, hc, hresult, htargets, hs⟩
    exact ⟨_, ⟨c, hc, hresult, by rw [htargets]; rfl⟩, hs⟩
  · rintro ⟨_, ⟨c, hc, hresult, htargets⟩, hs⟩
    obtain ⟨targets, ht, rfl⟩ := Option.map_eq_some_iff.mp htargets
    exact ⟨c, targets, hc, hresult, ht, hs⟩

/-- Outcome and targets, by the shapes that bind a star in full, those that bind
a triple of it and those that explain it. -/
inductive Verdict.Settles (full touching explaining : Set String) :
    Result → Option (Set String) → Prop
  | contained (hfull : full.Nonempty) : Settles full touching explaining .contained (some full)
  | dependent (hfull : full = ∅) (hexplaining : explaining.Nonempty) :
      Settles full touching explaining .dependent (some explaining)
  | aligned (hfull : full = ∅) (hexplaining : explaining = ∅) (htouching : touching.Nonempty) :
      Settles full touching explaining .aligned (some touching)
  | rejected (hfull : full = ∅) (hexplaining : explaining = ∅) (htouching : touching = ∅) :
      Settles full touching explaining .rejected none

/-- Outcome and targets are settled in one way. -/
lemma Verdict.Settles.unique {full touching explaining : Set String} {result result' : Result}
    {targets? targets?' : Option (Set String)}
    (h : Settles full touching explaining result targets?)
    (h' : Settles full touching explaining result' targets?') :
    result = result' ∧ targets? = targets?' := by
  cases h <;> cases h' <;> simp_all

/-- A star that is not contained is bound in full by no shape. -/
lemma Verdict.Settles.full_eq_empty {full touching explaining : Set String} {result : Result}
    {targets? : Option (Set String)} (h : Settles full touching explaining result targets?)
    (hr : result ≠ .contained) : full = ∅ := by
  cases h with
  | contained _ => exact absurd rfl hr
  | dependent hfull _ => exact hfull
  | aligned hfull _ _ => exact hfull
  | rejected hfull _ _ => exact hfull

/-- For a star that is contained it does not matter what explains it. -/
lemma Verdict.Settles.of_contained {full touching explaining explaining' : Set String}
    {result : Result} {targets? : Option (Set String)}
    (h : Settles full touching explaining result targets?) (hr : result = .contained) :
    Settles full touching explaining' result targets? := by
  cases h with
  | contained hfull => exact .contained hfull
  | dependent _ _ => cases hr
  | aligned _ _ _ => cases hr
  | rejected _ _ _ => cases hr

namespace Problem

variable {p : Problem}

/-- The shapes that bind a star in full. -/
def full (p : Problem) (n : String) : Set String :=
  {s | ∃ row b, (n, row) ∈ p.table ∧ b ∈ row ∧ b.isWorthVisiting = true ∧ b.full = true ∧
    b.shape = s}

/-- The shapes that bind a triple of a star. -/
def touching (p : Problem) (n : String) : Set String :=
  {s | ∃ row b, (n, row) ∈ p.table ∧ b ∈ row ∧ b.isWorthVisiting = true ∧ b.shape = s}

/-- The shapes that explain a star. -/
def explaining (p : Problem) (n : String) : Set String :=
  {s | s ∈ groundedTargets (dependencies p.table) (isReady (rowVerdicts p.table))
    (dependencyStars (dependencies p.table)) n}

/-- A star counts by itself if some shape binds a triple of it. -/
lemma isReady_iff_touching {n : String} :
    isReady (rowVerdicts p.table) n = true ↔ (p.touching n).Nonempty := by
  rw [isReady_iff]
  constructor
  · rintro ⟨row, b, hmem, hb, hworth⟩
    exact ⟨b.shape, row, b, hmem, hb, hworth, rfl⟩
  · rintro ⟨_, row, b, hmem, hb, hworth, rfl⟩
    exact ⟨row, b, hmem, hb, hworth⟩

lemma mem_full_iff {n s : String} {row : List Bindings} (h : (n, row) ∈ p.table) :
    s ∈ p.full n ↔ ∃ b ∈ row, b.isWorthVisiting = true ∧ b.full = true ∧ b.shape = s := by
  constructor
  · rintro ⟨row', b, h', hb, hs⟩
    exact ⟨b, row_unique h h' ▸ hb, hs⟩
  · rintro ⟨b, hb, hs⟩
    exact ⟨row, b, h, hb, hs⟩

lemma mem_touching_iff {n s : String} {row : List Bindings} (h : (n, row) ∈ p.table) :
    s ∈ p.touching n ↔ ∃ b ∈ row, b.isWorthVisiting = true ∧ b.shape = s := by
  constructor
  · rintro ⟨row', b, h', hb, hs⟩
    exact ⟨b, row_unique h h' ▸ hb, hs⟩
  · rintro ⟨b, hb, hs⟩
    exact ⟨row, b, h, hb, hs⟩

/-- The verdict on a row is settled by the shapes that bind the star, where none
explain it. -/
lemma settles_ofRow {n : String} {row : List Bindings} (h : (n, row) ∈ p.table) :
    Verdict.Settles (p.full n) (p.touching n) ∅ (Verdict.ofRow row).result
      ((Verdict.ofRow row).targets?.map fun targets => {s | s ∈ targets}) := by
  have hsums := Verdict.sums_ofRow row
  generalize Verdict.ofRow row = v at hsums
  cases hsums with
  | @contained targets _ hfull htargets =>
      have hset : {s | s ∈ targets} = p.full n := by
        ext s
        exact (htargets s).trans (mem_full_iff h).symm
      obtain ⟨b, hb, hworth, hbfull⟩ := hfull
      have hnonempty : (p.full n).Nonempty :=
        ⟨b.shape, (mem_full_iff h).mpr ⟨b, hb, hworth, hbfull, rfl⟩⟩
      simpa [hset] using Verdict.Settles.contained hnonempty
  | @aligned targets _ hworth hnone htargets =>
      have hfull : p.full n = ∅ := by
        refine Set.eq_empty_of_forall_notMem fun s hs => ?_
        obtain ⟨b, hb, hbworth, hbfull, -⟩ := (mem_full_iff h).mp hs
        rw [hnone b hb hbworth] at hbfull
        cases hbfull
      have hset : {s | s ∈ targets} = p.touching n := by
        ext s
        exact (htargets s).trans (mem_touching_iff h).symm
      obtain ⟨b, hb, hbworth⟩ := hworth
      have hnonempty : (p.touching n).Nonempty :=
        ⟨b.shape, (mem_touching_iff h).mpr ⟨b, hb, hbworth, rfl⟩⟩
      simpa [hset] using Verdict.Settles.aligned hfull rfl hnonempty
  | rejected hnone =>
      have htouching : p.touching n = ∅ := by
        refine Set.eq_empty_of_forall_notMem fun s hs => ?_
        obtain ⟨b, hb, hbworth, -⟩ := (mem_touching_iff h).mp hs
        rw [hnone b hb] at hbworth
        cases hbworth
      have hfull : p.full n = ∅ := by
        refine Set.eq_empty_of_subset_empty (htouching ▸ ?_)
        rintro s ⟨row', b, hmem, hb, hworth, -, hs⟩
        exact ⟨row', b, hmem, hb, hworth, hs⟩
      exact .rejected hfull rfl htouching

/-- The verdict on a row, once other stars may explain it, is settled by the
shapes that bind the star or explain it. -/
lemma settles_explained {n : String} {row : List Bindings} (h : (n, row) ∈ p.table) :
    Verdict.Settles (p.full n) (p.touching n) (p.explaining n) (p.explained n row).result
      ((p.explained n row).targets?.map fun targets => {s | s ∈ targets}) := by
  have hrow := settles_ofRow h
  rcases p.explained_cases n row with ⟨he, hresult | hnil⟩ | ⟨hresult, _, rfl, hne, he⟩
  · rw [he]
    exact hrow.of_contained hresult
  · have hexplaining : p.explaining n = ∅ := by
      rw [explaining, hnil]
      simp
    rw [he, hexplaining]
    exact hrow
  · rw [he]
    exact .dependent (hrow.full_eq_empty hresult) (List.exists_mem_of_ne_nil _ hne)

/-- Without deciding shapes, the outcome of a star and its targets are settled by
the shapes that bind it or explain it. -/
theorem gives_iff (hd : p.deciding? = none) {n : String} {result : Result}
    {targets? : Option (Set String)} :
    p.solve.Gives n result targets? ↔ n ∈ p.query.names ∧
      Verdict.Settles (p.full n) (p.touching n) (p.explaining n) result targets? := by
  constructor
  · rintro ⟨c, hc, rfl, rfl⟩
    obtain ⟨row, hmem, hv⟩ := (mem_containments_of_not_deciding hd).mp ⟨c, hc, rfl⟩
    rw [hv]
    exact ⟨mem_names_of_mem_table hmem, settles_explained hmem⟩
  · rintro ⟨hn, hsettles⟩
    obtain ⟨row, hmem⟩ := exists_row hn
    obtain ⟨c, hc, hv⟩ := (mem_containments_of_not_deciding hd).mpr ⟨row, hmem, rfl⟩
    obtain ⟨hresult, htargets⟩ := (settles_explained hmem).unique hsettles
    exact ⟨c, hc, hv ▸ hresult, hv ▸ htargets⟩

/-! ### Containment -/

/-- A star is reported contained in the shapes that bind it in full. -/
lemma reports_contained_iff_mem_full (hd : p.deciding? = none) {n s : String} :
    p.solve.Reports n .contained s ↔ s ∈ p.full n := by
  rw [Solution.reports_iff_gives]
  constructor
  · rintro ⟨targets, hgives, hs⟩
    obtain ⟨-, hsettles⟩ := (gives_iff hd).mp hgives
    cases hsettles
    exact hs
  · intro hs
    obtain ⟨row, b, hmem, hb, h⟩ := hs
    refine ⟨p.full n, (gives_iff hd).mpr ⟨mem_names_of_mem_table hmem, .contained ⟨s, ?_⟩⟩, ?_⟩
    all_goals exact ⟨row, b, hmem, hb, h⟩

/-- A star is bound in full by the shapes that it conforms to. -/
lemma mem_full_iff_conforms {scene : Scene} {tasks : Set Task} (h : p.Tabulates scene tasks)
    {n s : String} : s ∈ p.full n ↔
      ∃ t ∈ tasks, t.star = n ∧ t.shape.name = s ∧ scene.Conforms t := by
  constructor
  · rintro ⟨row, b, hmem, hb, -, hfull, rfl⟩
    obtain ⟨t, ht, hn, hfinds⟩ := h.found n row b hmem hb
    exact ⟨t, ht, hn, hfinds.shape_eq.symm, hfinds.full_iff_conforms.mp hfull⟩
  · rintro ⟨t, ht, rfl, rfl, hconf⟩
    obtain ⟨row, b, hmem, hb, hfinds⟩ := h.complete t ht
    have hfull := hfinds.full_iff_conforms.mpr hconf
    exact ⟨row, b, hmem, hb, by simpa [Bindings.isWorthVisiting] using hfinds.count_pos hfull,
      hfull, hfinds.shape_eq⟩

/-- Without deciding shapes a star is reported contained in the shapes that it
conforms to. -/
theorem reports_contained_iff {scene : Scene} {tasks : Set Task} (h : p.Tabulates scene tasks)
    (hd : p.deciding? = none) {n s : String} : p.solve.Reports n .contained s ↔
      ∃ t ∈ tasks, t.star = n ∧ t.shape.name = s ∧ scene.Conforms t :=
  (reports_contained_iff_mem_full hd).trans (mem_full_iff_conforms h)

/-! ### Dependence -/

/-- The dependencies of a problem are those that bindings in the table report. -/
lemma mem_dependencies {d : Dependency} : d ∈ dependencies p.table ↔
    ∃ n row b, (n, row) ∈ p.table ∧ b ∈ row ∧ d ∈ b.dependencies := by
  simp only [dependencies, entries, mem_distinct, List.mem_flatMap]
  constructor
  · rintro ⟨b, ⟨⟨n, row⟩, hmem, hb⟩, hd⟩
    exact ⟨n, row, b, hmem, hb, hd⟩
  · rintro ⟨n, row, b, hmem, hb, hd⟩
    exact ⟨b, ⟨(n, row), hmem, hb⟩, hd⟩

/-- No row by itself makes a star depend on others. -/
lemma result_ofRow_ne_dependent (row : List Bindings) :
    (Verdict.ofRow row).result ≠ .dependent := by
  rw [Verdict.ofRow_eq_ofShapes]
  exact Verdict.result_ofShapes_ne_dependent _ _ _ _

/-- Deciding shapes make no star depend on others. -/
lemma restrict_eq_of_dependent {deciding : List String} {v : Verdict}
    (h : (v.restrict deciding).result = .dependent) : v.restrict deciding = v := by
  rw [Verdict.restrict] at h ⊢
  split at h
  · cases h
  · rename_i hcond
    rw [if_neg hcond]

/-- A star that is reported to depend on a shape is explained by it. -/
lemma grounded_of_reports {n s : String} (h : p.solve.Reports n .dependent s) :
    s ∈ groundedTargets (dependencies p.table) (isReady (rowVerdicts p.table))
      (dependencyStars (dependencies p.table)) n := by
  obtain ⟨c, targets, hc, hres, htargets, hs⟩ := h
  obtain ⟨row, hmem, hv⟩ := mem_containments_iff.mp ⟨c, hc, rfl⟩
  have hexplained : c.verdict = p.explained n row := by
    cases hd : p.deciding? with
    | none => rwa [hd] at hv
    | some deciding =>
        rw [hd] at hv
        dsimp only at hv
        rw [hv] at hres
        rw [hv, restrict_eq_of_dependent hres]
  rcases p.explained_cases n row with ⟨he, -⟩ | ⟨-, ts, hts, -, he⟩
  · rw [hexplained, he] at hres
    exact absurd hres (result_ofRow_ne_dependent row)
  · rw [hexplained, he] at htargets
    obtain rfl : ts = targets := Option.some.inj htargets
    rwa [hts]

/-! ### Visits -/

open Classical in
/-- A shape is worth visiting if it binds a triple of some star. -/
theorem find?_visits (p : Problem) (s : String) :
    p.solve.visits.find? s = if ∃ n, s ∈ p.touching n then some true
      else if s ∈ p.shapes.map Shape.name then some false else none := by
  have hworth : (∃ b ∈ (entries p.table).filter Bindings.isWorthVisiting, b.shape = s) ↔
      ∃ n, s ∈ p.touching n := by
    simp only [List.mem_filter, entries, List.mem_flatMap]
    constructor
    · rintro ⟨b, ⟨⟨⟨n, row⟩, hmem, hb⟩, hbworth⟩, hs⟩
      exact ⟨n, row, b, hmem, hb, hbworth, hs⟩
    · rintro ⟨n, row, b, hmem, hb, hbworth, hs⟩
      exact ⟨b, ⟨⟨(n, row), hmem, hb⟩, hbworth⟩, hs⟩
  have hnames : (∃ t ∈ p.shapes, t.name = s) ↔ s ∈ p.shapes.map Shape.name :=
    List.mem_map.symm
  have hstart : (Keyed.ofList (p.shapes.map fun t => (t.name, false)) : Dict String Bool) =
      p.shapes.foldl (fun (d : Dict String Bool) t => d.set t.name false) .empty := by
    rw [Keyed.ofList, Keyed.insertAll, List.foldl_map]
    rfl
  rw [solve]
  dsimp only
  rw [visits, Dict.find?_foldl_set, hstart, Dict.find?_foldl_set]
  simp only [hworth, hnames]
  rfl

end Problem

end StarShapes
