import StarShapes.Proofs.Collection.Distinct
import StarShapes.Proofs.Containment.Table

/-!
Verdicts: what the shapes tried in turn add up to.

* `Verdict.ofShapes`: the verdict on a star, given the shapes that bind it in
  full, those that bind it in part and those that a class triple speaks for.
* `ofRow_eq_ofShapes`: this is the verdict on a row.
* `Verdict.Sums`: a star is contained if some bindings are full, in the shapes
  of these; else it is aligned if some bind a triple, with the shapes of these;
  else it is rejected. `sums_ofRow` says so of the verdict on a row.
* `isReady_iff`: the stars that count by themselves.
* `containments_eq`, `explained_cases`: how the verdicts on the rows become those of the solution.
-/

namespace StarShapes

namespace Verdict

/-- What the bindings of a row add up to. -/
inductive Sums (row : List Bindings) : Verdict → Prop
  | contained {targets : List String} {byClass? : Option (List String)}
      (hfull : ∃ b ∈ row, b.isWorthVisiting = true ∧ b.full = true)
      (htargets : ∀ s, s ∈ targets ↔
        ∃ b ∈ row, b.isWorthVisiting = true ∧ b.full = true ∧ b.shape = s) :
      Sums row ⟨.contained, some targets, byClass?⟩
  | aligned {targets : List String} {byClass? : Option (List String)}
      (hworth : ∃ b ∈ row, b.isWorthVisiting = true)
      (hnone : ∀ b ∈ row, b.isWorthVisiting = true → b.full = false)
      (htargets : ∀ s, s ∈ targets ↔ ∃ b ∈ row, b.isWorthVisiting = true ∧ b.shape = s) :
      Sums row ⟨.aligned, some targets, byClass?⟩
  | rejected (hnone : ∀ b ∈ row, b.isWorthVisiting = false) : Sums row rejected

variable {row : List Bindings}

/-! ### The verdict on a row, list by list -/

/-- The names of a list, if it has any. -/
def ifAny (names : List String) : Option (List String) := if names = [] then none else some names

lemma ifAny_of_ne_nil {names : List String} (h : names ≠ []) : ifAny names = some names := if_neg h

/-- A list that may not have been started is one that has no names yet. -/
lemma listed_ifAny (names : List String) (name : String) :
    listed (ifAny names) name = some (pushNew names name) := by
  rw [listed, ifAny]
  split
  · rename_i h
    rw [h]
    rfl
  · rfl

/-- The verdict on a star that the shapes in `full` bind in full and those in `touching` at least
in part, where a class triple speaks for those in `byClass`: full bindings are all that counts if
there are any, and they contain the star only in part if all are due to deciding shapes. -/
def ofShapes (deciding? : Option (List String)) (full touching byClass : List String) : Verdict :=
  if full ≠ [] then
    ⟨if deciding?.any fun deciding => full.all deciding.contains then .partlyContained
      else .contained, some full, none⟩
  else if touching ≠ [] then ⟨.aligned, some touching, ifAny byClass⟩
  else rejected

/-- The shapes of those bindings of a row that have a property, each once. -/
def shapesOf (P : Bindings → Bool) (row : List Bindings) : List String :=
  distinct ((row.filter P).map Bindings.shape)

lemma mem_shapesOf {P : Bindings → Bool} {s : String} :
    s ∈ shapesOf P row ↔ ∃ b ∈ row, P b = true ∧ b.shape = s := by
  simp [shapesOf, and_assoc]

lemma shapesOf_append_singleton (P : Bindings → Bool) (row : List Bindings) (b : Bindings) :
    shapesOf P (row ++ [b]) =
      if P b then pushNew (shapesOf P row) b.shape else shapesOf P row := by
  rw [shapesOf, List.filter_append, List.map_append]
  cases hP : P b with
  | false =>
      rw [List.filter_cons_of_neg (by simp [hP])]
      simp [shapesOf]
  | true =>
      rw [List.filter_cons_of_pos hP, List.filter_nil, List.map_singleton,
        distinct_append_singleton]
      rfl

/-- Bindings count once. -/
lemma shapesOf_distinct (P : Bindings → Bool) (row : List Bindings) :
    shapesOf P (distinct row) = shapesOf P row := by
  have hparts : ∀ row : List Bindings, (row.filter P).map Bindings.shape =
      row.flatMap fun b => if P b then [b.shape] else [] := by
    intro row
    induction row with
    | nil => rfl
    | cons b row ih => cases hP : P b <;> simp [hP, ih]
  rw [shapesOf, shapesOf, hparts, hparts, distinct_flatMap_distinct]

/-- One more shape joins the lists that it belongs to. -/
lemma add_ofShapes {full touching byClass : List String} (h : touching = [] → byClass = [])
    (b : Bindings) :
    (ofShapes none full touching byClass).add b =
      ofShapes none (if b.isWorthVisiting && b.full then pushNew full b.shape else full)
        (if b.isWorthVisiting then pushNew touching b.shape else touching)
        (if b.isWorthVisiting && b.byClass then pushNew byClass b.shape else byClass) := by
  have hpush : ∀ l : List String, pushNew l b.shape ≠ [] := fun l =>
    List.ne_nil_of_mem (mem_pushNew.mpr (Or.inr rfl))
  rw [add]
  cases hworth : b.isWorthVisiting with
  | false => simp
  | true =>
      cases hfull : b.full with
      | true =>
          by_cases hnone : full = []
          · by_cases htouching : touching = [] <;>
              simp [ofShapes, contain, rejected, hnone, htouching, pushNew]
          · simp [ofShapes, contain, listed, hpush, hnone]
      | false =>
          by_cases hnone : full = []
          · -- nothing counts yet but bindings in part
            have hrow : ofShapes none full touching byClass =
                ⟨if touching = [] then .rejected else .aligned, ifAny touching, ifAny byClass⟩ := by
              by_cases htouching : touching = []
              · simp [ofShapes, rejected, ifAny, hnone, htouching, h htouching]
              · simp [ofShapes, ifAny, hnone, htouching]
            have hresult : (if touching = [] then Result.rejected else .aligned) ≠ .contained := by
              split <;> simp
            rw [hrow, align, if_neg hresult, listed_ifAny, listed_ifAny]
            cases b.byClass <;> simp [ofShapes, ifAny_of_ne_nil, hpush, hnone]
          · simp [ofShapes, align, hnone]

/-- **The verdict on a row**: the shapes that bind the star in full or in part, in the order in
which they were tried. -/
theorem ofRow_eq_ofShapes (row : List Bindings) :
    ofRow row = ofShapes none (shapesOf (fun b => b.isWorthVisiting && b.full) row)
      (shapesOf Bindings.isWorthVisiting row)
      (shapesOf (fun b => b.isWorthVisiting && b.byClass) row) := by
  induction row using List.reverseRecOn with
  | nil => rfl
  | append_singleton row b ih =>
      have hpart : shapesOf Bindings.isWorthVisiting row = [] →
          shapesOf (fun b => b.isWorthVisiting && b.byClass) row = [] := by
        intro hnone
        refine List.eq_nil_iff_forall_not_mem.mpr fun s hs => ?_
        obtain ⟨c, hc, hP, hs⟩ := mem_shapesOf.mp hs
        rw [Bool.and_eq_true] at hP
        exact List.ne_nil_of_mem (mem_shapesOf.mpr ⟨c, hc, hP.1, hs⟩) hnone
      rw [ofRow, List.foldl_append, List.foldl_cons, List.foldl_nil, ← ofRow, ih,
        add_ofShapes hpart]
      simp only [shapesOf_append_singleton]

/-- Bindings that are repeated in a row have no part in the verdict. -/
lemma ofRow_distinct (row : List Bindings) : ofRow (distinct row) = ofRow row := by
  simp only [ofRow_eq_ofShapes, shapesOf_distinct]

/-- Some shape binds a star in full if it is contained. -/
lemma result_ofShapes_iff {full touching byClass : List String} :
    (ofShapes none full touching byClass).result = .contained ↔ full ≠ [] := by
  rw [ofShapes]
  split
  · rename_i hfull
    exact iff_of_true rfl hfull
  · rename_i hfull
    refine iff_of_false ?_ hfull
    split <;> simp [rejected]

/-- A star that is contained, possibly in part, is bound in full by some shape. -/
lemma full_ne_nil_of_result_ofShapes {deciding? : Option (List String)}
    {full touching byClass : List String}
    (h : (ofShapes deciding? full touching byClass).result = .contained ∨
      (ofShapes deciding? full touching byClass).result = .partlyContained) : full ≠ [] := by
  intro hnil
  rw [ofShapes, if_neg (not_not.mpr hnil)] at h
  split at h <;> simp [rejected] at h

/-- No shapes by themselves make a star depend on others. -/
lemma result_ofShapes_ne_dependent (deciding? : Option (List String))
    (full touching byClass : List String) :
    (ofShapes deciding? full touching byClass).result ≠ .dependent := by
  rw [ofShapes]
  split
  · dsimp only
    split <;> simp
  · split <;> simp [rejected]

/-- The targets of a star that does not depend on others are shapes that bind it. -/
lemma mem_of_targets?_ofShapes {deciding? : Option (List String)}
    {full touching byClass targets : List String} {s : String}
    (h : (ofShapes deciding? full touching byClass).targets? = some targets) (hs : s ∈ targets) :
    s ∈ full ∨ s ∈ touching := by
  rw [ofShapes] at h
  split at h
  · obtain rfl := Option.some.inj h
    exact Or.inl hs
  · split at h
    · obtain rfl := Option.some.inj h
      exact Or.inr hs
    · cases h

/-- Deciding shapes bear on the shapes that bind a star in full. -/
lemma restrict_ofShapes (deciding full touching byClass : List String) :
    (ofShapes none full touching byClass).restrict deciding =
      ofShapes (some deciding) full touching byClass := by
  rw [ofShapes, ofShapes]
  split
  · cases hall : full.all deciding.contains <;> simp [restrict, hall]
  · split <;> simp [restrict, rejected]

/-! ### What bindings add up to -/

/-- The verdict on a row is what its bindings add up to. -/
theorem sums_ofRow (row : List Bindings) : Sums row (ofRow row) := by
  have hnil : ∀ {P : Bindings → Bool}, shapesOf P row = [] → ∀ b ∈ row, P b = false := by
    intro P h b hb
    by_contra hP
    exact List.ne_nil_of_mem (mem_shapesOf.mpr ⟨b, hb, by simpa using hP, rfl⟩) h
  have hexists : ∀ {P : Bindings → Bool}, shapesOf P row ≠ [] → ∃ b ∈ row, P b = true := by
    intro P h
    obtain ⟨s, hs⟩ := List.exists_mem_of_ne_nil _ h
    obtain ⟨b, hb, hP, -⟩ := mem_shapesOf.mp hs
    exact ⟨b, hb, hP⟩
  rw [ofRow_eq_ofShapes, ofShapes]
  split
  · rename_i hfull
    refine .contained (by simpa using hexists hfull) fun s => ?_
    rw [mem_shapesOf]
    simp [and_assoc]
  · rename_i hfull
    rw [not_not] at hfull
    split
    · rename_i htouching
      refine .aligned (hexists htouching) (fun b hb hworth => ?_) fun s => mem_shapesOf
      simpa [hworth] using hnil hfull b hb
    · rename_i htouching
      exact .rejected (hnil (not_not.mp htouching))

/-- A row makes a star contained or aligned if some bindings bind a triple. -/
lemma result_ofRow_iff : ((ofRow row).result = .contained ∨ (ofRow row).result = .aligned) ↔
    ∃ b ∈ row, b.isWorthVisiting = true := by
  have hsums := sums_ofRow row
  generalize ofRow row = v at hsums
  cases hsums with
  | contained hfull _ =>
      obtain ⟨b, hb, hworth, -⟩ := hfull
      exact iff_of_true (Or.inl rfl) ⟨b, hb, hworth⟩
  | aligned hworth _ _ => exact iff_of_true (Or.inr rfl) hworth
  | rejected hnone =>
      refine iff_of_false (by simp [rejected]) ?_
      rintro ⟨b, hb, hworth⟩
      rw [hnone b hb] at hworth
      cases hworth

end Verdict

namespace Problem

variable {p : Problem}

/-! ### The verdicts on the rows -/

lemma toList_rowVerdicts (p : Problem) :
    (rowVerdicts p.table).toList = p.table.map fun x => (x.1, Verdict.ofRow x.2) := by
  refine Keyed.toList_ofList ?_
  rw [List.map_map]
  exact (map_fst_table p).symm ▸ p.query.nodup_names

/-- A star counts by itself if some shape binds a triple of it. -/
lemma isReady_iff {n : String} : isReady (rowVerdicts p.table) n = true ↔
    ∃ row b, (n, row) ∈ p.table ∧ b ∈ row ∧ b.isWorthVisiting = true := by
  have hfind : ∀ v, (rowVerdicts p.table).find? n = some v ↔
      ∃ row, (n, row) ∈ p.table ∧ Verdict.ofRow row = v := by
    intro v
    rw [Dict.find?, Option.map_eq_some_iff]
    simp only [Keyed.get?_eq_some_iff, toList_rowVerdicts, List.mem_map]
    constructor
    · rintro ⟨_, ⟨⟨⟨k, row⟩, hmem, rfl⟩, rfl⟩, rfl⟩
      exact ⟨row, hmem, rfl⟩
    · rintro ⟨row, hmem, rfl⟩
      exact ⟨_, ⟨⟨(n, row), hmem, rfl⟩, rfl⟩, rfl⟩
  rw [isReady, Option.any_eq_true]
  simp only [hfind, Bool.or_eq_true, decide_eq_true_eq]
  constructor
  · rintro ⟨_, ⟨row, hmem, rfl⟩, hres⟩
    obtain ⟨b, hb, hworth⟩ := Verdict.result_ofRow_iff.mp hres
    exact ⟨row, b, hmem, hb, hworth⟩
  · rintro ⟨row, b, hmem, hb, hworth⟩
    exact ⟨_, ⟨row, hmem, rfl⟩, Verdict.result_ofRow_iff.mpr ⟨b, hb, hworth⟩⟩

/-! ### The verdicts of the solution -/

/-- The verdict on a row once other stars may explain it. -/
def explained (p : Problem) (n : String) (row : List Bindings) : Verdict :=
  explain (dependencies p.table) (rowVerdicts p.table) n (Verdict.ofRow row)

/-- What is reported about the star of a row. -/
def reported (p : Problem) (n : String) (row : List Bindings) : Containment where
  verdict := match p.deciding? with
    | some deciding => (p.explained n row).restrict deciding
    | none => p.explained n row
  bindings := .ofList (row.map fun b => (b.shape, b))

/-- Each row is reported. -/
lemma containments_eq (p : Problem) :
    p.solve.containments = p.table.map fun x => (x.1, p.reported x.1 x.2) := by
  have hnodup : (p.table.map Prod.fst).Nodup := (map_fst_table p).symm ▸ p.query.nodup_names
  rw [solve, verdicts]
  dsimp only
  rw [toList_rowVerdicts, List.map_map, List.map_map]
  refine List.map_congr_left fun x hx => ?_
  have hfind : p.table.find? (fun y => y.1 = x.1) = some x :=
    (Keyed.find?_eq_some_iff hnodup).mpr ⟨hx, rfl⟩
  simp only [Function.comp_apply, hfind]
  rfl

lemma mem_containments {n : String} {c : Containment} :
    (n, c) ∈ p.solve.containments ↔ ∃ row, (n, row) ∈ p.table ∧ c = p.reported n row := by
  rw [containments_eq, List.mem_map]
  constructor
  · rintro ⟨⟨k, row⟩, hmem, he⟩
    obtain ⟨rfl, rfl⟩ := Prod.mk.inj he
    exact ⟨row, hmem, rfl⟩
  · rintro ⟨row, hmem, rfl⟩
    exact ⟨(n, row), hmem, rfl⟩

/-- What is reported about a star is the verdict on its row, where deciding
shapes turn containment into partial containment. -/
lemma mem_containments_iff {n : String} {v : Verdict} :
    (∃ c, (n, c) ∈ p.solve.containments ∧ c.verdict = v) ↔ ∃ row, (n, row) ∈ p.table ∧
      v = match p.deciding? with
        | some deciding => (p.explained n row).restrict deciding
        | none => p.explained n row := by
  constructor
  · rintro ⟨c, hc, rfl⟩
    obtain ⟨row, hmem, rfl⟩ := mem_containments.mp hc
    exact ⟨row, hmem, rfl⟩
  · rintro ⟨row, hmem, rfl⟩
    exact ⟨p.reported n row, mem_containments.mpr ⟨row, hmem, rfl⟩, rfl⟩

/-- Without deciding shapes, what is reported about a star is the verdict on its
row. -/
lemma mem_containments_of_not_deciding (hd : p.deciding? = none) {n : String} {v : Verdict} :
    (∃ c, (n, c) ∈ p.solve.containments ∧ c.verdict = v) ↔
      ∃ row, (n, row) ∈ p.table ∧ v = p.explained n row := by
  rw [mem_containments_iff, hd]

/-- A verdict stays with its row, or else the star depends on others. -/
lemma explained_cases (p : Problem) (n : String) (row : List Bindings) :
    p.explained n row = Verdict.ofRow row ∧ ((Verdict.ofRow row).result = .contained ∨
        groundedTargets (dependencies p.table) (isReady (rowVerdicts p.table))
          (dependencyStars (dependencies p.table)) n = []) ∨
      (Verdict.ofRow row).result ≠ .contained ∧ ∃ targets,
        groundedTargets (dependencies p.table) (isReady (rowVerdicts p.table))
          (dependencyStars (dependencies p.table)) n = targets ∧ targets ≠ [] ∧
            p.explained n row = .depend targets := by
  rw [explained, explain]
  split
  · rename_i hres
    exact Or.inl ⟨rfl, Or.inl hres⟩
  · rename_i hres
    split
    · rename_i hnil
      exact Or.inl ⟨rfl, Or.inr hnil⟩
    · rename_i hne
      exact Or.inr ⟨hres, _, rfl, hne, rfl⟩

end Problem

end StarShapes
