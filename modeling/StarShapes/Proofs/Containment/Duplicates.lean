import StarShapes.Proofs.Containment.Classification

/-!
Duplicates: of several shapes of one name the first counts, throughout.

* `unseen`: the shapes of a list that are the first of their names, where some names are taken
  (`map_name_unseen_append`). They make up the same scene (`firstByName_unseen`).
* `snd_bindRow_unseen`, `distinct_fst_bindRow_unseen`: a star matched against these shapes alone
  leaves the same memory behind and finds the same bindings, each once. What goes by a name that
  came up before is answered from memory.
* `Problem.condense`: a table with the bindings of each row once. Verdicts, dependencies and visits
  can be read off it.
* `solve_withoutDuplicates`: a problem is solved as if there were no further shapes of a name.
-/

namespace StarShapes

/-! ### First shapes -/

/-- The shapes whose names are neither among those seen nor those of shapes before. -/
def unseen (seen : List String) : List Shape → List Shape
  | [] => []
  | s :: shapes =>
    if s.name ∈ seen then unseen seen shapes else s :: unseen (seen ++ [s.name]) shapes

/-- The names of first shapes are the names that are new. -/
lemma append_map_name_unseen (seen : List String) (shapes : List Shape) :
    seen ++ (unseen seen shapes).map Shape.name = pushAllNew seen (shapes.map Shape.name) := by
  induction shapes generalizing seen with
  | nil => simp [unseen, pushAllNew]
  | cons s shapes ih =>
      rw [List.map_cons, pushAllNew, List.foldl_cons, unseen]
      by_cases hs : s.name ∈ seen
      · rw [if_pos hs, pushNew_of_mem hs]
        exact ih seen
      · have hrest := ih (seen ++ [s.name])
        rw [if_neg hs, pushNew_of_notMem hs, List.map_cons, ← pushAllNew, ← hrest,
          List.append_assoc]
        rfl

lemma map_name_unseen (shapes : List Shape) :
    (unseen [] shapes).map Shape.name = distinct (shapes.map Shape.name) :=
  append_map_name_unseen [] shapes

/-- It matters which names are seen, not in which order or how often. -/
lemma unseen_congr {seen seen' : List String} (h : ∀ n, n ∈ seen ↔ n ∈ seen')
    (shapes : List Shape) : unseen seen shapes = unseen seen' shapes := by
  induction shapes generalizing seen seen' with
  | nil => rfl
  | cons s shapes ih =>
      have hnext : ∀ n, n ∈ seen ++ [s.name] ↔ n ∈ seen' ++ [s.name] := by
        intro n
        rw [List.mem_append, List.mem_append, h]
      simp only [unseen, h, ih h, ih hnext]

/-- The first shapes of two lists, where those of the one are seen before those of the other, have
each name once. -/
lemma map_name_unseen_append (shapes dependent : List Shape) :
    (unseen [] shapes ++ unseen (shapes.map Shape.name) dependent).map Shape.name =
      distinct ((shapes ++ dependent).map Shape.name) := by
  have hseen : unseen (shapes.map Shape.name) dependent =
      unseen (distinct (shapes.map Shape.name)) dependent :=
    unseen_congr (fun _ => mem_distinct.symm) dependent
  rw [List.map_append, map_name_unseen, hseen, append_map_name_unseen, ← distinct_append,
    ← List.map_append]

lemma unseen_eq_nil_iff {shapes : List Shape} : unseen [] shapes = [] ↔ shapes = [] := by
  cases shapes with
  | nil => exact iff_of_true rfl rfl
  | cons s shapes => exact iff_of_false (List.cons_ne_nil _ _) (List.cons_ne_nil _ _)

/-- Shapes of names that are there are passed over. -/
lemma foldl_firstByName_unseen {seen : List String} (shapes : List Shape) {m : Keyed Shape.name}
    (h : ∀ n ∈ seen, n ∈ m.keys) :
    (unseen seen shapes).foldl (fun m s => if m.contains s.name then m else m.insert s) m =
      shapes.foldl (fun m s => if m.contains s.name then m else m.insert s) m := by
  induction shapes generalizing seen m with
  | nil => rfl
  | cons s shapes ih =>
      rw [unseen, List.foldl_cons]
      by_cases hs : s.name ∈ seen
      · rw [if_pos hs, if_pos (Keyed.contains_iff_mem.mpr (h _ hs)), ih h]
      · rw [if_neg hs, List.foldl_cons, ih]
        intro n hn
        have hn : n ∈ seen ∨ n = s.name := by simpa using hn
        split
        · rename_i hcontains
          rcases hn with hn | rfl
          · exact h n hn
          · exact Keyed.contains_iff_mem.mp hcontains
        · rw [Keyed.keys_insert]
          exact mem_pushNew.mpr (hn.imp_left (h n))

/-- First shapes make up the same scene. -/
lemma firstByName_unseen (shapes dependent : List Shape) :
    firstByName (unseen [] shapes ++ unseen (shapes.map Shape.name) dependent) =
      firstByName (shapes ++ dependent) := by
  have hkeys : ∀ n ∈ shapes.map Shape.name, n ∈ (firstByName shapes).keys := by
    intro n hn
    by_contra hnot
    rw [← Keyed.get?_eq_none_iff, get?_firstByName, List.find?_eq_none] at hnot
    obtain ⟨s, hs, rfl⟩ := List.mem_map.mp hn
    exact hnot s hs (by simp)
  rw [firstByName, List.foldl_append, foldl_firstByName_unseen shapes (by simp), firstByName,
    List.foldl_append]
  exact foldl_firstByName_unseen dependent hkeys

namespace Problem

/-! ### Rows -/

section

variable {scene : Scene} {n : String}

/-- A star is matched against further shapes of a name without trace. -/
lemma snd_bindRow_unseen (hn : n ∈ scene.query.names) {seen : List String} (shapes : List Shape)
    {m : Memory} (hm : m.Labelled scene)
    (hseen : ∀ k ∈ seen, ∃ b, m.decided.find? ⟨k, n⟩ = some b) :
    (bindRow scene n (unseen seen shapes) m).2 = (bindRow scene n shapes m).2 := by
  induction shapes generalizing seen m with
  | nil => rfl
  | cons s shapes ih =>
      rw [unseen, bindRow]
      -- a name that was seen is decided for this star, so the call is a mere look-up
      by_cases hs : s.name ∈ seen
      · obtain ⟨b, hb⟩ := hseen _ hs
        rw [if_pos hs, Memory.bind_of_find? hb]
        exact ih hm hseen
      · obtain ⟨hgrows, hlabelled, -⟩ := Scene.keeps_bind s n hm
        obtain ⟨b, hb⟩ := Memory.exists_bind s hn m
        rw [if_neg hs, bindRow]
        refine ih hlabelled fun k hk => ?_
        rcases List.mem_append.mp hk with hk | hk
        · obtain ⟨b', hb'⟩ := hseen k hk
          exact ⟨b', hgrows.kept _ _ hb'⟩
        · rw [List.mem_singleton.mp hk]
          exact ⟨b, Memory.find?_bind hb⟩

/-- Matched against first shapes alone, a star has the same bindings, each once. -/
lemma distinct_fst_bindRow_unseen (hn : n ∈ scene.query.names) (shapes : List Shape) {m : Memory}
    (hm : m.Labelled scene) : distinct (bindRow scene n (unseen [] shapes) m).1 =
      distinct (bindRow scene n shapes m).1 := by
  rw [fst_bindRow_eq _ hm, fst_bindRow_eq _ hm, snd_bindRow_unseen hn shapes hm (by simp),
    map_name_unseen, List.filterMap_eq_flatMap_toList, List.filterMap_eq_flatMap_toList,
    distinct_flatMap_distinct]

end

/-! ### Tables -/

/-- The table with the bindings of each row once. -/
def condense (table : List (String × List Bindings)) : List (String × List Bindings) :=
  table.map fun x => (x.1, distinct x.2)

/-- Matched against first shapes alone, the stars have the same bindings, each once. -/
lemma condense_bindRows_unseen {scene : Scene} (shapes : List Shape) {names : List String}
    (hnames : ∀ n ∈ names, n ∈ scene.query.names) {m : Memory} (hm : m.Labelled scene) :
    condense (bindRows scene (unseen [] shapes) names m) =
      condense (bindRows scene shapes names m) := by
  induction names generalizing m with
  | nil => rfl
  | cons n names ih =>
      have hn := hnames n List.mem_cons_self
      have hrest := ih (fun k hk => hnames k (List.mem_cons_of_mem _ hk))
        (labelled_bindRow n shapes hm)
      rw [bindRows, bindRows]
      dsimp only
      rw [snd_bindRow_unseen hn shapes hm (by simp), condense, condense, List.map_cons,
        List.map_cons, distinct_fst_bindRow_unseen hn shapes hm]
      exact congrArg _ hrest

section

variable (table : List (String × List Bindings))

/-- A condensed table has the same bindings. -/
lemma distinct_entries_condense :
    distinct (entries (condense table)) = distinct (entries table) := by
  rw [entries, entries, condense, List.flatMap_map]
  exact distinct_flatMap_congr fun x _ => pushAllNew_distinct [] x.2

/-- What bindings give can be read off a condensed table. -/
lemma distinct_flatMap_entries_condense {α : Type} [DecidableEq α] (f : Bindings → List α) :
    distinct ((entries (condense table)).flatMap f) = distinct ((entries table).flatMap f) := by
  rw [← distinct_flatMap_distinct, distinct_entries_condense, distinct_flatMap_distinct]

lemma dependencies_condense : dependencies (condense table) = dependencies table :=
  distinct_flatMap_entries_condense table Bindings.dependencies

lemma rowVerdicts_condense : rowVerdicts (condense table) = rowVerdicts table := by
  rw [rowVerdicts, condense, List.map_map]
  simp only [Function.comp_def, Verdict.ofRow_distinct]
  rfl

lemma visits_condense (shapes : List Shape) :
    visits shapes (condense table) = visits shapes table := by
  have hmem : ∀ b, b ∈ (entries (condense table)).filter Bindings.isWorthVisiting ↔
      b ∈ (entries table).filter Bindings.isWorthVisiting := by
    intro b
    rw [List.mem_filter, List.mem_filter, ← mem_distinct, distinct_entries_condense, mem_distinct]
  have hshapes : Verdict.shapesOf Bindings.isWorthVisiting (entries (condense table)) =
      Verdict.shapesOf Bindings.isWorthVisiting (entries table) := by
    rw [← Verdict.shapesOf_distinct, distinct_entries_condense, Verdict.shapesOf_distinct]
  refine Dict.ext_find? ?_ fun k => ?_
  · rw [visits, visits, Dict.keys_foldl_set, Dict.keys_foldl_set, ← pushAllNew_distinct,
      ← Verdict.shapesOf, hshapes, Verdict.shapesOf, pushAllNew_distinct]
  · rw [visits, visits, Dict.find?_foldl_set, Dict.find?_foldl_set]
    simp only [hmem]

/-- First shapes have the same flags. -/
lemma visits_unseen (shapes : List Shape) :
    visits (unseen [] shapes) table = visits shapes table := by
  have hstart : ∀ shapes : List Shape,
      (Keyed.ofList (shapes.map fun s => (s.name, false)) : Dict String Bool).toList =
        (distinct (shapes.map Shape.name)).map fun n => (n, false) := by
    intro shapes
    have hinj : Function.Injective fun n : String => (n, false) := fun n n' he =>
      congrArg Prod.fst he
    rw [map_distinct hinj.injOn, List.map_map, Keyed.toList_ofList_eq_distinct]
    · rfl
    · rintro x hx y hy he
      obtain ⟨s, -, rfl⟩ := List.mem_map.mp hx
      obtain ⟨s', -, rfl⟩ := List.mem_map.mp hy
      exact congrArg (·, false) he
  have hflags : (Keyed.ofList ((unseen [] shapes).map fun s => (s.name, false)) :
      Dict String Bool) = .ofList (shapes.map fun s => (s.name, false)) := by
    apply Keyed.ext
    rw [hstart, hstart, map_name_unseen, distinct_of_nodup (nodup_distinct _)]
  rw [visits, hflags, ← visits]

end

/-! ### Solutions -/

/-- The problem without the shapes whose names came up before, in the shapes or else in the
dependent shapes. -/
def withoutDuplicates (p : Problem) : Problem :=
  { p with
    shapes := unseen [] p.shapes
    dependent := unseen (p.shapes.map Shape.name) p.dependent }

variable (p : Problem)

lemma scene_withoutDuplicates : p.withoutDuplicates.scene = p.scene := by
  rw [scene, scene, withoutDuplicates, firstByName_unseen]

lemma condense_table_withoutDuplicates :
    condense p.withoutDuplicates.table = condense p.table := by
  rw [table, scene_withoutDuplicates]
  exact condense_bindRows_unseen p.shapes (fun _ hn => hn) Memory.labelled_empty

variable {p}

/-- Bindings that are repeated in a row are reported once. -/
lemma reported_distinct {n : String} {row : List Bindings} (h : (n, row) ∈ p.table) :
    p.reported n (distinct row) = p.reported n row := by
  have hverdict : p.explained n (distinct row) = p.explained n row := by
    rw [explained, explained, Verdict.ofRow_distinct]
  -- later items override, which has no effect as bindings of one shape are the same
  have hshapes : ((distinct row).map Bindings.shape).Nodup := by
    refine (nodup_distinct row).map_on fun b hb b' hb' he => ?_
    exact injOn_shape h (mem_distinct.mp hb) (mem_distinct.mp hb') he
  have hbindings : (Keyed.ofList ((distinct row).map fun b => (b.shape, b)) :
      Dict String Bindings) = .ofList (row.map fun b => (b.shape, b)) := by
    apply Keyed.ext
    refine Eq.trans (Keyed.toList_ofList ?_) (toList_reported h).symm
    rwa [List.map_map]
  rw [reported, hverdict, hbindings, ← reported]

variable (p)

/-- What is reported about stars can be read off a condensed table. -/
lemma containments_eq_condense :
    p.solve.containments = (condense p.table).map fun x => (x.1, p.reported x.1 x.2) := by
  rw [containments_eq, condense, List.map_map]
  exact List.map_congr_left fun x hx => congrArg (Prod.mk x.1) (reported_distinct hx).symm

/-- What is reported about a row depends on a condensed table alone. -/
lemma reported_withoutDuplicates : p.withoutDuplicates.reported = p.reported := by
  have htable := condense_table_withoutDuplicates p
  have hdependencies : dependencies p.withoutDuplicates.table = dependencies p.table := by
    rw [← dependencies_condense, htable, dependencies_condense]
  have hverdicts : rowVerdicts p.withoutDuplicates.table = rowVerdicts p.table := by
    rw [← rowVerdicts_condense, htable, rowVerdicts_condense]
  funext n row
  rw [reported, reported, explained, explained, hdependencies, hverdicts]
  rfl

/-- **Of several shapes of one name the first counts.** Without the shapes whose names came up
before, whatever these ask for, a problem has one shape of each name and the same solution. -/
theorem solve_withoutDuplicates (p : Problem) :
    (p.withoutDuplicates.shapes ++ p.withoutDuplicates.dependent).map Shape.name =
        distinct ((p.shapes ++ p.dependent).map Shape.name) ∧
      p.withoutDuplicates.solve = p.solve := by
  refine ⟨map_name_unseen_append p.shapes p.dependent, ?_⟩
  have htable := condense_table_withoutDuplicates p
  have hcontainments : p.withoutDuplicates.solve.containments = p.solve.containments := by
    rw [containments_eq_condense, containments_eq_condense, htable, reported_withoutDuplicates]
  have hvisits : p.withoutDuplicates.solve.visits = p.solve.visits :=
    calc visits (unseen [] p.shapes) p.withoutDuplicates.table
      _ = visits p.shapes p.withoutDuplicates.table := visits_unseen _ _
      _ = visits p.shapes p.table := by rw [← visits_condense, htable, visits_condense]
  have hunresolved : p.withoutDuplicates.solve.unresolved = p.solve.unresolved :=
    calc distinct ((entries p.withoutDuplicates.table).flatMap Bindings.unresolved)
      _ = distinct ((entries p.table).flatMap Bindings.unresolved) := by
          rw [← distinct_flatMap_entries_condense, htable, distinct_flatMap_entries_condense]
  have hlinks : p.withoutDuplicates.solve.links = p.solve.links := by
    have hempty : (unseen [] p.shapes).isEmpty = p.shapes.isEmpty := by
      rw [Bool.eq_iff_iff, List.isEmpty_iff, List.isEmpty_iff, unseen_eq_nil_iff]
    calc (if (unseen [] p.shapes).isEmpty then []
          else conditionalLinks p.query (consumed p.withoutDuplicates.solve.containments))
      _ = if p.shapes.isEmpty then []
          else conditionalLinks p.query (consumed p.solve.containments) := by
        rw [hempty, hcontainments]
  calc p.withoutDuplicates.solve
    _ = ⟨p.withoutDuplicates.solve.containments, p.withoutDuplicates.solve.visits,
          p.withoutDuplicates.solve.links, p.withoutDuplicates.solve.unresolved⟩ := rfl
    _ = p.solve := by rw [hcontainments, hvisits, hlinks, hunresolved]

end Problem

end StarShapes
