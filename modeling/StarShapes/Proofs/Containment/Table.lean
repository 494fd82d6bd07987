import Mathlib.Data.List.Nodup
import StarShapes.Containment.Solution
import StarShapes.Proofs.Binding.Run
import StarShapes.Proofs.Collection.Matching

/-!
Tables: what the bindings of a problem are, row by row.

* `Problem.own?`: the shape that a name stands for in a problem.
* `Problem.tasks`: a star against each of the shapes that stars are classified
  against.
* `rows_table`: the table of a problem has a row for each star and in it
  bindings for each shape, which can be found without assumption.
* `Problem.Tabulates`: a table holds what can be found for some tasks, and
  something for each of them.
-/

namespace StarShapes

/-! ### Shapes by name -/

/-- Of several shapes of one name the first counts. -/
lemma get?_firstByName (shapes : List Shape) (name : String) :
    (firstByName shapes).get? name = shapes.find? fun s => s.name = name := by
  have key : ∀ m : Keyed Shape.name,
      (shapes.foldl (fun m s => if m.contains s.name then m else m.insert s) m).get? name =
        (m.get? name).or (shapes.find? fun s => s.name = name) := by
    induction shapes with
    | nil => simp
    | cons s shapes ih =>
        intro m
        rw [List.foldl_cons, ih, List.find?_cons]
        by_cases hm : s.name ∈ m.keys
        · rw [if_pos (Keyed.contains_iff_mem.mpr hm)]
          by_cases hs : s.name = name
          · obtain ⟨s', hs'⟩ := Option.ne_none_iff_exists'.mp fun he =>
              Keyed.get?_eq_none_iff.mp he (hs ▸ hm)
            rw [hs']
            rfl
          · simp [hs]
        · rw [if_neg (by simpa using hm), Keyed.get?_insert]
          by_cases hs : s.name = name
          · rw [if_pos hs, Keyed.get?_eq_none_iff.mpr (hs ▸ hm)]
            simp [hs]
          · simp [hs]
  exact key .empty

namespace Problem

variable {p : Problem}

/-- The shape that a name stands for. -/
def own? (p : Problem) (name : String) : Option Shape :=
  (p.shapes ++ p.dependent).find? fun s => s.name = name

lemma get?_scene (p : Problem) (name : String) : p.scene.shapes.get? name = p.own? name :=
  get?_firstByName _ name

/-- A name stands for a shape that the problem has. -/
lemma mem_of_own? {name : String} {s : Shape} (h : p.own? name = some s) :
    s ∈ p.shapes ++ p.dependent ∧ s.name = name :=
  ⟨List.mem_of_find?_eq_some h, by simpa using List.find?_some h⟩

/-- A name of one of the shapes stands for one of them. -/
lemma own?_of_mem {s : Shape} (hs : s ∈ p.shapes) :
    ∃ own ∈ p.shapes, p.own? s.name = some own := by
  rw [own?, List.find?_append]
  cases hf : p.shapes.find? fun t => t.name = s.name with
  | none => simpa using List.find?_eq_none.mp hf s hs
  | some own => exact ⟨own, List.mem_of_find?_eq_some hf, rfl⟩

/-- The stars of the query against each of the shapes that they are classified
against. -/
def tasks (p : Problem) : Set Task :=
  {t | t.shape ∈ p.shapes ∧ p.own? t.shape.name = some t.shape ∧ t.star ∈ p.query.names}

/-! ### Rows and table -/

/-- Bindings of a star against the shape that a name stands for. -/
def Entry (p : Problem) (n : String) (s : Shape) (b : Bindings) : Prop :=
  ∃ own, p.own? s.name = some own ∧ p.scene.Finds p.tasks ∅ ⟨own, n⟩ b

/-- The memory holds only what can be found for the shapes of the problem. -/
def MemorySound (p : Problem) (m : Memory) : Prop :=
  m.Sound p.scene p.tasks {s | s ∈ p.scene.shapes.toList}

lemma MemorySound.entry {m : Memory} (hm : p.MemorySound m) {s own : Shape}
    (hown : p.own? s.name = some own) {n : String} {b : Bindings}
    (hb : m.decided.find? ⟨s.name, n⟩ = some b) : p.Entry n s b := by
  rw [← get?_scene] at hown
  refine ⟨own, (get?_scene p _).symm.trans hown, hm ⟨own, n⟩ (Keyed.mem_of_get? hown) b ?_⟩
  rw [Task.goal, Keyed.key_of_get? hown]
  exact hb

/-- One call on the way through a row: the memory has bindings for the names of
the shapes before, or else the shape is the first of its name. -/
lemma entry_bind {m : Memory} (hm : p.MemorySound m) {n : String} (hn : n ∈ p.query.names)
    {before after : List Shape} {s : Shape} (hshapes : p.shapes = before ++ s :: after)
    (hbefore : ∀ s' ∈ before, ∃ b, m.decided.find? ⟨s'.name, n⟩ = some b) :
    p.MemorySound (m.bind p.scene s n).2 ∧ m.Grows (m.bind p.scene s n).2 ∧
      ∃ b, (m.bind p.scene s n).1 = some b ∧ p.Entry n s b ∧
        (m.bind p.scene s n).2.decided.find? ⟨s.name, n⟩ = some b := by
  have hs : s ∈ p.shapes := hshapes ▸ List.mem_append_right _ List.mem_cons_self
  by_cases hdup : ∃ s' ∈ before, s'.name = s.name
  · obtain ⟨s', hs', he⟩ := hdup
    obtain ⟨b, hb⟩ := hbefore s' hs'
    rw [he] at hb
    obtain ⟨own, -, hown⟩ := own?_of_mem hs
    rw [Memory.bind_of_find? hb]
    exact ⟨hm, .refl m, b, rfl, hm.entry hown hb, hb⟩
  · have hown : p.own? s.name = some s := by
      rw [own?, hshapes, List.append_assoc, List.find?_append, List.find?_eq_none.mpr]
      · simp
      · exact fun s' hs' => by simpa using fun he => hdup ⟨s', hs', he⟩
    have hmem : s ∈ p.scene.shapes.toList := Keyed.mem_of_get? ((get?_scene p _).trans hown)
    have htask : (⟨s, n⟩ : Task) ∈ p.tasks := ⟨hs, hown, hn⟩
    obtain ⟨hsound, hgrows, hfinds, hsome⟩ := Scene.finds_bind p.scene.shapes.injOn
      (fun _ _ h => Keyed.mem_of_get? h) htask hmem hm
    obtain ⟨b, hb⟩ := hsome hn
    exact ⟨hsound, hgrows, b, hb, ⟨s, hown, hfinds b hb⟩, Memory.find?_bind hb⟩

/-- A row has bindings for each of its shapes. -/
lemma entries_bindRow {m : Memory} (hm : p.MemorySound m) {n : String} (hn : n ∈ p.query.names)
    (before : List Shape) {after : List Shape} (hshapes : p.shapes = before ++ after)
    (hbefore : ∀ s ∈ before, ∃ b, m.decided.find? ⟨s.name, n⟩ = some b) :
    p.MemorySound (bindRow p.scene n after m).2 ∧
      List.Forall₂ (p.Entry n) after (bindRow p.scene n after m).1 := by
  induction after generalizing before m with
  | nil => exact ⟨hm, .nil⟩
  | cons s after ih =>
      obtain ⟨hsound, hgrows, b, hb, hentry, hstored⟩ := entry_bind hm hn hshapes hbefore
      have hrest := ih hsound (before ++ [s]) (by simpa using hshapes) fun s' hs' => by
        rcases List.mem_append.mp hs' with hs' | hs'
        · obtain ⟨b', hb'⟩ := hbefore s' hs'
          exact ⟨b', hgrows.kept _ _ hb'⟩
        · rw [List.mem_singleton.mp hs']
          exact ⟨b, hstored⟩
      rw [bindRow]
      dsimp only
      rw [hb]
      exact ⟨hrest.1, .cons hentry hrest.2⟩

/-- A row of the table: the star, and bindings for each shape. -/
def Row (p : Problem) (n : String) (x : String × List Bindings) : Prop :=
  x.1 = n ∧ List.Forall₂ (p.Entry n) p.shapes x.2

lemma rows_bindRows {m : Memory} (hm : p.MemorySound m) {names : List String}
    (hnames : ∀ n ∈ names, n ∈ p.query.names) :
    List.Forall₂ p.Row names (bindRows p.scene p.shapes names m) := by
  induction names generalizing m with
  | nil => exact .nil
  | cons n names ih =>
      obtain ⟨hsound, hrow⟩ := entries_bindRow hm (hnames n List.mem_cons_self) [] rfl
        (by simp)
      exact .cons ⟨rfl, hrow⟩ (ih hsound fun k hk => hnames k (List.mem_cons_of_mem _ hk))

/-- The table has a row for each star of the query, with bindings for each of
the shapes. -/
theorem rows_table (p : Problem) : List.Forall₂ p.Row p.query.names p.table :=
  rows_bindRows Memory.sound_empty fun _ h => h

/-! ### Looking into the table -/

lemma map_fst_table (p : Problem) : p.table.map Prod.fst = p.query.names := by
  have key : ∀ {names : List String} {rows : List (String × List Bindings)},
      List.Forall₂ p.Row names rows → rows.map Prod.fst = names := by
    intro names rows h
    induction h with
    | nil => rfl
    | cons hrow _ ih => rw [List.map_cons, hrow.1, ih]
  exact key (rows_table p)

/-- A row of the table belongs to a star of the query. -/
lemma mem_names_of_mem_table {n : String} {row : List Bindings} (h : (n, row) ∈ p.table) :
    n ∈ p.query.names :=
  (map_fst_table p) ▸ List.mem_map_of_mem h

/-- Every star of the query has a row. -/
lemma exists_row {n : String} (hn : n ∈ p.query.names) : ∃ row, (n, row) ∈ p.table := by
  rw [← map_fst_table p] at hn
  obtain ⟨⟨_, row⟩, hmem, rfl⟩ := List.mem_map.mp hn
  exact ⟨row, hmem⟩

/-- A star has one row. -/
lemma row_unique {n : String} {row row' : List Bindings} (h : (n, row) ∈ p.table)
    (h' : (n, row') ∈ p.table) : row = row' := by
  have hnodup : (p.table.map Prod.fst).Nodup := (map_fst_table p).symm ▸ p.query.nodup_names
  exact congrArg Prod.snd (List.inj_on_of_nodup_map hnodup h h' rfl)

/-- The table of a problem holds what can be found for a set of tasks of a scene,
and something for each of them. -/
structure Tabulates (p : Problem) (scene : Scene) (tasks : Set Task) : Prop where
  /-- Bindings in the table can be found for a task. -/
  found : ∀ n row b, (n, row) ∈ p.table → b ∈ row →
    ∃ t ∈ tasks, t.star = n ∧ scene.Finds tasks ∅ t b
  /-- For each task there are bindings in the table. -/
  complete : ∀ t ∈ tasks, ∃ row b, (t.star, row) ∈ p.table ∧ b ∈ row ∧
    scene.Finds tasks ∅ t b

/-- The table of a problem holds what can be found for its tasks. -/
theorem tabulates (p : Problem) : p.Tabulates p.scene p.tasks where
  found n row b hmem hb := by
    obtain ⟨k, hk, hkn, hrow⟩ := exists_of_forall₂_right (rows_table p) hmem
    obtain ⟨s, hs, own', hown', hfinds⟩ := exists_of_forall₂_right hrow hb
    obtain ⟨own, hmem', hown⟩ := own?_of_mem hs
    obtain rfl : own = own' := Option.some.inj (hown.symm.trans hown')
    refine ⟨⟨own, k⟩, ⟨hmem', ?_, hk⟩, hkn.symm, hfinds⟩
    rw [(mem_of_own? hown).2]
    exact hown
  complete := by
    rintro ⟨s, n⟩ ⟨hs, hown, hn⟩
    obtain ⟨⟨k, row⟩, hmem, hkn, hrow⟩ := exists_of_forall₂_left (rows_table p) hn
    obtain ⟨b, hb, own, hown', hfinds⟩ := exists_of_forall₂_left hrow hs
    obtain rfl : s = own := Option.some.inj (hown.symm.trans hown')
    exact ⟨row, b, hkn ▸ hmem, hb, hfinds⟩

end Problem

end StarShapes
