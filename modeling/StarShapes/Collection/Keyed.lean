/-!
Keyed lists: lists in insertion order of which no two items have the same key.

* `Keyed key`: the items, with the proof that their keys are distinct.
* `Keyed.insert`: an item with a new key goes to the end, an item with a key that is there
  already takes the place of the old one (`keys_insert`, `get?_insert`).
* `Keyed.map`: change the items and keep their keys (`keys_map`).
* `Dict κ ν`: the keyed lists of pairs, that is, the insertion-ordered dictionaries.
-/

namespace StarShapes

/-- A list of items, in insertion order, with pairwise distinct keys. -/
structure Keyed {α κ : Type} (key : α → κ) where
  /-- The items, the first inserted first. -/
  toList : List α
  /-- No key occurs twice. -/
  nodup : (toList.map key).Nodup

namespace Keyed

variable {α κ : Type} {key : α → κ}

@[ext]
theorem ext {m m' : Keyed key} (h : m.toList = m'.toList) : m = m' := by
  cases m; cases m'; cases h; rfl

instance [DecidableEq α] : DecidableEq (Keyed key) := fun m m' =>
  decidable_of_iff (m.toList = m'.toList) ⟨ext, fun h => h ▸ rfl⟩

/-- The keyed list without items. -/
def empty : Keyed key := ⟨[], by simp⟩

instance : Inhabited (Keyed key) := ⟨empty⟩

/-- The number of items. -/
def size (m : Keyed key) : Nat := m.toList.length

/-- Whether there is no item. -/
def isEmpty (m : Keyed key) : Bool := m.toList.isEmpty

/-- The keys, in the order of their items. -/
def keys (m : Keyed key) : List κ := m.toList.map key

@[simp]
theorem toList_empty : (empty : Keyed key).toList = [] := rfl

@[simp]
theorem keys_empty : (empty : Keyed key).keys = [] := rfl

theorem nodup_keys (m : Keyed key) : m.keys.Nodup := m.nodup

/-! ### Changing the items -/

/-- The same keyed list with every item changed by a function that keeps the keys. -/
def map (f : α → α) (h : ∀ x, key (f x) = key x) (m : Keyed key) : Keyed key where
  toList := m.toList.map f
  nodup := by simpa [Function.comp_def, h] using m.nodup

@[simp]
theorem toList_map (f : α → α) (h : ∀ x, key (f x) = key x) (m : Keyed key) :
    (m.map f h).toList = m.toList.map f := rfl

@[simp]
theorem keys_map (f : α → α) (h : ∀ x, key (f x) = key x) (m : Keyed key) :
    (m.map f h).keys = m.keys := by simp [keys, Function.comp_def, h]

/-! ### Look-up and insertion -/

variable [DecidableEq κ]

/-- The item with the given key. -/
def get? (m : Keyed key) (k : κ) : Option α := m.toList.find? (fun x => key x = k)

/-- Whether some item has the given key. -/
def contains (m : Keyed key) (k : κ) : Bool := m.keys.contains k

@[simp]
theorem contains_iff_mem {m : Keyed key} {k : κ} : m.contains k = true ↔ k ∈ m.keys := by
  simp [contains]

theorem mem_of_get? {m : Keyed key} {k : κ} {x : α} (h : m.get? k = some x) : x ∈ m.toList :=
  List.mem_of_find?_eq_some h

theorem key_of_get? {m : Keyed key} {k : κ} {x : α} (h : m.get? k = some x) : key x = k := by
  simpa using List.find?_some h

theorem mem_keys_of_get? {m : Keyed key} {k : κ} {x : α} (h : m.get? k = some x) :
    k ∈ m.keys :=
  List.mem_map.2 ⟨x, mem_of_get? h, key_of_get? h⟩

theorem get?_eq_none_iff {m : Keyed key} {k : κ} : m.get? k = none ↔ k ∉ m.keys := by
  simp [get?, keys]

/-- Put `x` where the item of its key stands, or at the end. -/
def insertInto (key : α → κ) (x : α) : List α → List α
  | [] => [x]
  | y :: ys => if key y = key x then x :: ys else y :: insertInto key x ys

/-- A key that is there stays where it is, a new key comes last. -/
theorem map_key_insertInto (x : α) (l : List α) :
    (insertInto key x l).map key =
      if key x ∈ l.map key then l.map key else l.map key ++ [key x] := by
  induction l with
  | nil => simp [insertInto]
  | cons y ys ih =>
    by_cases h : key y = key x
    · simp [insertInto, h]
    · have h' : key x ≠ key y := fun e => h e.symm
      by_cases hm : key x ∈ ys.map key <;> simp_all [insertInto]

theorem nodup_insertInto (x : α) {l : List α} (h : (l.map key).Nodup) :
    ((insertInto key x l).map key).Nodup := by
  rw [map_key_insertInto]
  split
  · exact h
  · rename_i hx
    rw [List.nodup_append]
    refine ⟨h, by simp, fun a ha b hb e => ?_⟩
    rw [List.mem_singleton] at hb
    exact hx (hb ▸ e ▸ ha)

/-- Add an item; one with the same key is replaced where it stands. -/
def insert (m : Keyed key) (x : α) : Keyed key where
  toList := insertInto key x m.toList
  nodup := nodup_insertInto x m.nodup

@[simp]
theorem toList_insert (m : Keyed key) (x : α) :
    (m.insert x).toList = insertInto key x m.toList := rfl

theorem keys_insert (m : Keyed key) (x : α) :
    (m.insert x).keys = if key x ∈ m.keys then m.keys else m.keys ++ [key x] :=
  map_key_insertInto x m.toList

/-- Among the items after an insertion are the new one and every old one of another key. -/
theorem mem_insertInto {x y : α} {l : List α} (h : (l.map key).Nodup) :
    y ∈ insertInto key x l ↔ y = x ∨ (y ∈ l ∧ key y ≠ key x) := by
  induction l with
  | nil => simp [insertInto]
  | cons z zs ih =>
    have hz : (zs.map key).Nodup := (List.nodup_cons.1 h).2
    have hn : key z ∉ zs.map key := (List.nodup_cons.1 h).1
    by_cases e : key z = key x
    · have : ∀ w, w ∈ zs → key w ≠ key x := fun w hw hwx =>
        hn (List.mem_map.2 ⟨w, hw, hwx.trans e.symm⟩)
      constructor
      · intro hy
        rcases List.mem_cons.1 (by simpa [insertInto, e] using hy) with rfl | hy
        · exact .inl rfl
        · exact .inr ⟨List.mem_cons_of_mem _ hy, this y hy⟩
      · rintro (rfl | ⟨hy, hne⟩)
        · simp [insertInto, e]
        · rcases List.mem_cons.1 hy with rfl | hy
          · exact absurd e hne
          · simp [insertInto, e, hy]
    · simp only [insertInto, e, if_false, List.mem_cons, ih hz]
      constructor
      · rintro (rfl | rfl | ⟨hy, hne⟩)
        · exact .inr ⟨.inl rfl, e⟩
        · exact .inl rfl
        · exact .inr ⟨.inr hy, hne⟩
      · rintro (rfl | ⟨rfl | hy, hne⟩)
        · exact .inr (.inl rfl)
        · exact .inl rfl
        · exact .inr (.inr ⟨hy, hne⟩)

theorem get?_insert (m : Keyed key) (x : α) (k : κ) :
    (m.insert x).get? k = if key x = k then some x else m.get? k := by
  show (insertInto key x m.toList).find? _ = if _ then _ else m.toList.find? _
  induction m.toList with
  | nil => simp [insertInto, List.find?]
  | cons y ys ih =>
    by_cases e : key y = key x
    · by_cases hk : key x = k <;> simp [insertInto, e, hk]
    · by_cases hk : key x = k
      · have : key y ≠ k := fun h => e (h.trans hk.symm)
        simp_all [insertInto]
      · by_cases hy : key y = k <;> simp_all [insertInto]

/-- Add the items of a list, one after the other. -/
def insertAll (m : Keyed key) (l : List α) : Keyed key := l.foldl insert m

/-- The keyed list of a list: of several items with one key the last stays, where the first was. -/
def ofList (l : List α) : Keyed key := insertAll empty l

/-- The items after an addition are old ones or added ones. -/
theorem mem_of_mem_insertAll {l : List α} {m : Keyed key} {x : α}
    (h : x ∈ (m.insertAll l).toList) : x ∈ m.toList ∨ x ∈ l := by
  induction l generalizing m with
  | nil => exact .inl h
  | cons y l ih =>
    rcases ih (m := m.insert y) h with h | h
    · rcases (mem_insertInto m.nodup).1 h with rfl | h
      · exact .inr List.mem_cons_self
      · exact .inl h.1
    · exact .inr (List.mem_cons_of_mem _ h)

/-- The items of a keyed list built from a list come from that list. -/
theorem mem_of_mem_ofList {l : List α} {x : α} (h : x ∈ (ofList l : Keyed key).toList) :
    x ∈ l :=
  (mem_of_mem_insertAll h).resolve_left List.not_mem_nil

end Keyed

/-- Insertion-ordered dictionaries. -/
abbrev Dict (κ ν : Type) : Type := Keyed (Prod.fst : κ × ν → κ)

namespace Dict

variable {κ ν : Type} [DecidableEq κ]

/-- The value at a key. -/
def find? (d : Dict κ ν) (k : κ) : Option ν := (d.get? k).map Prod.snd

/-- The values, in the order of their keys. -/
def values (d : Dict κ ν) : List ν := d.toList.map Prod.snd

/-- Set the value at a key. -/
def set (d : Dict κ ν) (k : κ) (v : ν) : Dict κ ν := d.insert (k, v)

theorem find?_set (d : Dict κ ν) (k k' : κ) (v : ν) :
    (d.set k v).find? k' = if k = k' then some v else d.find? k' := by
  unfold find? set
  rw [Keyed.get?_insert]
  split <;> simp_all

theorem keys_set (d : Dict κ ν) (k : κ) (v : ν) :
    (d.set k v).keys = if k ∈ d.keys then d.keys else d.keys ++ [k] :=
  Keyed.keys_insert d (k, v)

end Dict

end StarShapes
