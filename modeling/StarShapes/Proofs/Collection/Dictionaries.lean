import Mathlib.Data.Set.Function
import Mathlib.Tactic.Lemma
import StarShapes.Collection.Keyed

/-!
Keyed lists built from lists, and dictionaries some of whose keys have no value yet.

* `mem_foldl_iff`, `exists_of_mem_foldl`: what a fold puts on a list, where each step adds elements
  of its own.
* `Keyed.toList_ofList`: a list without repeated keys is kept as it is.
* `Keyed.get?_eq_some_iff`, `Keyed.injOn`: the item found at a key is the only one there, so the
  keys lead to the items in order (`Keyed.map_get?_keys`).
* `Dict.toList_eq_map`, `Dict.ext_find?`: a dictionary is known by its keys and the values at them.
* `Dict.filled`: the values that a dictionary has, where some keys have none yet; filling a key
  that has none adds one value (`Dict.filled_set_perm`, `Dict.filled_foldl_set_perm`).
-/

namespace StarShapes

/-! ### Lists built by a fold -/

/-- A list to which each step of a fold adds elements of its own. -/
lemma mem_foldl_iff {α β γ : Type} {f : β → α → β} {x : γ} {P : α → Prop}
    (part : β → List γ) (inv : β → Prop) (hinv : ∀ b a, inv b → inv (f b a))
    (hstep : ∀ b a, inv b → (x ∈ part (f b a) ↔ x ∈ part b ∨ P a)) (l : List α) {b : β}
    (hb : inv b) : x ∈ part (l.foldl f b) ↔ x ∈ part b ∨ ∃ a ∈ l, P a := by
  induction l generalizing b with
  | nil => simp
  | cons a l ih =>
      rw [List.foldl_cons, ih (hinv b a hb), hstep b a hb, or_assoc]
      simp

/-- What is on a list after a fold was there before, or some step has put it there. -/
lemma exists_of_mem_foldl {α β γ : Type} {f : β → α → β} {x : γ} {P : α → Prop}
    (part : β → List γ) (hstep : ∀ b a, x ∈ part (f b a) → x ∈ part b ∨ P a) {l : List α} {b : β}
    (h : x ∈ part (l.foldl f b)) : x ∈ part b ∨ ∃ a ∈ l, P a := by
  induction l generalizing b with
  | nil => exact Or.inl h
  | cons a l ih =>
      rcases ih h with hfirst | ⟨a', ha', hP⟩
      · exact (hstep b a hfirst).imp_right fun hP => ⟨a, List.mem_cons_self, hP⟩
      · exact Or.inr ⟨a', List.mem_cons_of_mem _ ha', hP⟩

/-! ### Keyed lists of lists -/

namespace Keyed

variable {α κ : Type} {key : α → κ} [DecidableEq κ]

/-- An item with a new key goes to the end. -/
lemma insertInto_of_notMem {x : α} {l : List α} (h : key x ∉ l.map key) :
    insertInto key x l = l ++ [x] := by
  induction l with
  | nil => rfl
  | cons y ys ih =>
      have hy : key y ≠ key x := fun e => h (by simp [e])
      have hys : key x ∉ ys.map key := fun hm => h (List.mem_cons_of_mem _ hm)
      rw [insertInto, if_neg hy, ih hys]
      rfl

/-- Items whose keys are new and distinct are added at the end, in order. -/
lemma toList_insertAll {m : Keyed key} {l : List α}
    (h : ((m.toList ++ l).map key).Nodup) : (m.insertAll l).toList = m.toList ++ l := by
  induction l generalizing m with
  | nil => simp [insertAll]
  | cons x l ih =>
      have hx : key x ∉ m.toList.map key := by
        rw [List.map_append, List.map_cons] at h
        exact fun hm => (List.nodup_append.mp h).2.2 _ hm _ List.mem_cons_self rfl
      have hins : (m.insert x).toList = m.toList ++ [x] := by
        rw [toList_insert, insertInto_of_notMem hx]
      have hrest := ih (m := m.insert x) (by rw [hins]; simpa using h)
      rw [hins] at hrest
      simpa [insertAll] using hrest

/-- After items of distinct keys were added, they are there, and those that were there and have
other keys. -/
lemma mem_insertAll {l : List α} (h : (l.map key).Nodup) {m : Keyed key} {x : α} :
    x ∈ (m.insertAll l).toList ↔ x ∈ l ∨ x ∈ m.toList ∧ key x ∉ l.map key := by
  induction l generalizing m with
  | nil => simp [insertAll]
  | cons y l ih =>
      obtain ⟨hy, hl⟩ := List.nodup_cons.mp h
      rw [insertAll, List.foldl_cons, ← insertAll, ih hl, toList_insert, mem_insertInto m.nodup,
        List.map_cons, List.mem_cons, List.mem_cons, not_or]
      constructor
      · rintro (hx | ⟨rfl | ⟨hx, hne⟩, hnot⟩)
        · exact Or.inl (Or.inr hx)
        · exact Or.inl (Or.inl rfl)
        · exact Or.inr ⟨hx, hne, hnot⟩
      · rintro ((rfl | hx) | ⟨hx, hne, hnot⟩)
        · exact Or.inr ⟨Or.inl rfl, hy⟩
        · exact Or.inl hx
        · exact Or.inr ⟨Or.inr ⟨hx, hne⟩, hnot⟩

/-- A list without repeated keys is kept as it is. -/
lemma toList_ofList {l : List α} (h : (l.map key).Nodup) :
    (ofList l : Keyed key).toList = l := by
  have := toList_insertAll (m := (empty : Keyed key)) (l := l) (by simpa using h)
  simpa [ofList] using this

/-- In a list without repeated keys the item of a key is the one found there. -/
lemma find?_eq_some_iff {l : List α} (h : (l.map key).Nodup) {k : κ} {x : α} :
    l.find? (fun y => key y = k) = some x ↔ x ∈ l ∧ key x = k := by
  constructor
  · intro hf
    exact ⟨List.mem_of_find?_eq_some hf, by simpa using List.find?_some hf⟩
  · rintro ⟨hx, rfl⟩
    induction l with
    | nil => cases hx
    | cons y ys ih =>
        have hn := List.nodup_cons.mp h
        rcases List.mem_cons.mp hx with rfl | hx
        · simp
        · have hy : key y ≠ key x := fun e =>
            hn.1 (List.mem_map.mpr ⟨x, hx, e.symm⟩)
          rw [List.find?_cons_of_neg (by simpa using hy), ih hn.2 hx]

/-- The item found at a key is the only one there. -/
lemma get?_eq_some_iff {m : Keyed key} {k : κ} {x : α} :
    m.get? k = some x ↔ x ∈ m.toList ∧ key x = k :=
  find?_eq_some_iff m.nodup

/-- The items are those found at the keys, in order. -/
lemma map_get?_keys (m : Keyed key) : m.keys.map m.get? = m.toList.map some := by
  rw [keys, List.map_map]
  exact List.map_congr_left fun x hx => get?_eq_some_iff.mpr ⟨hx, rfl⟩

/-- Items are told apart by their keys. -/
lemma injOn (m : Keyed key) : Set.InjOn key {x | x ∈ m.toList} := by
  intro x hx y hy he
  have hfound : m.get? (key y) = some x := get?_eq_some_iff.mpr ⟨hx, he⟩
  exact Option.some.inj (hfound.symm.trans (get?_eq_some_iff.mpr ⟨hy, rfl⟩))

end Keyed

/-! ### Dictionaries with missing values -/

namespace Dict

variable {κ ν : Type} [DecidableEq κ]

/-- The values that there are, in the order of their keys. -/
def filled (d : Dict κ (Option ν)) : List ν := d.values.filterMap id

lemma find?_eq_some_iff {d : Dict κ ν} {k : κ} {v : ν} :
    d.find? k = some v ↔ (k, v) ∈ d.toList := by
  rw [find?, Option.map_eq_some_iff]
  constructor
  · rintro ⟨⟨k', v'⟩, hp, rfl⟩
    obtain ⟨hmem, rfl⟩ := Keyed.get?_eq_some_iff.mp hp
    exact hmem
  · intro hmem
    exact ⟨(k, v), Keyed.get?_eq_some_iff.mpr ⟨hmem, rfl⟩, rfl⟩

lemma exists_find?_of_mem_keys {d : Dict κ ν} {k : κ} (h : k ∈ d.keys) :
    ∃ v, d.find? k = some v := by
  obtain ⟨⟨k, v⟩, hmem, rfl⟩ := List.mem_map.mp h
  exact ⟨v, find?_eq_some_iff.mpr hmem⟩

/-- A value that is there after a key was filled is the new one or was there before. -/
lemma mem_set {d : Dict κ ν} {k : κ} {v : ν} {p : κ × ν} :
    p ∈ (d.set k v).toList ↔ p = (k, v) ∨ (p ∈ d.toList ∧ p.1 ≠ k) :=
  Keyed.mem_insertInto d.nodup

/-- A value that is there after several keys were filled is a new one or was there before. -/
lemma mem_of_mem_foldl_set {α : Type} {f : α → κ} {g : α → ν} {l : List α} {d : Dict κ ν}
    {p : κ × ν} (h : p ∈ (l.foldl (fun d x => d.set (f x) (g x)) d).toList) :
    p ∈ d.toList ∨ ∃ x ∈ l, p = (f x, g x) := by
  refine exists_of_mem_foldl Keyed.toList (fun d x hset => ?_) h
  exact (mem_set.mp hset).symm.imp_left And.left

/-- Filling a key that has no value adds one value. -/
lemma filled_set_perm {d : Dict κ (Option ν)} {k : κ} (v : ν)
    (h : ∀ w, (k, some w) ∉ d.toList) : (d.set k (some v)).filled.Perm (v :: d.filled) := by
  rw [filled, filled, values, values, set, Keyed.toList_insert]
  revert h
  induction d.toList with
  | nil => simp [Keyed.insertInto]
  | cons p l ih =>
      intro h
      obtain ⟨k', w?⟩ := p
      have hl : ∀ w, (k, some w) ∉ l := fun w hw => h w (List.mem_cons_of_mem _ hw)
      rw [Keyed.insertInto]
      by_cases hk : k' = k
      · subst hk
        have hw : w? = none := by
          cases w? with
          | none => rfl
          | some w => exact absurd List.mem_cons_self (h w)
        simp [hw]
      · rw [if_neg hk]
        cases w? with
        | none => exact ih hl
        | some w => exact ((ih hl).cons w).trans (List.Perm.swap v w _)

/-- Filling several keys that have no value adds their values. -/
lemma filled_foldl_set_perm {α : Type} (f : α → κ) (g : α → ν) {l : List α}
    {d : Dict κ (Option ν)} (hn : (l.map f).Nodup) (h : ∀ x ∈ l, ∀ w, (f x, some w) ∉ d.toList) :
    (l.foldl (fun (d : Dict κ (Option ν)) x => d.set (f x) (some (g x))) d).filled.Perm
      (l.map g ++ d.filled) := by
  induction l generalizing d with
  | nil => exact .refl _
  | cons x l ih =>
      obtain ⟨hx, hn⟩ := List.nodup_cons.mp hn
      have hfree : ∀ y ∈ l, ∀ w, (f y, some w) ∉ (d.set (f x) (some (g x))).toList := by
        intro y hy w hm
        rcases mem_set.mp hm with he | ⟨hm, -⟩
        · have hkey : f y = f x := congrArg Prod.fst he
          exact hx (hkey ▸ List.mem_map_of_mem hy)
        · exact h y (List.mem_cons_of_mem _ hy) w hm
      have hset := filled_set_perm (g x) (h x List.mem_cons_self)
      exact ((ih hn hfree).trans (hset.append_left _)).trans List.perm_middle

/-- A dictionary is known by the values at its keys, in their order. -/
lemma toList_eq_map {α : Type} {d : Dict κ ν} {l : List α} {f : α → κ} {g : α → ν}
    (hkeys : d.keys = l.map f) (hvalues : ∀ x ∈ l, d.find? (f x) = some (g x)) :
    d.toList = l.map fun x => (f x, g x) := by
  have hlength : d.toList.length = l.length := by
    simpa [Keyed.keys] using congrArg List.length hkeys
  refine List.ext_getElem (by simpa using hlength) fun i hi hi' => ?_
  rw [List.length_map] at hi'
  have hkey : d.toList[i].1 = f l[i] := by
    have hget := List.getElem_of_eq hkeys (i := i) (by simpa [Keyed.keys] using hi)
    simpa [Keyed.keys] using hget
  have hfind : d.find? d.toList[i].1 = some d.toList[i].2 :=
    find?_eq_some_iff.mpr (List.getElem_mem hi)
  rw [hkey, hvalues _ (List.getElem_mem hi')] at hfind
  rw [List.getElem_map]
  exact Prod.ext hkey (Option.some.inj hfind).symm

/-- Dictionaries with the same keys and the same values at them are the same. -/
lemma ext_find? {d d' : Dict κ ν} (hkeys : d.keys = d'.keys) (h : ∀ k, d.find? k = d'.find? k) :
    d = d' := by
  apply Keyed.ext
  have hlist : d.toList = d'.toList.map fun x => (x.1, x.2) :=
    toList_eq_map hkeys fun x hx => (h x.1).trans (find?_eq_some_iff.mpr hx)
  rw [hlist, List.map_id']

open Classical in
/-- The value at a key after one value was set at several keys. -/
lemma find?_foldl_set {α : Type} (f : α → κ) (v : ν) (l : List α) (d : Dict κ ν) (k : κ) :
    (l.foldl (fun d x => d.set (f x) v) d).find? k =
      if ∃ x ∈ l, f x = k then some v else d.find? k := by
  induction l generalizing d with
  | nil => simp
  | cons x l ih =>
      rw [List.foldl_cons, ih, find?_set]
      by_cases hx : f x = k <;> simp [hx]

end Dict

end StarShapes
