import Mathlib.Data.List.Basic
import Mathlib.Data.List.Induction
import StarShapes.Collection.Distinct
import StarShapes.Proofs.Collection.Dictionaries

/-!
First occurrences: how the elements of a list, each once, get along with other operations.

* `distinct_append_singleton`: one more element at the end of a list. What comes after a list does
  not change the first occurrences in it (`prefix_distinct_append`).
* `pushAllNew_distinct`, `distinct_flatMap_congr`, `distinct_flatMap_distinct`: what is put together
  from lists has the same first occurrences if these have.
* `pushAllNew_of_nodup`: of distinct elements those are added that are new. They are their own
  first occurrences (`distinct_of_nodup`).
* `distinct_append_of_disjoint`, `distinct_flatMap`: what is put together from parts without common
  elements has their first occurrences, part by part.
* `filter_distinct`, `map_distinct`: first occurrences can be taken before or after a choice of
  elements, and before or after a function that keeps them apart.
* `Keyed.keys_ofList`, `Keyed.get?_ofList`: a keyed list built from a list has the first
  occurrences of its keys, each with the last item of that key. `Keyed.toList_ofList_eq_distinct`:
  it has the first occurrences of its items if no two share a key.
* `Keyed.tabulate`: what belongs to some keys, in the order in which these occur first. To give one
  more item is to insert it (`Keyed.tabulate_append_singleton`).
* `Dict.keys_foldl_set`: setting values adds the keys that are new.
-/

namespace StarShapes

/-! ### First occurrences -/

section

variable {α β : Type} [DecidableEq α] [DecidableEq β]

lemma pushNew_of_mem {l : List α} {x : α} (h : x ∈ l) : pushNew l x = l := if_pos h

lemma pushNew_of_notMem {l : List α} {x : α} (h : x ∉ l) : pushNew l x = l ++ [x] := if_neg h

/-- The last element of a list counts if it did not occur before. -/
lemma distinct_append_singleton (xs : List α) (x : α) :
    distinct (xs ++ [x]) = pushNew (distinct xs) x := by
  rw [distinct, pushAllNew, List.foldl_append]
  rfl

/-- What is added comes after what was there. -/
lemma prefix_pushAllNew (l xs : List α) : l <+: pushAllNew l xs := by
  induction xs generalizing l with
  | nil => exact List.prefix_refl l
  | cons x xs ih =>
      have hfirst : l <+: pushNew l x := by
        rw [pushNew]
        split
        · exact List.prefix_refl l
        · exact List.prefix_append l [x]
      exact hfirst.trans (ih (pushNew l x))

/-- Elements that are there add nothing. -/
lemma pushAllNew_of_subset {l xs : List α} (h : ∀ x ∈ xs, x ∈ l) : pushAllNew l xs = l := by
  induction xs with
  | nil => rfl
  | cons x xs ih =>
      rw [pushAllNew, List.foldl_cons, pushNew_of_mem (h x List.mem_cons_self)]
      exact ih fun y hy => h y (List.mem_cons_of_mem _ hy)

/-- Of distinct elements those are added that are new. -/
lemma pushAllNew_of_nodup (l : List α) {xs : List α} (h : xs.Nodup) :
    pushAllNew l xs = l ++ xs.filter (· ∉ l) := by
  induction xs generalizing l with
  | nil => exact (List.append_nil l).symm
  | cons x xs ih =>
      obtain ⟨hx, hxs⟩ := List.nodup_cons.mp h
      rw [pushAllNew, List.foldl_cons]
      by_cases hmem : x ∈ l
      · rw [pushNew_of_mem hmem, List.filter_cons_of_neg (by simpa using hmem)]
        exact ih l hxs
      · have hrest : xs.filter (· ∉ l ++ [x]) = xs.filter (· ∉ l) :=
          List.filter_congr fun y hy => by
            have hne : y ≠ x := fun he => hx (he ▸ hy)
            simp [hne]
        rw [pushNew_of_notMem hmem, List.filter_cons_of_pos (by simpa using hmem)]
        exact (ih (l ++ [x]) hxs).trans (by rw [hrest, List.append_assoc]; rfl)

/-- Distinct elements are their own first occurrences. -/
lemma distinct_of_nodup {xs : List α} (h : xs.Nodup) : distinct xs = xs := by
  rw [distinct, pushAllNew_of_nodup [] h]
  simp

/-- What follows a list is added to the first occurrences in it. -/
lemma distinct_append (xs ys : List α) : distinct (xs ++ ys) = pushAllNew (distinct xs) ys :=
  List.foldl_append

/-- The first occurrences in a list come before those in what follows. -/
lemma prefix_distinct_append (xs ys : List α) : distinct xs <+: distinct (xs ++ ys) :=
  distinct_append xs ys ▸ prefix_pushAllNew _ ys

/-- To add a list is to add the first occurrences in it. -/
lemma pushAllNew_distinct (l xs : List α) : pushAllNew l (distinct xs) = pushAllNew l xs := by
  induction xs using List.reverseRecOn with
  | nil => rfl
  | append_singleton xs x ih =>
      have hlast : ∀ ys, pushAllNew l (ys ++ [x]) = pushNew (pushAllNew l ys) x := fun ys =>
        List.foldl_append
      rw [distinct_append_singleton, hlast]
      by_cases hx : x ∈ distinct xs
      · have hmem : x ∈ pushAllNew l xs := mem_pushAllNew.mpr (Or.inr (mem_distinct.mp hx))
        rw [pushNew_of_mem hx, pushNew_of_mem hmem, ih]
      · rw [pushNew_of_notMem hx, hlast, ih]

/-- Each part of a list may be replaced by another with the same first occurrences. -/
lemma distinct_flatMap_congr {γ : Type} {l : List γ} {f g : γ → List α}
    (h : ∀ a ∈ l, distinct (f a) = distinct (g a)) :
    distinct (l.flatMap f) = distinct (l.flatMap g) := by
  induction l using List.reverseRecOn with
  | nil => rfl
  | append_singleton l a ih =>
      have ih := ih fun b hb => h b (List.mem_append_left _ hb)
      rw [List.flatMap_append, List.flatMap_append, distinct_append, distinct_append, ih,
        List.flatMap_singleton, List.flatMap_singleton, ← pushAllNew_distinct,
        h a (by simp), pushAllNew_distinct]

/-- What comes from the elements of a list comes from the first occurrences in it. -/
lemma distinct_flatMap_distinct (f : β → List α) (xs : List β) :
    distinct ((distinct xs).flatMap f) = distinct (xs.flatMap f) := by
  induction xs using List.reverseRecOn with
  | nil => rfl
  | append_singleton xs x ih =>
      rw [distinct_append_singleton, List.flatMap_append, distinct_append, List.flatMap_singleton]
      by_cases hx : x ∈ distinct xs
      · rw [pushNew_of_mem hx, ih, pushAllNew_of_subset]
        exact fun y hy => mem_distinct.mpr
          (List.mem_flatMap.mpr ⟨x, mem_distinct.mp hx, hy⟩)
      · rw [pushNew_of_notMem hx, List.flatMap_append, distinct_append, ih, List.flatMap_singleton]

/-- Two lists without common elements: the first occurrences in the one, then those in the other. -/
lemma distinct_append_of_disjoint {xs ys : List α} (h : xs.Disjoint ys) :
    distinct (xs ++ ys) = distinct xs ++ distinct ys := by
  induction ys using List.reverseRecOn with
  | nil => simp [distinct, pushAllNew]
  | append_singleton ys y ih =>
      have hys : xs.Disjoint ys := fun x hx hy => h hx (List.mem_append_left _ hy)
      have hy : y ∉ distinct xs := fun hmem => h (mem_distinct.mp hmem) (by simp)
      rw [← List.append_assoc, distinct_append_singleton, distinct_append_singleton, ih hys]
      by_cases hmem : y ∈ distinct ys
      · rw [pushNew_of_mem hmem, pushNew_of_mem (List.mem_append_right _ hmem)]
      · rw [pushNew_of_notMem hmem, pushNew_of_notMem, List.append_assoc]
        exact fun hmem' => (List.mem_append.mp hmem').elim hy hmem

omit [DecidableEq β] in
/-- Lists without common elements, put together: the first occurrences in each, in turn. -/
lemma distinct_flatMap {l : List β} {f : β → List α}
    (h : l.Pairwise fun a b => (f a).Disjoint (f b)) :
    distinct (l.flatMap f) = l.flatMap fun a => distinct (f a) := by
  induction l with
  | nil => rfl
  | cons a l ih =>
      obtain ⟨ha, hl⟩ := List.pairwise_cons.mp h
      have hdisjoint : (f a).Disjoint (l.flatMap f) := fun x hx hmem => by
        obtain ⟨b, hb, hxb⟩ := List.mem_flatMap.mp hmem
        exact ha b hb hx hxb
      rw [List.flatMap_cons, List.flatMap_cons, distinct_append_of_disjoint hdisjoint, ih hl]

/-- Chosen elements occur first in the order in which they do among all. -/
lemma filter_distinct (P : α → Bool) (xs : List α) :
    (distinct xs).filter P = distinct (xs.filter P) := by
  induction xs using List.reverseRecOn with
  | nil => rfl
  | append_singleton xs x ih =>
      rw [distinct_append_singleton, List.filter_append]
      cases hP : P x with
      | false =>
          rw [List.filter_cons_of_neg (by simp [hP]), List.filter_nil, List.append_nil, ← ih,
            pushNew]
          split
          · rfl
          · simp [hP]
      | true =>
          rw [List.filter_cons_of_pos hP, List.filter_nil, distinct_append_singleton, ← ih]
          by_cases hx : x ∈ distinct xs
          · rw [pushNew_of_mem hx, pushNew_of_mem (List.mem_filter.mpr ⟨hx, hP⟩)]
          · rw [pushNew_of_notMem hx,
              pushNew_of_notMem fun h => hx (List.mem_filter.mp h).1]
            simp [hP]

/-- A function that keeps the elements of a list apart keeps the order in which they occur
first. -/
lemma map_distinct {f : α → β} {xs : List α} (h : Set.InjOn f {x | x ∈ xs}) :
    (distinct xs).map f = distinct (xs.map f) := by
  induction xs using List.reverseRecOn with
  | nil => rfl
  | append_singleton xs x ih =>
      have hxs : Set.InjOn f {x | x ∈ xs} := h.mono fun y hy => List.mem_append_left _ hy
      have hmem : f x ∈ distinct (xs.map f) ↔ x ∈ distinct xs := by
        rw [mem_distinct, mem_distinct, List.mem_map]
        refine ⟨?_, fun hx => ⟨x, hx, rfl⟩⟩
        rintro ⟨y, hy, he⟩
        exact h (List.mem_append_left _ hy) (by simp) he ▸ hy
      rw [distinct_append_singleton, List.map_append, List.map_singleton,
        distinct_append_singleton]
      by_cases hx : x ∈ distinct xs
      · rw [pushNew_of_mem hx, pushNew_of_mem (hmem.mpr hx), ih hxs]
      · rw [pushNew_of_notMem hx, pushNew_of_notMem fun h => hx (hmem.mp h), List.map_append,
          List.map_singleton, ih hxs]

end

/-! ### Keyed lists -/

namespace Keyed

variable {α κ : Type} {key : α → κ} [DecidableEq κ]

lemma ofList_append_singleton (l : List α) (x : α) :
    (ofList (l ++ [x]) : Keyed key) = (ofList l : Keyed key).insert x := by
  rw [ofList, insertAll, List.foldl_append]
  rfl

/-- The keys of a list are kept in the order in which they occur first. -/
lemma keys_ofList (l : List α) : (ofList l : Keyed key).keys = distinct (l.map key) := by
  induction l using List.reverseRecOn with
  | nil => rfl
  | append_singleton l x ih =>
      rw [ofList_append_singleton, keys_insert, ih, List.map_append, List.map_singleton,
        distinct_append_singleton]
      rfl

/-- Of the items with one key, the last of a list is kept. -/
lemma get?_ofList (l : List α) (k : κ) :
    (ofList l : Keyed key).get? k = l.reverse.find? fun x => key x = k := by
  induction l using List.reverseRecOn with
  | nil => rfl
  | append_singleton l x ih =>
      rw [ofList_append_singleton, get?_insert, ih, List.reverse_concat]
      by_cases hx : key x = k <;> simp [hx]

/-- An item that is there takes its own place. -/
lemma insertInto_of_mem {l : List α} (h : (l.map key).Nodup) {x : α} (hx : x ∈ l) :
    insertInto key x l = l := by
  induction l with
  | nil => cases hx
  | cons y ys ih =>
      obtain ⟨hy, hys⟩ := List.nodup_cons.mp h
      rcases List.mem_cons.mp hx with rfl | hx
      · rw [insertInto, if_pos rfl]
      · have hne : key y ≠ key x := fun he => hy (he ▸ List.mem_map_of_mem hx)
        rw [insertInto, if_neg hne, ih hys hx]

/-- Items that are told apart by their keys are kept in the order in which they occur first. -/
lemma toList_ofList_eq_distinct [DecidableEq α] {l : List α} (h : Set.InjOn key {x | x ∈ l}) :
    (ofList l : Keyed key).toList = distinct l := by
  induction l using List.reverseRecOn with
  | nil => rfl
  | append_singleton l x ih =>
      have hl := ih (h.mono fun y hy => List.mem_append_left _ hy)
      rw [ofList_append_singleton, toList_insert, distinct_append_singleton]
      by_cases hx : x ∈ distinct l
      · rw [insertInto_of_mem (ofList l : Keyed key).nodup (hl ▸ hx), hl, pushNew_of_mem hx]
      · rw [insertInto_of_notMem, hl, pushNew_of_notMem hx]
        intro hkey
        obtain ⟨y, hy, he⟩ := List.mem_map.mp hkey
        rw [hl, mem_distinct] at hy
        exact hx (mem_distinct.mpr (h (List.mem_append_left _ hy) (by simp) he ▸ hy))

/-! ### Items that belong to keys -/

omit [DecidableEq κ] in
/-- The keys of what belongs to some keys are among these. -/
lemma map_key_filterMap_sublist {item? : κ → Option α} (h : ∀ k x, item? k = some x → key x = k)
    (ks : List κ) : ((ks.filterMap item?).map key).Sublist ks := by
  induction ks with
  | nil => exact .slnil
  | cons k ks ih =>
      cases hk : item? k with
      | none =>
          rw [List.filterMap_cons_none hk]
          exact ih.cons k
      | some x =>
          rw [List.filterMap_cons_some hk, List.map_cons, h k x hk]
          exact ih.cons_cons k

/-- The items that belong to the keys in a list, in the order in which these occur first. -/
def tabulate (item? : κ → Option α) (h : ∀ k x, item? k = some x → key x = k) (ks : List κ) :
    Keyed key where
  toList := (distinct ks).filterMap item?
  nodup := (map_key_filterMap_sublist h _).nodup (nodup_distinct ks)

/-- An item takes the place that its key has among the keys. -/
lemma filterMap_eq_insertInto {item? item?' : κ → Option α}
    (h : ∀ k x, item? k = some x → key x = k) {ks : List κ} (hks : ks.Nodup) {x : α}
    (hx : item?' (key x) = some x) (hother : ∀ k, k ≠ key x → item?' k = item? k)
    (hmem : key x ∈ ks) (hsome : (item? (key x)).isSome) :
    ks.filterMap item?' = insertInto key x (ks.filterMap item?) := by
  induction ks with
  | nil => cases hmem
  | cons k ks ih =>
      obtain ⟨hk, hks⟩ := List.nodup_cons.mp hks
      by_cases he : k = key x
      · subst he
        obtain ⟨y, hy⟩ := Option.isSome_iff_exists.mp hsome
        have hrest : ks.filterMap item?' = ks.filterMap item? :=
          List.filterMap_congr fun k hmem => hother k fun he => hk (he ▸ hmem)
        rw [List.filterMap_cons_some hx, List.filterMap_cons_some hy, insertInto,
          if_pos (h _ y hy), hrest]
      · have ih := ih hks ((List.mem_cons.mp hmem).resolve_left (Ne.symm he))
        cases hy : item? k with
        | none =>
            rw [List.filterMap_cons_none hy, List.filterMap_cons_none ((hother k he).trans hy), ih]
        | some y =>
            rw [List.filterMap_cons_some hy, List.filterMap_cons_some ((hother k he).trans hy),
              insertInto, if_neg ((h k y hy).symm ▸ he), ih]

/-- One more key at the end of a list, the only one whose item has changed. -/
lemma tabulate_append_singleton {item? item?' : κ → Option α}
    {h : ∀ k x, item? k = some x → key x = k} {h' : ∀ k x, item?' k = some x → key x = k}
    {ks : List κ} {k : κ} {x : α} (hx : item?' k = some x)
    (hother : ∀ l, l ≠ k → item?' l = item? l) (hsome : k ∈ ks → (item? k).isSome) :
    tabulate item?' h' (ks ++ [k]) = (tabulate item? h ks).insert x := by
  obtain rfl := h' k x hx
  apply ext
  rw [toList_insert, tabulate, tabulate]
  dsimp only
  rw [distinct_append_singleton]
  by_cases hmem : key x ∈ ks
  · rw [pushNew_of_mem (mem_distinct.mpr hmem)]
    exact filterMap_eq_insertInto h (nodup_distinct ks) hx hother (mem_distinct.mpr hmem)
      (hsome hmem)
  · have hks : key x ∉ distinct ks := fun hks => hmem (mem_distinct.mp hks)
    have hold : (distinct ks).filterMap item?' = (distinct ks).filterMap item? :=
      List.filterMap_congr fun k hk => hother k fun he => hks (he ▸ hk)
    rw [pushNew_of_notMem hks, List.filterMap_append, hold,
      insertInto_of_notMem fun hin => hks ((map_key_filterMap_sublist h _).subset hin)]
    simp [hx]

/-- The item found at a key is that which belongs to it. -/
lemma get?_tabulate {item? : κ → Option α} {h : ∀ k x, item? k = some x → key x = k} {ks : List κ}
    {k : κ} (hnone : k ∉ ks → item? k = none) : (tabulate item? h ks).get? k = item? k := by
  ext x
  rw [get?_eq_some_iff, tabulate, List.mem_filterMap]
  constructor
  · rintro ⟨⟨k', -, hx⟩, rfl⟩
    exact h k' x hx ▸ hx
  · intro hx
    have hk : k ∈ ks := by
      by_contra hk
      rw [hnone hk] at hx
      cases hx
    exact ⟨⟨k, mem_distinct.mpr hk, hx⟩, h k x hx⟩

end Keyed

namespace Dict

/-- Setting values adds the keys that are new. -/
lemma keys_foldl_set {α κ ν : Type} [DecidableEq κ] (f : α → κ) (g : α → ν) (l : List α)
    (d : Dict κ ν) :
    (l.foldl (fun d x => d.set (f x) (g x)) d).keys = pushAllNew d.keys (l.map f) := by
  induction l generalizing d with
  | nil => rfl
  | cons x l ih =>
      rw [List.foldl_cons, ih, keys_set, List.map_cons]
      rfl

end Dict

end StarShapes
