/-!
Lists without repetition, kept in the order of first occurrence.

* `pushNew`: add an element at the end unless it is there (`mem_pushNew`, `nodup_pushNew`).
* `pushAllNew`: add several (`mem_pushAllNew`, `nodup_pushAllNew`).
* `distinct`: the first occurrence of every element (`mem_distinct`, `nodup_distinct`).
-/

namespace StarShapes

variable {α : Type} [DecidableEq α]

/-- Add an element at the end, unless the list has it already. -/
def pushNew (l : List α) (x : α) : List α := if x ∈ l then l else l ++ [x]

/-- Add the elements of a list in turn, each at the end and only if it is new. -/
def pushAllNew (l xs : List α) : List α := xs.foldl pushNew l

/-- The elements of a list in order of first occurrence, each once. -/
def distinct (xs : List α) : List α := pushAllNew [] xs

@[simp]
theorem mem_pushNew {l : List α} {x y : α} : y ∈ pushNew l x ↔ y ∈ l ∨ y = x := by
  unfold pushNew
  split
  · exact ⟨.inl, fun h => h.elim id fun e => e ▸ ‹x ∈ l›⟩
  · simp

theorem nodup_pushNew {l : List α} (h : l.Nodup) (x : α) : (pushNew l x).Nodup := by
  unfold pushNew
  split
  · exact h
  · rename_i hx
    rw [List.nodup_append]
    refine ⟨h, by simp, fun a ha b hb e => ?_⟩
    rw [List.mem_singleton] at hb
    exact hx (hb ▸ e ▸ ha)

@[simp]
theorem mem_pushAllNew {l xs : List α} {y : α} : y ∈ pushAllNew l xs ↔ y ∈ l ∨ y ∈ xs := by
  unfold pushAllNew
  induction xs generalizing l with
  | nil => simp
  | cons x xs ih => rw [List.foldl_cons, ih, mem_pushNew, List.mem_cons, or_assoc]

theorem nodup_pushAllNew {l : List α} (h : l.Nodup) (xs : List α) : (pushAllNew l xs).Nodup := by
  unfold pushAllNew
  induction xs generalizing l with
  | nil => exact h
  | cons x xs ih => exact ih (nodup_pushNew h x)

@[simp]
theorem mem_distinct {xs : List α} {y : α} : y ∈ distinct xs ↔ y ∈ xs := by simp [distinct]

theorem nodup_distinct (xs : List α) : (distinct xs).Nodup := nodup_pushAllNew List.nodup_nil xs

end StarShapes
