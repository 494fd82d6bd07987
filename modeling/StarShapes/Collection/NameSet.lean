/-!
Finite sets of names, held as strictly ascending lists.

* `NameSet`: the names in ascending order of their code points, each once.
* `NameSet.insert`, `NameSet.ofList`: building a set, with the members as expected
  (`mem_insert`, `mem_ofList`).
* `NameSet.single?`: the member of a set of one.
-/

namespace StarShapes

/-- A set of names: its members in ascending order. -/
structure NameSet where
  /-- The members, the least first. -/
  toList : List String
  /-- The members ascend, so none occurs twice. -/
  sorted : toList.Pairwise (· < ·)

namespace NameSet

@[ext]
theorem ext {s t : NameSet} (h : s.toList = t.toList) : s = t := by
  cases s; cases t; cases h; rfl

instance : DecidableEq NameSet := fun s t =>
  decidable_of_iff (s.toList = t.toList) ⟨ext, fun h => h ▸ rfl⟩

instance : Membership String NameSet := ⟨fun s a => a ∈ s.toList⟩

theorem mem_def {s : NameSet} {a : String} : a ∈ s ↔ a ∈ s.toList := Iff.rfl

instance (a : String) (s : NameSet) : Decidable (a ∈ s) :=
  inferInstanceAs (Decidable (a ∈ s.toList))

/-- The set without members. -/
def empty : NameSet := ⟨[], List.Pairwise.nil⟩

instance : Inhabited NameSet := ⟨empty⟩

/-- The number of members. -/
def size (s : NameSet) : Nat := s.toList.length

/-- The member of a set that has exactly one. -/
def single? (s : NameSet) : Option String :=
  match s.toList with
  | [a] => some a
  | _ => none

/-- Put a name before the first greater one, unless it is there. -/
def insertInto (a : String) : List String → List String
  | [] => [a]
  | b :: l => if a = b then b :: l else if a < b then a :: b :: l else b :: insertInto a l

theorem mem_insertInto {a c : String} {l : List String} :
    c ∈ insertInto a l ↔ c = a ∨ c ∈ l := by
  induction l with
  | nil => simp [insertInto]
  | cons b l ih =>
    unfold insertInto
    split
    · rename_i e
      exact ⟨.inr, fun h => h.elim (fun hc => hc ▸ e ▸ List.mem_cons_self) id⟩
    · split
      · simp
      · simp only [List.mem_cons, ih]
        exact ⟨fun h => h.elim (fun e => .inr (.inl e)) fun h => h.imp_right .inr,
          fun h => h.elim (fun e => .inr (.inl e)) fun h => h.imp_right .inr⟩

theorem sorted_insertInto (a : String) {l : List String} (h : l.Pairwise (· < ·)) :
    (insertInto a l).Pairwise (· < ·) := by
  induction l with
  | nil => simp [insertInto]
  | cons b l ih =>
    have hb := List.pairwise_cons.1 h
    unfold insertInto
    split
    · exact h
    · rename_i hne
      split
      · rename_i hlt
        refine List.pairwise_cons.2 ⟨fun c hc => ?_, h⟩
        rcases List.mem_cons.1 hc with rfl | hc
        · exact hlt
        · exact String.lt_trans hlt (hb.1 c hc)
      · rename_i hge
        have hle : b ≤ a := String.not_lt.1 hge
        have hlt : b < a := Decidable.byContradiction fun hn =>
          hne (String.le_antisymm (String.not_lt.1 hn) hle)
        refine List.pairwise_cons.2 ⟨fun c hc => ?_, ih hb.2⟩
        rcases mem_insertInto.1 hc with rfl | hc
        · exact hlt
        · exact hb.1 c hc

/-- Add a member. -/
def insert (s : NameSet) (a : String) : NameSet where
  toList := insertInto a s.toList
  sorted := sorted_insertInto a s.sorted

@[simp]
theorem mem_insert {s : NameSet} {a c : String} : c ∈ s.insert a ↔ c = a ∨ c ∈ s :=
  mem_insertInto

/-- The set of the names in a list. -/
def ofList (l : List String) : NameSet := l.foldl insert empty

theorem mem_foldl_insert {l : List String} {s : NameSet} {c : String} :
    c ∈ l.foldl insert s ↔ c ∈ s ∨ c ∈ l := by
  induction l generalizing s with
  | nil => simp
  | cons a l ih =>
    rw [List.foldl_cons, ih, mem_insert, List.mem_cons]
    exact ⟨fun h => h.elim (fun h => h.elim (fun e => .inr (.inl e)) .inl) fun h => .inr (.inr h),
      fun h => h.elim (fun h => .inl (.inr h)) fun h => h.elim (fun e => .inl (.inl e)) .inr⟩

@[simp]
theorem mem_ofList {l : List String} {c : String} : c ∈ ofList l ↔ c ∈ l := by
  rw [ofList, mem_foldl_insert]
  exact ⟨fun h => h.elim (fun h => absurd h List.not_mem_nil) id, .inr⟩

end NameSet

end StarShapes
