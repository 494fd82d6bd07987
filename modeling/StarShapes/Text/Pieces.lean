/-!
Texts that consist of pieces with a separator between them, such as the segments of a path.

* `pieces`: the pieces of a text. There is always one more of them than there are separators.
* `intercalate_pieces`: the pieces make up the text.
-/

namespace StarShapes

/-- The pieces of a text between separators. -/
def pieces (separator : Char) : List Char → List (List Char)
  | [] => [[]]
  | c :: cs =>
    match pieces separator cs with
    | p :: ps => if c = separator then [] :: p :: ps else (c :: p) :: ps
    | [] => [[c]]

/-- There is at least one piece. -/
theorem pieces_ne_nil (separator : Char) (cs : List Char) : pieces separator cs ≠ [] := by
  cases cs with
  | nil => simp [pieces]
  | cons c cs =>
    rw [pieces]
    split
    · split <;> simp
    · simp

/-- The pieces with separators between them are the text. -/
theorem intercalate_pieces (separator : Char) (cs : List Char) :
    [separator].intercalate (pieces separator cs) = cs := by
  induction cs with
  | nil => rfl
  | cons c cs ih =>
    rw [pieces]
    split
    · rename_i p ps hp
      rw [hp] at ih
      split
      · rename_i hc
        rw [hc, ← ih]
        simp [List.intercalate, List.intersperse]
      · cases ps <;> simpa [List.intercalate, List.intersperse] using ih
    · rename_i hp
      exact absurd hp (pieces_ne_nil separator cs)

end StarShapes
