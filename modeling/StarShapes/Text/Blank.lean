import StarShapes.Text.Parser

/-!
Blanks between the words of a document: white space, and comments from `#` to the end of the line.

* `dropBlanks`: a text without the blanks at its front (`dropBlanks_dropBlanks`).
* `Parser.symbol`, `Parser.keyword`: words that may have blanks before them.
-/

namespace StarShapes

/-- White space: the blank, the tabulator and the two characters that end lines. -/
def isSpace (c : Char) : Bool := c = ' ' || c = '\t' || c = '\n' || c = '\r'

/-- A text without the blanks at its front; inside of a comment all is dropped up to the end of the
line. -/
def dropBlanksFrom (inComment : Bool) : List Char → List Char
  | [] => []
  | c :: cs =>
    if inComment then dropBlanksFrom (!(c = '\n' || c = '\r')) cs
    else if isSpace c then dropBlanksFrom false cs
    else if c = '#' then dropBlanksFrom true cs
    else c :: cs

/-- A text without the blanks at its front. -/
def dropBlanks (cs : List Char) : List Char := dropBlanksFrom false cs

/-- What is left starts neither with white space nor with a comment. -/
theorem not_blank_of_mem_head?_dropBlanksFrom {inComment : Bool} {cs : List Char} {c : Char}
    (h : c ∈ (dropBlanksFrom inComment cs).head?) : isSpace c = false ∧ c ≠ '#' := by
  fun_induction dropBlanksFrom inComment cs <;> simp_all

/-- Blanks are dropped at once. -/
theorem dropBlanks_dropBlanks (cs : List Char) : dropBlanks (dropBlanks cs) = dropBlanks cs := by
  cases h : dropBlanks cs with
  | nil => rfl
  | cons c rest =>
    have hc : c ∈ (dropBlanksFrom false cs).head? := by
      rw [show dropBlanksFrom false cs = c :: rest from h]
      rfl
    obtain ⟨hs, hh⟩ := not_blank_of_mem_head?_dropBlanksFrom hc
    simp [dropBlanks, dropBlanksFrom, hs, hh]

namespace Parser

variable {σ α : Type}

/-- Blanks, if there are any. -/
def blanks : Parser σ Unit := fun s cs => (some ((), dropBlanks cs), s)

/-- A value with blanks before it. -/
def token (p : Parser σ α) : Parser σ α := do
  blanks
  p

/-- These characters with blanks before them. -/
def symbol (t : String) : Parser σ Unit := token (text t)

/-- A keyword with blanks before it, in small or capital letters. -/
def keyword (t : String) : Parser σ Unit := token (word t)

/-- A pair of brackets with nothing but white space between them, and blanks before them. -/
def emptyBrackets (left right : String) : Parser σ Unit := token do
  text left
  let _ ← takeWhile isSpace
  text right

end Parser

end StarShapes
