import StarShapes.Text.Ranges

/-!
The characters of names in documents and queries.

* `Alphabet`: names of documents may hold letters beyond the basic plane of Unicode, names of
  queries may not.
* `Alphabet.isLetter`, `Alphabet.isNameStart`, `Alphabet.isNameChar`: three classes, each of which
  contains the one before (`Alphabet.isNameStart_of_isLetter`,
  `Alphabet.isNameChar_of_isNameStart`). The letters of the basic plane are letters of the full
  range (`Alphabet.isLetter_full`).
-/

namespace StarShapes

/-- The range of letters. -/
inductive Alphabet where
  /-- Letters of the basic plane. -/
  | basic
  /-- Letters of all planes. -/
  | full
  deriving DecidableEq, Repr

namespace Alphabet

/-- The ranges of letters beyond ASCII, as far as the basic plane goes. -/
def basicRanges : List (Nat × Nat) :=
  [(0xC0, 0xD6), (0xD8, 0xF6), (0xF8, 0x2FF), (0x370, 0x37D), (0x37F, 0x1FFF), (0x200C, 0x200D),
    (0x2070, 0x218F), (0x2C00, 0x2FEF), (0x3001, 0xD7FF), (0xF900, 0xFDCF), (0xFDF0, 0xFFFD)]

/-- The ranges of letters beyond ASCII. -/
def ranges : Alphabet → List (Nat × Nat)
  | basic => basicRanges
  | full => basicRanges ++ [(0x10000, 0xEFFFF)]

/-- A letter. -/
def isLetter (a : Alphabet) (c : Char) : Bool := c.isAlpha || inRanges a.ranges c

/-- A letter or the low line. -/
def isNameStart (a : Alphabet) (c : Char) : Bool := c = '_' || a.isLetter c

/-- A character that may stand inside a name. -/
def isNameChar (a : Alphabet) (c : Char) : Bool :=
  c = '-' || c.isDigit || inRanges [(0xB7, 0xB7), (0x300, 0x36F), (0x203F, 0x2040)] c ||
    a.isNameStart c

/-- A letter of queries is a letter of documents. -/
theorem isLetter_full {c : Char} (h : basic.isLetter c = true) : full.isLetter c = true := by
  simp only [isLetter, ranges, inRanges_append, Bool.or_eq_true] at h ⊢
  exact h.imp_right .inl

theorem isNameStart_of_isLetter {a : Alphabet} {c : Char} (h : a.isLetter c = true) :
    a.isNameStart c = true := by simp [isNameStart, h]

theorem isNameChar_of_isNameStart {a : Alphabet} {c : Char} (h : a.isNameStart c = true) :
    a.isNameChar c = true := by simp [isNameChar, h]

end Alphabet

end StarShapes
