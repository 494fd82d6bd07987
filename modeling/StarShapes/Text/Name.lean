import StarShapes.Text.Alphabet
import StarShapes.Text.Escape
import StarShapes.Text.Parser

/-!
Names of documents and queries: the labels of prefixes, the local parts of prefixed names and the
labels of blank nodes.

* `Dots`: where dots may stand inside of a name, which never ends in one (`Parser.dotted`).
* `NameRules`: the letters of a language and its rules on dots. `NameRules.prefixLabel`,
  `NameRules.localName` and `NameRules.blankLabel` read the three kinds of names.
-/

namespace StarShapes

/-- Where dots may stand inside of a name. -/
inductive Dots where
  /-- Anywhere, but never next to each other. -/
  | single
  /-- Anywhere. -/
  | anywhere
  /-- In one place, where there may be several. -/
  | onePlace
  deriving DecidableEq, Repr

/-- What names may look like. -/
structure NameRules where
  /-- The letters. -/
  alphabet : Alphabet
  /-- The dots of labels. -/
  labelDots : Dots
  /-- The dots of local parts. -/
  localDots : Dots
  deriving DecidableEq, Repr

namespace Parser

variable {σ : Type}

/-- Some dots and the pieces of a name after them, of which there is at least one. -/
def dotsAndMore (dots : Dots) (piece : Parser σ (List Char)) : Parser σ (List Char) := do
  let run ← match dots with
    | .single => do text "."; pure ['.']
    | _ => takeWhile1 (· = '.')
  let more ← many1 piece
  pure (run ++ more.flatten)

/-- Pieces of a name, and dots that have a piece after them. -/
def dotted (dots : Dots) (piece : Parser σ (List Char)) : Parser σ (List Char) := do
  let first ← many piece
  let more ← match dots with
    | .onePlace => dotsAndMore dots piece <|> pure []
    | _ => List.flatten <$> many (dotsAndMore dots piece)
  pure (first.flatten ++ more)

/-- A character of a class, as a piece of a name. -/
def charPiece (p : Char → Bool) : Parser σ (List Char) := do
  let c ← satisfy p
  pure [c]
/-- A percent sign and two hexadecimal digits, which stay as they are. -/
def percentPiece : Parser σ (List Char) := do
  text "%"
  let a ← satisfy isHex
  let b ← satisfy isHex
  pure ['%', a, b]

/-- A character after a backslash, which is left out. -/
def escapedPiece : Parser σ (List Char) := do
  text "\\"
  charPiece "_~.-!$&'()*+,;=/?#@%".toList.contains

end Parser

namespace NameRules

open StarShapes.Parser

variable {σ : Type}

/-- The label of a prefix, which may be empty, and the colon after it. -/
def prefixLabel (r : NameRules) : Parser σ (List Char) := do
  let label ← (do
    let c ← satisfy r.alphabet.isLetter
    let cs ← dotted r.labelDots (takeWhile1 r.alphabet.isNameChar)
    pure (c :: cs)) <|> pure []
  text ":"
  pure label

/-- The local part of a prefixed name. -/
def localName (r : NameRules) : Parser σ (List Char) := do
  let special : Parser σ (List Char) := percentPiece <|> escapedPiece
  let first ← charPiece (fun c => r.alphabet.isNameStart c || c = ':' || c.isDigit) <|> special
  let rest ← dotted r.localDots
    (takeWhile1 (fun c => r.alphabet.isNameChar c || c = ':') <|> special)
  pure (first ++ rest)

/-- The label of a blank node, after the low line and the colon that mark it. -/
def blankLabel (r : NameRules) : Parser σ (List Char) := do
  text "_:"
  let first ← charPiece fun c => r.alphabet.isNameStart c || c.isDigit
  let rest ← dotted r.labelDots (takeWhile1 r.alphabet.isNameChar)
  pure (first ++ rest)

end NameRules

end StarShapes
