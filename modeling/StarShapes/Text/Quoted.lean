import StarShapes.Text.Escape
import StarShapes.Text.Parser

/-!
Quoted strings: between single or double quotes in one line, or between three of them in several.

* `Parser.escape`: a character after a backslash.
* `Parser.shortString`, `Parser.longString`: the two forms.
* `Parser.quotedString`: a string in any form. Three quotes start a long string if it ends; else
  they are an empty string and a quote.
* `Parser.strictString`: a string in any form. Three quotes always start a long string.
-/

namespace StarShapes.Parser

variable {σ : Type}

/-- A character that a letter after a backslash stands for. -/
def escape : Parser σ Char := do
  text "\\"
  let c ← satisfy fun _ => true
  ofOption (escapedChar? c)

/-- The character of a number of hexadecimal digits. -/
def hexChar (length : Nat) : Parser σ Char := fun s cs =>
  let digits := cs.take length
  if digits.length = length then
    ((charOfHex? digits).map fun c => (c, cs.drop length), s)
  else (none, s)

/-- A character by its number, in four or eight hexadecimal digits. -/
def numberedChar : Parser σ Char :=
  (do text "\\u"; hexChar 4) <|> (do text "\\U"; hexChar 8)

/-- Characters of a class, or an escape. -/
def stringPiece (p : Char → Bool) (escape : Parser σ Char) : Parser σ (List Char) :=
  takeWhile1 p <|> (do let c ← escape; pure [c])

/-- A string between two quotes, in one line. -/
def shortString (escape : Parser σ Char) (quote : Char) : Parser σ (List Char) := do
  let _ ← satisfy (· = quote)
  let cs ← many <|
    stringPiece (fun c => c ≠ quote && c ≠ '\\' && c ≠ '\n' && c ≠ '\r') escape
  let _ ← satisfy (· = quote)
  pure cs.flatten

/-- A string between two times three quotes, in which one or two quotes may come before another
character. -/
def longString (escape : Parser σ Char) (quote : Char) : Parser σ (List Char) := do
  let three := String.ofList [quote, quote, quote]
  text three
  let cs ← many do
    let quotes ← (do text (String.ofList [quote, quote]); pure [quote, quote]) <|>
      (do let _ ← satisfy (· = quote); pure [quote]) <|> pure []
    let cs ← stringPiece (fun c => c ≠ quote && c ≠ '\\') escape
    pure (quotes ++ cs)
  text three
  pure cs.flatten

/-- A string; three quotes that start no long string are an empty string and a quote. -/
def quotedString (escape : Parser σ Char) : Parser σ String := do
  let cs ← longString escape '\'' <|> longString escape '\x22' <|>
    shortString escape '\'' <|> shortString escape '\x22'
  pure (String.ofList cs)

/-- A string between quotes of one kind; three of them start a long string. -/
def stringBetween (escape : Parser σ Char) (quote : Char) : Parser σ (List Char) := do
  let isLong ← ahead fun cs => cs.take 3 = [quote, quote, quote]
  if isLong then longString escape quote else shortString escape quote

/-- A string; three quotes start a long string. -/
def strictString (escape : Parser σ Char) : Parser σ String :=
  String.ofList <$> (stringBetween escape '\'' <|> stringBetween escape '\x22')

end StarShapes.Parser
