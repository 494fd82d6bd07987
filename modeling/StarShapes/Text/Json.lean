/-!
JSON values and their compact text.

* `Json`: the values that descriptions of shapes are made of. The members of an object are given
  in the order in which they are written.
* `Json.text`: the text without blanks; in strings only the quote, the backslash and the control
  characters are escaped.
-/

namespace StarShapes

/-- JSON values. -/
inductive Json where
  /-- A truth value. -/
  | bool (b : Bool)
  /-- A natural number. -/
  | number (n : Nat)
  /-- A string. -/
  | string (s : String)
  /-- A list of values. -/
  | array (items : List Json)
  /-- Named values. -/
  | object (members : List (String × Json))
  deriving Repr

namespace Json

instance : Inhabited Json := ⟨array []⟩

/-- A hexadecimal digit, with small letters. -/
def hexDigit (n : Nat) : Char := ("0123456789abcdef".toList.getD n '0')

/-- A character inside a string: the quote, the backslash and the control characters are written
with a backslash, the others as they are. -/
def escapeChar : Char → List Char
  | '\x22' => ['\\', '\x22']
  | '\\' => ['\\', '\\']
  | '\x08' => ['\\', 'b']
  | '\x0c' => ['\\', 'f']
  | '\n' => ['\\', 'n']
  | '\r' => ['\\', 'r']
  | '\t' => ['\\', 't']
  | c =>
    if c.toNat < 32 then ['\\', 'u', '0', '0', hexDigit (c.toNat / 16), hexDigit (c.toNat % 16)]
    else [c]

/-- A string between quotes. -/
def quote (s : String) : String :=
  String.ofList ('\x22' :: s.toList.flatMap escapeChar ++ ['\x22'])

mutual

/-- The compact text of a value. -/
def text : Json → String
  | bool b => if b then "true" else "false"
  | number n => toString n
  | string s => quote s
  | array items => "[" ++ String.intercalate "," (textItems items) ++ "]"
  | object members => "\x7b" ++ String.intercalate "," (textMembers members) ++ "\x7d"

/-- The texts of the items of a list. -/
def textItems : List Json → List String
  | [] => []
  | x :: xs => text x :: textItems xs

/-- The texts of the members of an object. -/
def textMembers : List (String × Json) → List String
  | [] => []
  | (k, v) :: ms => (quote k ++ ":" ++ text v) :: textMembers ms

end

end Json

end StarShapes
