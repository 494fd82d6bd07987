/-!
Characters written as escapes, that is, with a backslash.

* `escapedChar?`: the character that a letter stands for after a backslash.
* `readHex?`, `charOfHex?`: numbers in hexadecimal digits, and characters by their numbers.
* `unescapeCodePoints`: a text in which `\u` and four digits, or `\U` and eight, are replaced by the
  character of that number; all other backslashes stay, each with the character after it.
-/

namespace StarShapes

/-- The character that another one stands for after a backslash. -/
def escapedChar? : Char → Option Char
  | 't' => some '\t'
  | 'b' => some '\x08'
  | 'n' => some '\n'
  | 'r' => some '\r'
  | 'f' => some '\x0c'
  | '\x22' => some '\x22'
  | '\'' => some '\''
  | '\\' => some '\\'
  | _ => none

/-! ### Hexadecimal numbers -/

/-- The value of a hexadecimal digit. -/
def hexValue? (c : Char) : Option Nat :=
  if '0' ≤ c ∧ c ≤ '9' then some (c.toNat - '0'.toNat)
  else if 'a' ≤ c ∧ c ≤ 'f' then some (c.toNat - 'a'.toNat + 10)
  else if 'A' ≤ c ∧ c ≤ 'F' then some (c.toNat - 'A'.toNat + 10)
  else none

/-- A hexadecimal digit. -/
def isHex (c : Char) : Bool := (hexValue? c).isSome

/-- A digit has a value below 16. -/
theorem hexValue?_lt {c : Char} {n : Nat} (h : hexValue? c = some n) : n < 16 := by
  unfold hexValue? at h
  split at h
  · rename_i hc
    have h1 : c.toNat ≤ '9'.toNat := hc.2
    have : '9'.toNat = 57 := rfl
    have : '0'.toNat = 48 := rfl
    simp only [Option.some.injEq] at h
    omega
  · split at h
    · rename_i hc
      have h1 : c.toNat ≤ 'f'.toNat := hc.2
      have : 'f'.toNat = 102 := rfl
      have : 'a'.toNat = 97 := rfl
      simp only [Option.some.injEq] at h
      omega
    · split at h
      · rename_i hc
        have h1 : c.toNat ≤ 'F'.toNat := hc.2
        have : 'F'.toNat = 70 := rfl
        have : 'A'.toNat = 65 := rfl
        simp only [Option.some.injEq] at h
        omega
      · cases h

/-- The number that a list of hexadecimal digits stands for. -/
def readHex? (cs : List Char) : Option Nat :=
  cs.foldlM (fun n c => (hexValue? c).map (16 * n + ·)) 0

/-- The character of a number, if there is one. -/
def charOf? (n : Nat) : Option Char := if n.isValidChar then some (Char.ofNat n) else none

/-- The character whose number is given in hexadecimal digits. -/
def charOfHex? (cs : List Char) : Option Char := (readHex? cs).bind charOf?

/-! ### Whole texts -/

/-- The character whose number is given in hexadecimal digits, of which a plus sign may take the
first place. -/
def charOfSignedHex? : List Char → Option Char
  | '+' :: cs => charOfHex? cs
  | cs => charOfHex? cs

/-- A character by its number, or else the escape as it stands. -/
def unescapeOne (letter : Char) (digits : List Char) : List Char :=
  match charOfSignedHex? digits with
  | some c => [c]
  | none => '\\' :: letter :: digits

/-- A text with its numbered characters in place of their escapes. -/
def unescapeCodePoints : List Char → List Char
  | '\\' :: 'u' :: a :: b :: c :: d :: cs =>
    unescapeOne 'u' [a, b, c, d] ++ unescapeCodePoints cs
  | '\\' :: 'U' :: a :: b :: c :: d :: e :: f :: g :: h :: cs =>
    unescapeOne 'U' [a, b, c, d, e, f, g, h] ++ unescapeCodePoints cs
  | '\\' :: 'u' :: cs => '\\' :: 'u' :: cs
  | '\\' :: 'U' :: cs => '\\' :: 'U' :: cs
  | '\\' :: c :: cs => '\\' :: c :: unescapeCodePoints cs
  | c :: cs => c :: unescapeCodePoints cs
  | [] => []

/-- A text without backslashes stays as it is. -/
theorem unescapeCodePoints_eq_self {cs : List Char} (h : '\\' ∉ cs) :
    unescapeCodePoints cs = cs := by
  induction cs with
  | nil => rfl
  | cons c cs ih =>
    have hc : c ≠ '\\' := fun e => h (by simp [e])
    rw [unescapeCodePoints.eq_def]
    split <;> simp_all

end StarShapes
