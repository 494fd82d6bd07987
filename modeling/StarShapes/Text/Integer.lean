/-!
Integers of 64 bits as text: `readInteger?` takes one optional sign and then digits, at least one,
and nothing else; numbers beyond the range are refused (`readInteger?_range`).
-/

namespace StarShapes

/-- The number that a list of decimal digits stands for; none if it is empty or holds anything
else. -/
def readDigits? (cs : List Char) : Option Nat :=
  if cs.isEmpty || !cs.all Char.isDigit then none
  else some (cs.foldl (fun n c => 10 * n + (c.toNat - '0'.toNat)) 0)

/-- A number that fits into 64 bits with sign. -/
def fitInteger? (n : Int) : Option Int :=
  if -9223372036854775808 ≤ n ∧ n ≤ 9223372036854775807 then some n else none

/-- The integer that a text stands for. -/
def readInteger? (s : String) : Option Int :=
  match s.toList with
  | '-' :: cs => (readDigits? cs).bind fun n => fitInteger? (-(n : Int))
  | '+' :: cs => (readDigits? cs).bind fun n => fitInteger? n
  | cs => (readDigits? cs).bind fun n => fitInteger? n

theorem fitInteger?_range {n k : Int} (h : fitInteger? n = some k) :
    -9223372036854775808 ≤ k ∧ k ≤ 9223372036854775807 := by
  unfold fitInteger? at h
  split at h
  · cases h
    assumption
  · cases h

/-- What is read fits into 64 bits. -/
theorem readInteger?_range {s : String} {k : Int} (h : readInteger? s = some k) :
    -9223372036854775808 ≤ k ∧ k ≤ 9223372036854775807 := by
  unfold readInteger? at h
  split at h <;> obtain ⟨n, _, hn⟩ := Option.bind_eq_some_iff.1 h <;> exact fitInteger?_range hn

end StarShapes
