/-!
Parsers: functions that take a value off the front of a text.

* `Parser σ α`: reads a value of type `α` and leaves the rest of the text. It may look at a state of
  type `σ` and change it; what an alternative does to the state stays done if the alternative is
  given up, as for a label that has been met.
* `<|>`, `Parser.branch`: a choice between alternatives, which may or may not come back to the
  second one after the first has found its beginning.
* `Parser.many`, `Parser.sepBy`: repetition, as long as something is consumed.
* `Parser.nested`, `Parser.nestedBy`: rules that contain themselves, or one another, between
  brackets. Every bracket takes a character, so the length of the text bounds the depth.
* `Parser.slice`: what was read, as it stands in the text.
-/

namespace StarShapes

/-- A function that reads a value from the front of a text or fails. -/
def Parser (σ α : Type) : Type := σ → List Char → Option (α × List Char) × σ

namespace Parser

variable {σ α β : Type}

instance : Monad (Parser σ) where
  pure a := fun s cs => (some (a, cs), s)
  bind p f := fun s cs =>
    match p s cs with
    | (some (a, rest), s') => f a s' rest
    | (none, s') => (none, s')

/-- The parser that reads nothing. -/
def fail : Parser σ α := fun s _ => (none, s)

instance : Inhabited (Parser σ α) := ⟨fail⟩

/-- Ordered choice: the second parser counts only where the first one fails. -/
instance : OrElse (Parser σ α) where
  orElse p q := fun s cs =>
    match p s cs with
    | (some r, s') => (some r, s')
    | (none, s') => q () s' cs

theorem pure_apply (a : α) (s : σ) (cs : List Char) :
    (pure a : Parser σ α) s cs = (some (a, cs), s) := rfl

/-- The first of several parsers that does not fail. -/
def oneOf : List (Parser σ α) → Parser σ α
  | [] => fail
  | p :: ps => p <|> oneOf ps

/-- Where the first parser succeeds only the second one counts, and where it fails the third. -/
def branch (test : Parser σ α) (yes : α → Parser σ β) (no : Parser σ β) : Parser σ β :=
  fun s cs =>
    match test s cs with
    | (some (a, rest), s') => yes a s' rest
    | (none, s') => no s' cs

/-- The value, if there is one. -/
def ofOption : Option α → Parser σ α
  | some a => pure a
  | none => fail

/-- Go on only under a condition. -/
def guard (b : Bool) : Parser σ Unit := if b then pure () else fail

/-! ### State -/

/-- The state. -/
def get : Parser σ σ := fun s cs => (some (s, cs), s)

/-- Change the state. -/
def modify (f : σ → σ) : Parser σ Unit := fun s cs => (some ((), cs), f s)

/-! ### Characters -/

/-- A character of a class. -/
def satisfy (p : Char → Bool) : Parser σ Char := fun s cs =>
  match cs with
  | c :: rest => if p c then (some (c, rest), s) else (none, s)
  | [] => (none, s)

/-- The characters of a class up to the first that is none. -/
def takeWhile (p : Char → Bool) : Parser σ (List Char) := fun s cs =>
  (some (cs.span p), s)

/-- The characters of a class up to the first that is none, at least one. -/
def takeWhile1 (p : Char → Bool) : Parser σ (List Char) := fun s cs =>
  match cs.span p with
  | ([], _) => (none, s)
  | r => (some r, s)

/-- What follows after some characters, each of which has to match the text's. -/
def dropMatching (same : Char → Char → Bool) : List Char → List Char → Option (List Char)
  | [], cs => some cs
  | p :: ps, c :: cs => if same p c then dropMatching same ps cs else none
  | _ :: _, [] => none

/-- Exactly these characters. -/
def text (t : String) : Parser σ Unit := fun s cs =>
  ((dropMatching (fun p c => p = c) t.toList cs).map fun rest => ((), rest), s)

/-- These characters, where small and capital ASCII letters count as the same. -/
def word (t : String) : Parser σ Unit := fun s cs =>
  ((dropMatching (fun p c => p.toLower = c.toLower) t.toList cs).map fun rest => ((), rest), s)

/-- Exactly these characters are taken off, and nothing else. -/
theorem dropMatching_eq_some_iff {t cs rest : List Char} :
    dropMatching (fun p c => p = c) t cs = some rest ↔ cs = t ++ rest := by
  induction t generalizing cs with
  | nil => simp [dropMatching]
  | cons p ps ih =>
    cases cs with
    | nil => simp [dropMatching]
    | cons c cs =>
      by_cases h : p = c
      · simp [dropMatching, h, ih]
      · have h' : c ≠ p := fun e => h e.symm
        simp [dropMatching, h, h']

/-- Whether the text that follows has a property; nothing is consumed. -/
def ahead (p : List Char → Bool) : Parser σ Bool := fun s cs => (some (p cs, cs), s)

/-- Whether the next character is of a class; nothing is consumed. -/
def nextIs (p : Char → Bool) : Parser σ Bool := ahead fun cs => cs.head?.any p

/-- The end of the text. -/
def atEnd : Parser σ Unit := fun s cs => (if cs.isEmpty then some ((), cs) else none, s)

/-- What a parser reads, and how it stands in the text. -/
def slice (p : Parser σ α) : Parser σ (α × List Char) := fun s cs =>
  match p s cs with
  | (some (a, rest), s') => (some ((a, cs.take (cs.length - rest.length)), rest), s')
  | (none, s') => (none, s')

/-! ### Repetition -/

/-- A value that may be missing. -/
def optional? (p : Parser σ α) : Parser σ (Option α) := (some <$> p) <|> pure none

/-- Whether a parser succeeds. -/
def present (p : Parser σ α) : Parser σ Bool := (do let _ ← p; pure true) <|> pure false

/-- As many values as there are. -/
def manyFrom (p : Parser σ α) (s : σ) (cs : List Char) : Option (List α × List Char) × σ :=
  match p s cs with
  | (none, s') => (some ([], cs), s')
  | (some (a, rest), s') =>
    if rest.length < cs.length then
      match manyFrom p s' rest with
      | (some (as, rest'), s'') => (some (a :: as, rest'), s'')
      | (none, s'') => (none, s'')
    else (some ([a], rest), s')
termination_by cs.length

/-- As many values as there are. -/
def many (p : Parser σ α) : Parser σ (List α) := manyFrom p

/-- As many values as there are, at least one. -/
def many1 (p : Parser σ α) : Parser σ (List α) := do
  let a ← p
  let as ← many p
  pure (a :: as)

/-- Values with separators between them, at least one. -/
def sepBy1 (p : Parser σ α) (separator : Parser σ β) : Parser σ (List α) := do
  let a ← p
  let as ← many do
    let _ ← separator
    p
  pure (a :: as)

/-- Values with separators between them. -/
def sepBy (p : Parser σ α) (separator : Parser σ β) : Parser σ (List α) :=
  sepBy1 p separator <|> pure []

/-- Repetition never fails. -/
theorem isSome_many (p : Parser σ α) (s : σ) (cs : List Char) : (many p s cs).1.isSome = true := by
  unfold many
  fun_induction manyFrom p s cs with
  | case1 => rfl
  | case2 => rfl
  | case3 s cs a rest s' _ _ s'' hn ih => rw [hn] at ih; simp at ih
  | case4 => rfl

/-! ### Nesting -/

/-- Rules that may contain one another, up to a depth. -/
def nestedTo {κ : Type} (rule : (κ → Parser σ α) → κ → Parser σ α) : Nat → κ → Parser σ α
  | 0 => fun _ => fail
  | depth + 1 => fun k s cs => rule (nestedTo rule depth) k s cs

/-- Rules that may contain one another after at least one character. -/
def nestedBy {κ : Type} (rule : (κ → Parser σ α) → κ → Parser σ α) (k : κ) : Parser σ α :=
  fun s cs => nestedTo rule (cs.length + 1) k s cs

/-- A rule that may contain itself after at least one character. -/
def nested (rule : Parser σ α → Parser σ α) : Parser σ α :=
  nestedBy (fun inside (_ : Unit) => rule (inside ())) ()

end Parser

end StarShapes
