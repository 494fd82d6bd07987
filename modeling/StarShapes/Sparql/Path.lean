import StarShapes.Sparql.Term

/-!
Property paths as they are written. `/` binds more closely than `|`, both group to the left, and the
marks for repetition come last. A question mark before a name or a digit is no such mark but starts
a variable; a plus sign is one even before a digit.
-/

namespace StarShapes.Sparql

open StarShapes.Parser

/-- A predicate, or `^` and a predicate: what a negated set consists of. Inverse ones come right. -/
def negatedMember : Reader (String ⊕ String) :=
  (do symbol "^"; .inr <$> (iri <|> typeKeyword)) <|> (.inl <$> (iri <|> typeKeyword))

/-- The path along any predicate but those given; inverse ones are excluded the other way round. -/
def pathExcept (members : List (String ⊕ String)) : PropertyPath :=
  let forward := members.filterMap Sum.getLeft?
  let backward := members.filterMap Sum.getRight?
  if backward.isEmpty then .except forward
  else if forward.isEmpty then .inverse (.except backward)
  else .alternative (.except forward) (.inverse (.except backward))

/-- A set of predicates that the path must not go along. -/
def negatedSet : Reader PropertyPath :=
  (do
    symbol "("
    let members ← sepBy1 negatedMember (symbol "|")
    symbol ")"
    pure (pathExcept members)) <|>
  (do
    let member ← negatedMember
    pure (pathExcept [member]))

/-- A predicate, a negated set or a path between parentheses. -/
def pathPrimary (path : Reader PropertyPath) : Reader PropertyPath :=
  (.predicate <$> (iri <|> typeKeyword)) <|>
  (do symbol "!"; negatedSet) <|>
  (do
    symbol "("
    let p ← path
    symbol ")"
    pure p)

/-- A mark for repetition. -/
def repetition : Reader (PropertyPath → PropertyPath) := token <|
  (do text "*"; pure .zeroOrMore) <|>
  (do text "+"; pure .oneOrMore) <|>
  (do
    text "?"
    let more ← nextIs fun c => c.isDigit || Alphabet.basic.isNameStart c
    guard !more
    pure .zeroOrOne)

/-- A part of a path with its mark. -/
def pathElement (path : Reader PropertyPath) : Reader PropertyPath := do
  let p ← pathPrimary path
  let mark? ← optional? repetition
  pure (mark?.elim p (· p))

/-- A part of a path, which may be inverse. -/
def pathStep (path : Reader PropertyPath) : Reader PropertyPath :=
  (do symbol "^"; .inverse <$> pathElement path) <|> pathElement path

/-- Values with separators, combined from the left. -/
def chain {α : Type} (item : Reader α) (separator : Reader Unit) (combine : α → α → α) :
    Reader α := do
  let first ← item
  let more ← many do
    separator
    item
  pure (more.foldl combine first)

/-- A property path. -/
def propertyPath : Reader PropertyPath := nested fun path =>
  chain (chain (pathStep path) (symbol "/") .sequence) (symbol "|") .alternative

end StarShapes.Sparql
