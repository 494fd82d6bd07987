import StarShapes.Sparql.Select
import StarShapes.Sparql.Triples

/-!
Groups: graph patterns between braces.

* `Part`: what a group consists of. `combine?` puts the parts together from left to right; the
  conditions of a group apply to all of it, wherever they stand, and a variable that has a value
  cannot be bound.
* `group`: a group, which may be a selection.
-/

namespace StarShapes.Sparql

open StarShapes.Parser

/-- A part of a group. -/
inductive Part where
  /-- A pattern that is had if possible. -/
  | optional (g : GraphPattern)
  /-- A pattern whose solutions are taken away. -/
  | minus (g : GraphPattern)
  /-- A variable that an expression defines. -/
  | bind (name : String)
  /-- A condition. -/
  | filter
  /-- Any other pattern. -/
  | pattern (g : GraphPattern)

/-- A group with one more part; conditions are left for the end. -/
def Part.add? (g : GraphPattern) : Part → Option GraphPattern
  | optional (.filter right) => some (.leftJoin g right)
  | optional right => some (.leftJoin g right)
  | minus right => some (.minus g right)
  | bind name => if g.scope.contains name then none else some (.extend g name)
  | filter => some g
  | pattern right => some (g.merge right)

/-- Whether a part is a condition. -/
def Part.isFilter : Part → Bool
  | filter => true
  | _ => false

/-- The pattern of a group. -/
def combine? (start : GraphPattern) (parts : List Part) : Option GraphPattern :=
  (parts.foldlM Part.add? start).map (GraphPattern.wrapIf (parts.any Part.isFilter) .filter)

/-- A group without conditions is what its parts make from left to right. -/
theorem combine?_of_not_isFilter {start : GraphPattern} {parts : List Part}
    (h : parts.any Part.isFilter = false) :
    combine? start parts = parts.foldlM Part.add? start := by
  have hid : GraphPattern.wrapIf false .filter = id := rfl
  rw [combine?, h, hid, Option.map_id_fun, id]

/-! ### Reading -/

/-- From here on, the labels of blank nodes met so far belong to another group. -/
def closeLabels : Reader Unit := Parser.modify Session.closeGroup

/-- A part of a group that is no block of triples, beside the groups inside of it. -/
def part (group : Reader GraphPattern) : Reader Part :=
  (.pattern <$> chain group (keyword "UNION") .union) <|>
  (do
    keyword "OPTIONAL"
    .optional <$> group) <|>
  (do
    keyword "MINUS"
    .minus <$> group) <|>
  (do
    keyword "GRAPH"
    let name ← iriOrVar
    let g ← group
    pure (.pattern (.graph name g))) <|>
  (do
    keyword "SERVICE"
    keyword "SILENT"
    let name ← iriOrVar
    let g ← group
    pure (.pattern (.service name g))) <|>
  (do
    keyword "SERVICE"
    let name ← iriOrVar
    let g ← group
    pure (.pattern (.service name g))) <|>
  (do
    keyword "FILTER"
    let _ ← constraint group
    pure .filter) <|>
  (do
    keyword "BIND"
    symbol "("
    let _ ← expression group
    keyword "AS"
    let name ← variableName
    symbol ")"
    pure (.bind name)) <|>
  (do
    keyword "VALUES"
    let names ← dataBlock
    pure (.pattern (.values names)))

/-- What stands between the braces of a group that is no selection. -/
def groupBody (group : Reader GraphPattern) : Reader GraphPattern := do
  let triples : Reader GraphPattern := GraphPattern.ofLinks <$> triplesBlock .pattern
  let start? ← optional? triples
  let parts ← many do
    let p ← part group
    let _ ← optional? (symbol ".")
    let after? ← optional? triples
    pure (p :: (after?.map Part.pattern).toList)
  ofOption (combine? (start?.getD .nothing) parts.flatten)

/-- A group. -/
def group : Reader GraphPattern := nested fun inside =>
  let between (body : Reader GraphPattern) : Reader GraphPattern := do
    symbol "\x7b"
    closeLabels
    let g ← body
    closeLabels
    symbol "\x7d"
    pure g
  between (groupBody inside) <|> between (subSelect inside)

end StarShapes.Sparql
