import StarShapes.Sparql.Draft
import StarShapes.Sparql.Group

/-!
Whole queries.

* `queryPattern`: the pattern of a query of any of the four forms. What a query constructs or
  describes is read but does not count, except that a description asks for its variables.
* `Query.ofSparql?`: the stars of the query that a text is.
-/

namespace StarShapes.Sparql

open StarShapes.Parser

/-- The declarations of the base and of prefixes, each beside those before it. -/
def prologue : Reader Unit := do
  let _ ← many <|
    (do
      keyword "BASE"
      let base ← token bracketedIri
      Parser.modify fun s => { s with base? := some base }) <|>
    (do
      keyword "PREFIX"
      let label ← token names.prefixLabel
      let r ← token bracketedIri
      Parser.modify fun s =>
        { s with prefixes := s.prefixes.set (String.ofList label) (String.ofList r.text) })

/-- The data that a query is asked of, which does not count. -/
def dataset : Reader Unit := do
  let _ ← many do
    keyword "FROM"
    (do let _ ← iri) <|> (do keyword "NAMED"; let _ ← iri)

/-- The data that a query is asked of, and its pattern. Between data and keyword there are no
blanks. -/
def datasetAndWhere : Reader GraphPattern := do
  blanks
  dataset
  word "WHERE" <|> pure ()
  group

/-- The rest of a query after its pattern. -/
def finishQuery (projection : Projection) (body : GraphPattern) : Reader GraphPattern := do
  let m ← modifiers group
  finishSelection .keep projection m body

/-- A query for values of variables. -/
def selectQuery : Reader GraphPattern := do
  let (duplicates, projection) ← selectClause group
  dataset
  let body ← whereClause group
  let m ← modifiers group
  finishSelection duplicates projection m body

/-- Triples between braces, without paths. Between the braces there may be a single full stop. -/
def template : Reader Unit := do
  symbol "\x7b"
  let _ ← sepBy (sameSubject .template) (symbol ".")
  let _ ← optional? (symbol ".")
  symbol "\x7d"

/-- Triples between braces, without paths, which are a pattern too. -/
def templatePattern : Reader GraphPattern := do
  symbol "\x7b"
  let links ← triplesBlock .template <|> pure []
  symbol "\x7d"
  pure (.ofLinks links)

/-- A query that makes a graph. Without a pattern its template is the pattern. -/
def constructQuery : Reader GraphPattern :=
  (do
    keyword "CONSTRUCT"
    template
    dataset
    let body ← whereClause group
    finishQuery .solutions body) <|>
  (do
    keyword "CONSTRUCT"
    dataset
    keyword "WHERE"
    let body ← templatePattern
    finishQuery .solutions body)

/-- What is described: a variable, or an IRI that a new variable stands for. -/
def describedItem : Reader Item := do
  match ← iriOrVar with
  | .var name => pure (.var name)
  | .iri _ => do
    let name ← fresh
    pure (.defined .closed name)

/-- A query for the description of nodes; it may have no pattern. -/
def describeQuery : Reader GraphPattern := do
  keyword "DESCRIBE"
  let projection ←
    (do symbol "*"; pure .solutions) <|> (do pure (.items (← many1 describedItem)))
  let body ← datasetAndWhere <|> (do dataset; pure .nothing)
  finishQuery projection body

/-- A query for the existence of solutions. -/
def askQuery : Reader GraphPattern := do
  keyword "ASK"
  let body ← datasetAndWhere
  finishQuery .solutions body

/-- The pattern of a query. -/
def queryPattern : Reader GraphPattern := do
  prologue
  let g ← selectQuery <|> constructQuery <|> describeQuery <|> askQuery
  blanks
  atEnd
  pure g

end StarShapes.Sparql

namespace StarShapes.Query

/-- The query that a text is, as stars; numbered characters are read before anything else. -/
def ofSparql? (text : String) : Option Query :=
  match Sparql.queryPattern .empty (unescapeCodePoints text.toList) with
  | (some (g, _), _) => some (ofPattern g)
  | (none, _) => none

end StarShapes.Query
