import StarShapes.Rdf.Graph
import StarShapes.Turtle.Term

/-!
Turtle documents.

* `Value`: a term, or a quoted triple, of which nothing is kept.
* `value`, `properties`: a term with all that is stated inside of it, and what is stated of a
  subject. A triple is stated as soon as its object is complete, so what is inside of an object
  comes before the triple.
* `statement`: a declaration, or a subject with its properties.
* `Graph.ofTurtle?`: the graph of a document.
-/

namespace StarShapes.Turtle

open StarShapes.Parser

/-- A term; none for a quoted triple. -/
abbrev Value : Type := Option Term

/-- State a triple. Triples with quoted ones, and with literals as subjects, are left out. -/
def emit (subject : Value) (predicate : String) (object : Value) : Reader Unit :=
  match subject.bind Term.nodeName?, object with
  | some name, some object => Parser.modify fun r => r.add ⟨name, predicate, object, false⟩
  | _, _ => pure ()

/-- Something between two brackets. Not too many of them may be open at a time. -/
def within {α : Type} (left right : String) (body : Reader α) : Reader α := do
  symbol left
  let r ← Parser.get
  let r ← ofOption r.enter?
  Parser.modify fun _ => r
  let a ← body
  symbol right
  Parser.modify Reading.leave
  pure a

/-- A quoted triple; lists and nodes with properties cannot stand in it. -/
def quotedTriple : Reader Unit := nested fun inside => within "<<" ">>" do
  inside <|> (do let _ ← labelledNode) <|> (do let _ ← emptyNode) <|> (do let _ ← iri)
  let _ ← verb
  inside <|> (do let _ ← word)

/-! ### Lists, nodes with properties -/

/-- The cells of a list with their elements, up to the bracket that ends it. -/
def listElements (value : Reader Value) : Reader (List Term) := many do
  let done ← ahead fun cs => (dropBlanks cs).head? = some ')'
  guard !done
  let cell ← freshNode
  let element ← value
  emit cell Vocabulary.rdfFirst element
  pure cell

/-- State what follows each of some cells. -/
def emitRests : List Term → Reader Unit
  | [] => pure ()
  | cell :: cells => do
    emit cell Vocabulary.rdfRest (cells.head?.getD (.named Vocabulary.rdfNil))
    emitRests cells

/-- A list. -/
def list (value : Reader Value) : Reader Term := do
  let cells ← within "(" ")" (listElements value)
  emitRests cells
  pure (cells.head?.getD (.named Vocabulary.rdfNil))

/-- A node with properties, of which there may be several lists. -/
def nodeWithProperties (properties : Value → Reader Unit) : Reader Term := within "[" "]" do
  let node ← freshNode
  let _ ← many1 (properties node)
  pure node

/-- A value, beside the properties that may stand in it. -/
def value (properties : Value → Reader Unit) : Reader Value := nested fun inside =>
  (some <$> word) <|> (do quotedTriple; pure none) <|> (some <$> list inside) <|>
    (some <$> nodeWithProperties properties)

/-- What is stated about the triple before it. -/
def annotation (properties : Value → Reader Unit) : Reader Unit :=
  (do
    symbol "\x7b|"
    properties none
    symbol "|\x7d") <|> pure ()

/-- A verb with its objects. -/
def property (properties : Value → Reader Unit) (subject : Value) : Reader Unit := do
  let predicate ← verb
  let _ ← sepBy1 (do
    let object ← value properties
    emit subject predicate object
    annotation properties) (symbol ",")

/-- The properties of a subject. Semicolons may be repeated, and may come last. -/
def properties : Value → Reader Unit := nestedBy fun inside subject => do
  property inside subject
  let _ ← many do
    let _ ← many1 (symbol ";")
    property inside subject
  let _ ← many (symbol ";")

/-! ### Statements -/

/-- Set the base. -/
def declareBase : Reader Unit := do
  let base ← bracketedIri
  Parser.modify fun r => { r with base? := some base }

/-- Declare a prefix. -/
def declarePrefix : Reader Unit := do
  let label ← token names.prefixLabel
  let iri ← bracketedIri
  Parser.modify fun r =>
    { r with prefixes := r.prefixes.set (String.ofList label) (String.ofList iri.text) }

/-- A subject with its properties. A node with properties needs no others. -/
def triples : Reader Unit :=
  (do
    let subject ← (some <$> (labelledNode <|> emptyNode <|> (.named <$> iri))) <|>
      (do quotedTriple; pure none) <|> (some <$> list (value properties))
    properties subject) <|>
  (do
    let subject ← nodeWithProperties properties
    properties subject <|> pure ())

/-- A declaration, or a subject with its properties. What starts like the keyword of a declaration
is one. -/
def statement : Reader Unit :=
  (do symbol "@prefix"; declarePrefix; symbol ".") <|>
  (do symbol "@base"; declareBase; symbol ".") <|>
  branch (keyword "BASE") (fun _ => declareBase)
    (branch (keyword "PREFIX") (fun _ => declarePrefix) do
      triples
      symbol ".")

/-- A document. -/
def document : Reader Unit := do
  let _ ← many statement
  blanks
  atEnd

end StarShapes.Turtle

namespace StarShapes.Graph

/-- The graph of a document. -/
def ofTurtle? (text : String) : Option Graph :=
  match Turtle.document .empty text.toList with
  | (some _, r) => some ⟨r.triples⟩
  | (none, _) => none

end StarShapes.Graph
