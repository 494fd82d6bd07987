import StarShapes.Sparql.Path

/-!
Triples as they are written, with lists and bracketed nodes in the place of terms.

* `Link`: a triple, or a path between two nodes. `GraphPattern.ofLinks` makes a pattern of them.
* `connect`: the links that a verb stands for. Inverse paths are turned round, and a sequence goes
  through a new blank node.
* `describe`: the links of a subject with its properties. What is written inside of the objects
  comes first.
* `Style`: patterns may hold paths, templates may not.
-/

namespace StarShapes.Sparql

open StarShapes.Parser

/-- A triple, or a path between two nodes. -/
inductive Link where
  /-- A triple. -/
  | triple (t : TriplePattern)
  /-- A path. -/
  | path (subject : Term) (path : PropertyPath) (object : Term)
  deriving DecidableEq, Repr

/-- The pattern of a link. -/
def Link.pattern : Link → GraphPattern
  | triple t => .basic [t]
  | path subject p object => .path subject p object

/-- All of some links; triples that come together stay together. -/
def GraphPattern.ofLinks (links : List Link) : GraphPattern :=
  let groups := links.foldr (fun link acc =>
    match link, acc with
    | .triple t, .basic ts :: rest => .basic (t :: ts) :: rest
    | link, acc => link.pattern :: acc) []
  mergeAll groups

/-- What stands between subject and object. -/
inductive Verb where
  /-- A variable. -/
  | var (name : String)
  /-- A path. -/
  | path (p : PropertyPath)
  deriving DecidableEq, Repr

/-- A term and the links that are written inside of it. -/
structure Node where
  /-- The term. -/
  term : Term
  /-- The links inside. -/
  inner : List Link

/-- A verb with its objects. -/
structure Property where
  /-- The verb. -/
  verb : Verb
  /-- The objects. -/
  objects : List Node

/-! ### Links -/

/-- The links from a subject along a path to an object. -/
def connectPath (subject : Term) (path : PropertyPath) (object : Term) : Reader (List Link) :=
  match path with
  | .predicate iri => pure [.triple ⟨subject, .iri iri, object⟩]
  | .inverse p => connectPath object p subject
  | .sequence p q => do
    let middle ← freshNode
    let first ← connectPath subject p middle
    let second ← connectPath middle q object
    pure (first ++ second)
  | p => pure [.path subject p object]

/-- The links that a verb stands for. -/
def connect (subject : Term) (verb : Verb) (object : Term) : Reader (List Link) :=
  match verb with
  | .var name => pure [.triple ⟨subject, .var name, object⟩]
  | .path p => connectPath subject p object

/-- The links of a subject with its properties: first those inside of the objects. -/
def describe (subject : Term) (properties : List Property) : Reader (List Link) := do
  let inner := properties.flatMap fun p => p.objects.flatMap Node.inner
  let own ← properties.mapM fun p => p.objects.mapM fun o => connect subject p.verb o.term
  pure (inner ++ own.flatten.flatten)

/-- A triple with an IRI as its predicate. -/
def Link.of (subject : Term) (predicate : String) (object : Term) : Link :=
  .triple ⟨subject, .iri predicate, object⟩

/-- The cells of a list, of which the elements are given from last to first. -/
def listCells (rest : Term) (sofar : List Link) : List Node → Reader Node
  | [] => pure ⟨rest, sofar⟩
  | element :: elements => do
    let cell ← freshNode
    let links := [Link.of cell Vocabulary.rdfFirst element.term, .of cell Vocabulary.rdfRest rest]
    listCells cell (sofar ++ links ++ element.inner) elements

/-! ### Reading -/

/-- Where triples stand. -/
inductive Style where
  /-- In a pattern. -/
  | pattern
  /-- In a template. -/
  | template
  deriving DecidableEq, Repr

/-- A verb. -/
def verb : Style → Reader Verb
  | .pattern => (.path <$> propertyPath) <|> (.var <$> variableName)
  | .template =>
    (.var <$> variableName) <|> ((.path ∘ .predicate) <$> (iri <|> typeKeyword))

/-- A verb with its objects. -/
def property (style : Style) (node : Reader Node) : Reader Property := do
  let v ← verb style
  let objects ← sepBy1 node (symbol ",")
  pure ⟨v, objects⟩

/-- Properties with semicolons between them. In a pattern, all but the first may be left out. -/
def properties (style : Style) (node : Reader Node) : Reader (List Property) :=
  match style with
  | .pattern => do
    let first ← property .pattern node
    let more ← many do
      symbol ";"
      optional? (property .pattern node)
    pure (first :: more.filterMap id)
  | .template => sepBy1 (property .template node) (symbol ";")

/-- A list or a node with properties, between brackets. -/
def bracketedNode (style : Style) (node : Reader Node) : Reader Node :=
  (do
    symbol "("
    let elements ← many1 node
    symbol ")"
    listCells (.named Vocabulary.rdfNil) [] elements.reverse) <|>
  (do
    symbol "["
    let ps ← properties style node
    symbol "]"
    let blank ← freshNode
    let links ← describe blank ps
    pure ⟨blank, links⟩)

/-- A node. -/
def node (style : Style) : Reader Node := nested fun inside =>
  (do let t ← simpleTerm; pure ⟨t, []⟩) <|> bracketedNode style inside

/-- A subject with its properties. A node in brackets needs none. -/
def sameSubject (style : Style) : Reader (List Link) :=
  (do
    let subject ← simpleTerm
    let ps ← properties style (node style)
    describe subject ps) <|>
  (do
    let subject ← bracketedNode style (node style)
    let ps ← properties style (node style) <|> pure []
    let links ← describe subject.term ps
    pure (subject.inner ++ links))

/-- Subjects with their properties and full stops between them, of which one may come last. -/
def triplesBlock (style : Style) : Reader (List Link) := do
  let subjects ← sepBy1 (sameSubject style) (symbol ".")
  let _ ← optional? (symbol ".")
  pure subjects.flatten

end StarShapes.Sparql
