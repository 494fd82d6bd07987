import StarShapes.Rdf.Vocabulary

/-!
RDF terms, and the variables that queries put in their place.

* `Literal`: a text with its datatype or its language tag. A simple literal is the same thing as
  a literal of datatype `xsd:string` (`Literal.simple_eq_typed`).
* `Term`: a named node, a blank node, a literal or a variable.
* `Term.name?`: the name under which the triples of a subject are grouped; literals have none
  (`Term.name?_eq_none_iff`).
* `Term.text`: a term as it is written in messages.
-/

namespace StarShapes

/-- What a literal says of its text. -/
inductive Annotation where
  /-- The text is a value of this datatype. -/
  | datatype (iri : String)
  /-- The text is in this language. -/
  | language (tag : String)
  deriving DecidableEq, Repr, Inhabited

/-- A literal: a text and what it is. -/
structure Literal where
  /-- The text, its lexical form. -/
  value : String
  /-- The datatype or the language tag. -/
  annotation : Annotation
  deriving DecidableEq, Repr, Inhabited

namespace Literal

/-- A literal without annotation is a string. -/
def simple (value : String) : Literal := ⟨value, .datatype Vocabulary.xsdString⟩

/-- A literal of the given datatype. -/
def typed (value datatype : String) : Literal := ⟨value, .datatype datatype⟩

/-- A literal in the given language. -/
def tagged (value tag : String) : Literal := ⟨value, .language tag⟩

theorem simple_eq_typed (value : String) : simple value = typed value Vocabulary.xsdString := rfl

/-- The datatype, which language-tagged literals have in common. -/
def datatype (l : Literal) : String :=
  match l.annotation with
  | .datatype iri => iri
  | .language _ => Vocabulary.rdfLangString

/-- The language tag of a tagged literal. -/
def language? (l : Literal) : Option String :=
  match l.annotation with
  | .datatype _ => none
  | .language tag => some tag

/-- The characters that stand for one character inside a quoted text: line ends, the quote and
the backslash are written with a backslash. -/
def escapeChar : Char → List Char
  | '\n' => ['\\', 'n']
  | '\r' => ['\\', 'r']
  | '\x22' => ['\\', '\x22']
  | '\\' => ['\\', '\\']
  | c => [c]

/-- A text between quotes. -/
def quote (s : String) : String :=
  String.ofList ('\x22' :: s.toList.flatMap escapeChar ++ ['\x22'])

/-- A literal as it is written in messages; the datatype `xsd:string` is left out. -/
def text (l : Literal) : String :=
  match l.annotation with
  | .language tag => quote l.value ++ "@" ++ tag
  | .datatype iri =>
    if iri = Vocabulary.xsdString then quote l.value
    else quote l.value ++ "^^<" ++ iri ++ ">"

end Literal

/-- A term of a triple: an RDF term, or a variable of a query. -/
inductive Term where
  /-- A node with an IRI. -/
  | named (iri : String)
  /-- A node with a label that has a meaning in its document alone. -/
  | blank (label : String)
  /-- A value. -/
  | literal (value : Literal)
  /-- A variable of a query. -/
  | var (name : String)
  deriving DecidableEq, Repr, Inhabited

namespace Term

/-- The IRI of a named node. -/
def iri? : Term → Option String
  | named iri => some iri
  | _ => none

/-- The literal that a term is. -/
def literal? : Term → Option Literal
  | literal l => some l
  | _ => none

/-- Whether a term is a literal. -/
def isLiteral : Term → Bool
  | literal _ => true
  | _ => false

/-- The datatype of a literal. -/
def datatype? (t : Term) : Option String := t.literal?.map Literal.datatype

/-- The name under which the triples of this subject are grouped: the IRI, the variable, or the
blank node's label after `_:`. -/
def name? : Term → Option String
  | named iri => some iri
  | blank label => some ("_:" ++ label)
  | var name => some name
  | literal _ => none

/-- The name of a node of an RDF graph: variables and literals are none. -/
def nodeName? : Term → Option String
  | named iri => some iri
  | blank label => some ("_:" ++ label)
  | _ => none

theorem name?_eq_none_iff {t : Term} : t.name? = none ↔ t.isLiteral = true := by
  cases t <;> simp [name?, isLiteral]

/-- A node of a graph is grouped under its own name. -/
theorem name?_of_nodeName? {t : Term} {n : String} (h : t.nodeName? = some n) :
    t.name? = some n := by
  cases t <;> simp_all [name?, nodeName?]

/-- A term as it is written in messages. -/
def text : Term → String
  | named iri => "<" ++ iri ++ ">"
  | blank label => "_:" ++ label
  | literal l => l.text
  | var name => "?" ++ name

end Term

end StarShapes
