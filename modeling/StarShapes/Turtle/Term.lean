import StarShapes.Collection.Keyed
import StarShapes.Rdf.Iri
import StarShapes.Rdf.LanguageTag
import StarShapes.Rdf.Triple
import StarShapes.Text.Blank
import StarShapes.Text.Name
import StarShapes.Text.Quoted

/-!
The terms of Turtle documents, with the blanks before them.

* `Reading`: what is known at some point of a document: base, prefixes, triples, how many blank
  nodes were made up and how deeply the point is nested.
* `generatedLabel`: the label of a blank node without a label, by its number. A label of a document
  that looks like one of these gets one more letter (`writtenLabel`).
* `word`: the terms that consist of one word, that is, all but lists, nodes with properties and
  quoted triples.
-/

namespace StarShapes.Turtle

open StarShapes.Parser

/-! ### What is known -/

/-- What is known at some point of a document. -/
structure Reading where
  /-- The base of relative IRIs. -/
  base? : Option IriReference
  /-- The prefixes and their IRIs. -/
  prefixes : Dict String String
  /-- The number of blank nodes that were made up. -/
  count : Nat
  /-- The number of brackets around this point. -/
  depth : Nat
  /-- The triples, in the order in which they were complete. -/
  triples : List Triple

namespace Reading

/-- Before anything is read. -/
def empty : Reading := ⟨none, .empty, 0, 0, []⟩

/-- The number of brackets that may be open at a time. -/
def maxDepth : Nat := 128

/-- One more bracket, unless there are too many. -/
def enter? (r : Reading) : Option Reading :=
  if r.depth < maxDepth then some { r with depth := r.depth + 1 } else none

/-- One bracket less. -/
def leave (r : Reading) : Reading := { r with depth := r.depth - 1 }

/-- One more triple. -/
def add (r : Reading) (t : Triple) : Reading := { r with triples := r.triples ++ [t] }

end Reading

/-- A parser of a part of a document. -/
abbrev Reader (α : Type) : Type := Parser Reading α

/-- What the names of documents look like. -/
def names : NameRules := ⟨.full, .single, .anywhere⟩

/-! ### Blank nodes -/

/-- The label of a blank node without a label: at least eight digits after four letters. -/
def generatedLabel (n : Nat) : String :=
  let digits := toString n
  "riog" ++ String.ofList (List.replicate (8 - digits.length) '0') ++ digits

/-- Whether a label may be a generated one, with some letters after it. -/
def looksGenerated : List Char → Bool
  | 'r' :: 'i' :: 'o' :: 'g' :: cs =>
    (cs.take 8).length = 8 && (cs.take 8).all Char.isDigit && (cs.drop 8).all (· = 'd')
  | _ => false

/-- The label of a blank node with a label: one letter more if it may be a generated one. -/
def writtenLabel (label : List Char) : String :=
  String.ofList (if looksGenerated label then label ++ ['d'] else label)

/-- A new blank node. -/
def freshNode : Reader Term := do
  Parser.modify fun r => { r with count := r.count + 1 }
  let r ← Parser.get
  pure (.blank (generatedLabel r.count))

/-- A blank node with a label. -/
def labelledNode : Reader Term := token do
  let label ← names.blankLabel
  pure (.blank (writtenLabel label))

/-- A blank node without a label or properties. -/
def emptyNode : Reader Term := do
  emptyBrackets "[" "]"
  freshNode

/-! ### IRIs -/

/-- A character that may stand as it is between angle brackets. -/
def isIriChar (c : Char) : Bool :=
  32 < c.toNat && !("<>\"\x7b\x7d|^`\\".toList.contains c)

/-- An IRI between angle brackets. -/
def bracketedIri : Reader IriReference := token do
  text "<"
  let cs ← many (stringPiece isIriChar numberedChar)
  text ">"
  let r ← Parser.get
  ofOption (readIri? r.base? cs.flatten)

/-- An IRI with a prefix; what the parts make up is left as it is. -/
def prefixedIri : Reader String := token do
  let label ← names.prefixLabel
  let r ← Parser.get
  let start ← ofOption (r.prefixes.find? (String.ofList label))
  let rest ← names.localName <|> pure []
  pure (start ++ String.ofList rest)

/-- An IRI. -/
def iri : Reader String :=
  (do let r ← bracketedIri; pure (String.ofList r.text)) <|> prefixedIri

/-- A character that makes a word longer. -/
def continuesWord (c : Char) : Bool :=
  c = ':' || 128 ≤ c.toNat || Alphabet.full.isNameChar c

/-- What stands between subject and object: an IRI, or the keyword for a class. -/
def verb : Reader String :=
  (token do
    text "a"
    let more ← nextIs fun c => c = '.' || continuesWord c
    guard !more
    pure Vocabulary.rdfType) <|>
  iri

/-! ### Literals -/

/-- A language tag: all letters, digits and hyphens after an at sign, in small letters. -/
def languageTag : Reader String := token do
  text "@"
  let tag ← takeWhile fun c => c.isAlphanum || c = '-'
  guard (isLanguageTag tag)
  pure (String.ofList (tag.map Char.toLower))

/-- A string with its datatype or language. -/
def textLiteral : Reader Literal := do
  let value ← token (strictString (escape <|> numberedChar))
  (do
    let tag ← languageTag
    pure (.tagged value tag)) <|>
  (do
    symbol "^^"
    let datatype ← iri
    pure (.typed value datatype)) <|>
  (do
    let more ← ahead fun cs => (dropBlanks cs).head?.any fun c => c = '@' || c = '^'
    guard !more
    pure (.simple value))

/-- Whether a point is a part of a number, and not the end of a statement. -/
def pointGoesOn : List Char → Bool
  | '.' :: c :: _ => c.isDigit || c = 'e' || c = 'E'
  | _ => false

/-- The datatype of a number, which is read. -/
def numberKind : Reader String := do
  text "+" <|> text "-" <|> pure ()
  let before ← takeWhile Char.isDigit
  let hasPoint ← ahead pointGoesOn
  let after ← if hasPoint then (do text "."; takeWhile Char.isDigit) else pure []
  let hasExponent ← nextIs fun c => c = 'e' || c = 'E'
  if hasExponent then
    guard !(before.isEmpty && after.isEmpty)
    let _ ← satisfy fun _ => true
    text "+" <|> text "-" <|> pure ()
    let _ ← takeWhile1 Char.isDigit
    pure Vocabulary.xsdDouble
  else if hasPoint then
    guard !after.isEmpty
    pure Vocabulary.xsdDecimal
  else
    guard !before.isEmpty
    pure Vocabulary.xsdInteger

/-- A number. -/
def number : Reader Literal := token do
  let (datatype, cs) ← slice numberKind
  pure (.typed (String.ofList cs) datatype)

/-- A truth value, whatever follows. -/
def truthValue : Reader Literal := token <|
  (do text "true"; pure (.typed "true" Vocabulary.xsdBoolean)) <|>
  (do text "false"; pure (.typed "false" Vocabulary.xsdBoolean))

/-- A literal. -/
def literal : Reader Literal := textLiteral <|> number <|> truthValue

/-- A term of one word. -/
def word : Reader Term :=
  (.literal <$> literal) <|> labelledNode <|> emptyNode <|> (.named <$> iri)

end StarShapes.Turtle
