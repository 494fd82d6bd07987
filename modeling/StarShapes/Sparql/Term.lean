import StarShapes.Rdf.LanguageTag
import StarShapes.Rdf.Term
import StarShapes.Sparql.GraphPattern
import StarShapes.Sparql.Session
import StarShapes.Text.Name
import StarShapes.Text.Quoted

/-!
The terms of queries: IRIs, variables, literals and blank nodes, with the blanks before them.

* Names of queries use the letters of the basic plane, and the dots of a local part stand in one
  place (`names`).
* A number keeps the text that it is written with; a sign may have blanks after it, and a point
  belongs to the number before it.
* A language tag is written in small letters.
* The label of a blank node belongs to one group (`Session.useLabel?`).
-/

namespace StarShapes.Sparql

open StarShapes.Parser

/-- What the names of queries look like. -/
def names : NameRules := ⟨.basic, .anywhere, .onePlace⟩

/-! ### IRIs and variables -/

/-- An IRI between angle brackets. -/
def bracketedIri : Reader IriReference := do
  text "<"
  let cs ← takeWhile (· ≠ '>')
  text ">"
  resolve cs

/-- The IRI that a prefix and a local part make up. -/
def prefixedIri (localPart : Reader (List Char)) : Reader String := do
  let label ← names.prefixLabel
  let start ← expand label
  let rest ← localPart
  let r ← ofOption (readIri? none (start ++ rest))
  pure (String.ofList r.text)

/-- An IRI. -/
def iri : Reader String := token <|
  (do let r ← bracketedIri; pure (String.ofList r.text)) <|>
  prefixedIri names.localName <|>
  prefixedIri (pure [])

/-- A variable. -/
def variableName : Reader String := token do
  text "?" <|> text "$"
  let first ← satisfy fun c => Alphabet.basic.isNameStart c || c.isDigit
  let rest ← takeWhile fun c => c ≠ '-' && Alphabet.basic.isNameChar c
  pure (String.ofList (first :: rest))

/-- A variable or an IRI. -/
def iriOrVar : Reader IriOrVar := (.var <$> variableName) <|> (.iri <$> iri)

/-- The keyword for the class of a node. -/
def typeKeyword : Reader String := do
  symbol "a"
  pure Vocabulary.rdfType

/-! ### Literals -/

/-- A string. -/
def stringValue : Reader String := token (quotedString escape)

/-- A string with its datatype or language. -/
def textLiteral : Reader Literal :=
  (do
    let value ← stringValue
    symbol "^^"
    let datatype ← iri
    pure (.typed value datatype)) <|>
  (do
    let value ← stringValue
    let tag ← token languageTag
    pure (.tagged value tag)) <|>
  (do
    let value ← stringValue
    pure (.simple value))

/-- Digits, at least one. -/
def digits : Reader Unit := do
  let _ ← takeWhile1 Char.isDigit

/-- Digits, if there are any. -/
def maybeDigits : Reader Unit := do
  let _ ← takeWhile Char.isDigit

/-- A number with a point. -/
def decimal : Reader Unit :=
  (do digits; text "."; maybeDigits) <|> (do text "."; digits)

/-- A number with an exponent. -/
def double : Reader Unit := do
  decimal <|> digits
  let _ ← satisfy fun c => c = 'e' || c = 'E'
  text "+" <|> text "-" <|> pure ()
  digits

/-- A number whose digits have something before them. -/
def numberAfter (before : Reader Unit) : Reader Literal :=
  let written (number : Reader Unit) (datatype : String) : Reader Literal := do
    let (_, cs) ← slice (do before; number)
    pure (.typed (String.ofList cs) datatype)
  written double Vocabulary.xsdDouble <|> written decimal Vocabulary.xsdDecimal <|>
    written digits Vocabulary.xsdInteger

/-- A number, with or without a sign. -/
def number : Reader Literal := token <|
  numberAfter (pure ()) <|> numberAfter (do text "+"; blanks) <|>
    numberAfter (do text "-"; blanks)

/-- A truth value. -/
def truthValue : Reader Literal := token <|
  (do text "true"; pure (.typed "true" Vocabulary.xsdBoolean)) <|>
  (do text "false"; pure (.typed "false" Vocabulary.xsdBoolean))

/-- A literal. -/
def literal : Reader Literal := textLiteral <|> number <|> truthValue

/-! ### Nodes -/

/-- A blank node without a label. -/
def freshNode : Reader Term := do
  let label ← fresh
  pure (.blank label)

/-- Empty parentheses. -/
def emptyParentheses : Reader Unit := emptyBrackets "(" ")"

/-- A blank node, by its label or as empty brackets. -/
def blankNode : Reader Term :=
  (token do
    let cs ← names.blankLabel
    let s ← Parser.get
    let s ← ofOption (s.useLabel? (String.ofList cs))
    Parser.modify fun _ => s
    pure (.blank (String.ofList cs))) <|>
  (do
    emptyBrackets "[" "]"
    freshNode)

/-- A term that is no list and has no properties written with it. -/
def simpleTerm : Reader Term :=
  (.var <$> variableName) <|> (.named <$> iri) <|> (.literal <$> literal) <|> blankNode <|>
    (do emptyParentheses; pure (.named Vocabulary.rdfNil))

end StarShapes.Sparql
