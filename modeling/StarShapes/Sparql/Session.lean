import StarShapes.Collection.Keyed
import StarShapes.Rdf.Iri
import StarShapes.Text.Blank

/-!
What has to be remembered while a query is read.

* `Session`: the base, the prefixes, the labels of blank nodes and the aggregates met so far.
* `Session.useLabel?`, `Session.closeGroup`: a label belongs to the group that it was first met in.
* `Session.openSelection`, `Session.closeSelection`: aggregates belong to the innermost selection
  around them.
* `Session.fresh`: names that no query can write.
-/

namespace StarShapes.Sparql

/-- What is known at some point of a query. -/
structure Session where
  /-- The base of relative IRIs. -/
  base? : Option IriReference
  /-- The prefixes and their IRIs. -/
  prefixes : Dict String String
  /-- The labels of blank nodes that belong to other groups. -/
  taken : List String
  /-- The labels of blank nodes met in this group. -/
  current : List String
  /-- The variables for the aggregates of the selections around this point, innermost first. -/
  selections : List (List String)
  /-- The number of names that were made up. -/
  count : Nat

namespace Session

/-- Before anything is read. -/
def empty : Session := ⟨none, .empty, [], [], [], 0⟩

/-- A name that no query can write, for it holds a bracket. -/
def freshName (s : Session) : String := "[" ++ toString s.count ++ "]"

/-- The session with the next name to come. -/
def afterFresh (s : Session) : Session := { s with count := s.count + 1 }

/-- Use a label, unless it belongs to another group. -/
def useLabel? (s : Session) (label : String) : Option Session :=
  if s.taken.contains label then none else some { s with current := label :: s.current }

/-- The end of a group, or of a part of one: the labels met so far cannot be used any more. -/
def closeGroup (s : Session) : Session := { s with taken := s.current ++ s.taken, current := [] }

/-- The start of a selection. -/
def openSelection (s : Session) : Session := { s with selections := [] :: s.selections }

/-- Add the variable of an aggregate to the innermost selection. -/
def addAggregate? (s : Session) (name : String) : Option Session :=
  match s.selections with
  | names :: outer => some { s with selections := (names ++ [name]) :: outer }
  | [] => none

/-- The end of a selection: its aggregates, and what is left. Outside of selections there are no
aggregates. -/
def closeSelection (s : Session) : List String × Session :=
  match s.selections with
  | names :: outer => (names, { s with selections := outer })
  | [] => ([], s)

/-- A label that was used in a group is lost when the group ends. -/
theorem useLabel?_closeGroup {s : Session} {label : String} (h : label ∈ s.current) :
    s.closeGroup.useLabel? label = none := by
  simp [closeGroup, useLabel?, h]

end Session

/-- A parser of a part of a query. -/
abbrev Reader (α : Type) : Type := Parser Session α

/-- A name that no query can write. -/
def fresh : Reader String := do
  let s ← Parser.get
  Parser.modify Session.afterFresh
  pure s.freshName

/-- The IRI that a text stands for at this point. -/
def resolve (cs : List Char) : Reader IriReference := do
  let s ← Parser.get
  Parser.ofOption (readIri? s.base? cs)

/-- The IRI of a prefix. -/
def expand (label : List Char) : Reader (List Char) := do
  let s ← Parser.get
  let iri ← Parser.ofOption (s.prefixes.find? (String.ofList label))
  pure iri.toList

end StarShapes.Sparql
