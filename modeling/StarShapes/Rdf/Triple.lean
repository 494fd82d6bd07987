import StarShapes.Rdf.Term

/-!
Triples of a graph or of a query. The subject is kept as the name of its node, and a triple of a
query knows whether the query can do without it.
-/

namespace StarShapes

/-- A statement about a subject; of a query, possibly one that need not hold. -/
structure Triple where
  /-- The name of the subject. -/
  subject : String
  /-- The IRI of the predicate. -/
  predicate : String
  /-- The object. -/
  object : Term
  /-- Whether a query asks for the triple only if it is there. -/
  isOptional : Bool
  deriving DecidableEq, Repr, Inhabited

namespace Triple

/-- Whether the triple gives the class of its subject. -/
def isType (t : Triple) : Bool := t.predicate = Vocabulary.rdfType

/-- A triple as it is written in messages. -/
def text (t : Triple) : String :=
  t.subject ++ " <" ++ t.predicate ++ "> " ++ t.object.text ++
    if t.isOptional then " (optional)" else ""

end Triple

end StarShapes
