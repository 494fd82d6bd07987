import StarShapes.Query.Basic
import StarShapes.Shape.Basic

/-!
Alignment: a coarse comparison of stars and shapes by their predicates and classes alone.

* `Shape.isWeakFor`, `Shape.isStrongFor`: the two degrees to which a shape goes with triples.
* `alignRow`: all shapes against the triples of one star. If some go strongly only they count;
  otherwise, if asked for, only closed shapes that match the most predicates are kept.
* `alignmentReport`: the rows of all stars, and the shapes that go with none.
-/

namespace StarShapes

/-- How well a shape goes with a star. -/
inductive Alignment where
  /-- They share a predicate, or the shape is open. -/
  | weak
  /-- The class of the star is the shape's, or its predicates cover what the shape needs. -/
  | strong
  /-- They do not go together, or others go better. -/
  | none
  deriving DecidableEq, Repr

/-- The name of an alignment. -/
def Alignment.label : Alignment → String
  | weak => "WEAK"
  | strong => "STRONG"
  | none => "None"

/-- What to look for. -/
structure AlignmentOptions where
  /-- Whether strong alignment is told from weak. -/
  strong : Bool
  /-- Whether only the shapes that match the most predicates are kept. -/
  intersection : Bool
  deriving DecidableEq, Repr

/-- By default all weak alignments count. -/
instance : Inhabited AlignmentOptions := ⟨⟨false, false⟩⟩

/-- The alignments of all stars with all shapes. -/
structure AlignmentReport where
  /-- For every star the alignment with each shape. -/
  rows : List (String × Dict String Alignment)
  /-- The shapes that go with no star. -/
  unaligned : List String

namespace Shape

/-- Whether a shape is open or asks for a predicate of the triples. -/
def isWeakFor (s : Shape) (triples : List Triple) : Bool :=
  !s.closed || triples.any fun t => s.isPositive t.predicate

/-- Whether the triples give a class that the shape lists. -/
def hasClassOf (s : Shape) (triples : List Triple) : Bool :=
  match ((s.get? Vocabulary.rdfType).bind Rule.constraint?).bind Constraint.datatypes? with
  | some classes =>
    (triples.filter Triple.isType).any fun t => t.object.iri?.any fun iri => decide (iri ∈ classes)
  | none => false

/-- Whether the triples have every predicate that the shape needs, and no more predicates than the
shape asks for. -/
def isCoveredBy (s : Shape) (triples : List Triple) : Bool :=
  let predicates := distinct (triples.map Triple.predicate)
  ((s.positive.toList.filter fun r => !r.isOptional).all
      fun r => predicates.contains r.predicate) &&
    decide (predicates.length ≤ s.positive.size)

/-- Whether the triples have a class of the shape, or cover it. -/
def isStrongFor (s : Shape) (triples : List Triple) : Bool :=
  s.hasClassOf triples || s.isCoveredBy triples

/-- The number of triples with a predicate that the shape asks for; none if it forbids one. -/
def matchDegree? (s : Shape) (triples : List Triple) : Option Nat :=
  if triples.any fun t => s.isNegative t.predicate then none
  else some (triples.filter fun t => s.isPositive t.predicate).length

/-- The alignment of a shape with triples by itself. -/
def alignment (s : Shape) (strong : Bool) (triples : List Triple) : Alignment :=
  if !s.isWeakFor triples then .none
  else if strong && s.isStrongFor triples then .strong
  else .weak

end Shape

/-- The order of match degrees: a forbidden predicate ranks below every number. -/
def degreeLt : Option Nat → Option Nat → Bool
  | none, some _ => true
  | some a, some b => a < b
  | _, none => false

/-- Keep, of at least two weakly aligned shapes that are all closed, those of greatest degree. -/
def keepBest (shapes : List Shape) (triples : List Triple) (row : Dict String Alignment) :
    Dict String Alignment :=
  let candidates := shapes.filter fun s => row.find? s.name = some .weak
  if candidates.length < 2 || candidates.any fun s => !s.closed then row
  else
    (candidates.filter fun s => candidates.any fun s' =>
        degreeLt (s.matchDegree? triples) (s'.matchDegree? triples)).foldl
      (fun row s => row.set s.name .none) row

/-- Weak alignments count for nothing beside a strong one. -/
def Alignment.dropWeak : Alignment → Alignment
  | weak => none
  | a => a

/-- The alignments of all shapes with the triples of a star. -/
def alignRow (options : AlignmentOptions) (shapes : List Shape) (triples : List Triple) :
    Dict String Alignment :=
  let row : Dict String Alignment :=
    .ofList (shapes.map fun s => (s.name, s.alignment options.strong triples))
  if row.values.contains .strong then
    row.map (fun (n, a) => (n, a.dropWeak)) (fun _ => rfl)
  else if options.intersection then keepBest shapes triples row
  else row

/-- The alignments of all stars of a query with all shapes. -/
def alignmentReport (options : AlignmentOptions) (shapes : List Shape) (query : Query) :
    AlignmentReport :=
  let rows := query.triplesBySubject.map fun (n, triples) => (n, alignRow options shapes triples)
  { rows
    unaligned := distinct <| (shapes.map Shape.name).filter fun s =>
      rows.all fun (_, row) => (row.find? s).all fun a => a = .none }

end StarShapes
