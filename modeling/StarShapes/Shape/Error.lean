/-!
What can be wrong with a shape, a description of shapes or a document that holds one, and how each
fault is reported (`ShapeError.message`).
-/

namespace StarShapes

/-- The faults of shapes and of their descriptions. -/
inductive ShapeError where
  /-- A shape asks for some predicates and forbids them too. -/
  | overlap (shape : String) (predicates : List String)
  /-- At least `min` values but at most `max`, which is less. -/
  | invertedBounds (predicate : String) (min max : Nat)
  /-- The text is no Turtle document. -/
  | malformedDocument
  /-- A list cell has no element. -/
  | listWithoutFirst (cell : String)
  /-- A list cell has no successor, or something that is no node stands for one. -/
  | listWithoutRest (cell : String)
  /-- A list comes back to one of its cells. -/
  | cyclicList (cell : String)
  /-- A triple expression is a part of itself. -/
  | cyclicExpression (node : String)
  /-- There is no shape and no declaration of this name. -/
  | shapeNotFound (name : String)
  /-- A triple expression is of no known kind. -/
  | unsupportedExpression (node kind : String)
  /-- A triple constraint names no predicate. -/
  | constraintWithoutPredicate (node : String)
  /-- A bound is no integer or does not fit. -/
  | invalidInteger (node found : String)
  deriving DecidableEq, Repr

/-- The report of a fault. -/
def ShapeError.message : ShapeError → String
  | overlap shape predicates =>
    "Shape " ++ shape ++ " declares predicates both positive and negative: " ++
      String.intercalate ", " predicates
  | invertedBounds predicate min max =>
    "Cardinality of predicate " ++ predicate ++ " has min " ++ toString min ++
      " greater than max " ++ toString max
  | malformedDocument => "The document is not Turtle"
  | listWithoutFirst cell => "List is missing first element at " ++ cell
  | listWithoutRest cell => "List is missing rest at " ++ cell
  | cyclicList cell => "List revisits node " ++ cell
  | cyclicExpression node => "Triple expression " ++ node ++ " contains itself"
  | shapeNotFound name => "No shape description found for " ++ name
  | unsupportedExpression node kind =>
    "Triple expression " ++ node ++ " has unsupported type " ++ kind
  | constraintWithoutPredicate node => "Triple constraint " ++ node ++ " has no predicate"
  | invalidInteger node found => "Expected an integer at " ++ node ++ ", got " ++ found

end StarShapes
