import StarShapes.Shape.Basic
import StarShapes.Text.Json

/-!
Shapes as JSON objects (`Shape.toJson`). Members stand in ascending order of their names; what is
absent or false is left out, and an unbounded cardinality has no `max`.
-/

namespace StarShapes

/-- A constraint as an object: its kind and its value set. -/
def Constraint.toJson : Constraint → Json
  | .shape targets =>
    .object [("type", .string "SHAPE"), ("value", .array (targets.toList.map .string))]
  | .datatype types =>
    .object [("type", .string "TYPE"), ("value", .array (types.toList.map .string))]

/-- A cardinality as an object; without upper bound it has no `max`. -/
def Cardinality.toJson (c : Cardinality) : Json :=
  .object <| (c.max?.map fun m => ("max", Json.number m)).toList ++ [("min", .number c.min)]

/-- A flag as the members of an object: none if it is down. -/
def Json.flag (name : String) (b : Bool) : List (String × Json) :=
  if b then [(name, .bool true)] else []

/-- A rule as an object. -/
def Rule.toJson (r : Rule) : Json :=
  .object <|
    (r.cardinality?.map fun c => ("cardinality", c.toJson)).toList ++
    (r.constraint?.map fun c => ("constraint", c.toJson)).toList ++
    [("name", .string r.predicate)] ++
    Json.flag "negative" r.isNegative ++
    Json.flag "optional" r.isOptional

/-- A list of rules as a list of objects. -/
def Rule.listToJson (rules : List Rule) : Json := .array (rules.map Rule.toJson)

/-- A shape as an object. -/
def Shape.toJson (s : Shape) : Json :=
  .object [
    ("closed", .bool s.closed),
    ("name", .string s.name),
    ("negativePredicates", Rule.listToJson s.negative.toList),
    ("oneOf", .array (s.oneOf.map fun sets => .array (sets.map Rule.listToJson))),
    ("positivePredicates", Rule.listToJson s.positive.toList)]

/-- The compact text of a shape. -/
def Shape.jsonText (s : Shape) : String := s.toJson.text

end StarShapes
