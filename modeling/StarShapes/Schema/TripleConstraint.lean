import StarShapes.Schema.ListCells
import StarShapes.Shape.Basic
import StarShapes.Text.Integer

/-!
Triple constraints: the nodes of a description that speak of one predicate.

* `Graph.bounds`: the cardinality of a triple constraint; a negative upper bound means none.
* `Graph.valueConstraint?`: what its values have to be.
* `Graph.tripleConstraint`: its rule; a predicate that is negated or may occur at most zero times is
  forbidden.
-/

namespace StarShapes

/-- Whether a literal says yes. -/
def Term.isTrue (t : Term) : Bool :=
  t.literal?.any fun l => l.value = "true" || l.value = "1"

/-- The integer that a term stands for; `node` is named in the report of one that is none. -/
def Term.integer (node : String) (t : Term) : Except ShapeError Int :=
  match t.literal? with
  | some l =>
    match readInteger? l.value with
    | some n => .ok n
    | none => .error (.invalidInteger node l.value)
  | none => .error (.invalidInteger node t.text)

/-- A bound that is a cardinality's. -/
def boundOf (node : String) (n : Int) : Except ShapeError Nat :=
  if 0 ≤ n ∧ n ≤ Cardinality.limit then .ok n.toNat
  else .error (.invalidInteger node (toString n))

namespace Graph

open Vocabulary

/-- Whether a node says yes for a predicate. -/
def flag (g : Graph) (node predicate : String) : Bool :=
  (g.object? node predicate).any Term.isTrue

/-- The integer that a node has for a predicate; 1 if it has none. -/
def integerAt (g : Graph) (node predicate : String) : Except ShapeError Int :=
  match g.object? node predicate with
  | some t => t.integer node
  | none => .ok 1

/-- The bounds of a triple constraint: a negative upper bound stands for none. -/
def bounds (g : Graph) (node : String) : Except ShapeError (Nat × Option Nat) := do
  let min ← g.integerAt node (shex "min")
  let max ← g.integerAt node (shex "max")
  let least ← boundOf node min
  if max < 0 then .ok (least, none)
  else
    let greatest ← boundOf node max
    .ok (least, some greatest)

/-- What a node constraint asks for: its datatype, or else the IRIs of its value set. -/
def nodeConstraint? (g : Graph) (node : String) : Except ShapeError (Option Constraint) :=
  match (g.object? node (shex "datatype")).bind Term.iri? with
  | some iri => .ok (some (.datatype (.ofList [iri])))
  | none => do
    let values := (← g.elementsAt node (shex "values")).filterMap Term.iri?
    .ok (if values.isEmpty then none else some (.datatype (.ofList values)))

/-- What a value expression asks for: a node constraint, one of the shapes of a disjunction or
conjunction, or the one shape that it names or is. Of other expressions nothing is made. -/
def valueConstraint? (g : Graph) (expr : Term) : Except ShapeError (Option Constraint) :=
  match expr.nodeName? with
  | none => .ok none
  | some node =>
    if g.hasType node (shex "NodeConstraint") then g.nodeConstraint? node
    else if g.hasType node (shex "ShapeOr") || g.hasType node (shex "ShapeAnd") then do
      let targets := (← g.elementsAt node (shex "shapeExprs")).filterMap Term.nodeName?
      .ok (if targets.isEmpty then none else some (.shape (.ofList targets)))
    else if expr.iri?.isSome || g.hasType node (shex "Shape") then
      .ok (some (.shape (.ofList [node])))
    else .ok none

/-- The rule of a triple constraint, marked as negative if it forbids its predicate. -/
def tripleConstraint (g : Graph) (node : String) : Except ShapeError Rule :=
  match (g.object? node (shex "predicate")).bind Term.iri? with
  | none => .error (.constraintWithoutPredicate node)
  | some predicate => do
    let (min, max?) ← g.bounds node
    let cardinality ← Cardinality.ofBounds predicate min max?
    let rule := (Rule.new predicate).withCardinality cardinality
    let constraint? ← match g.object? node (shex "valueExpr") with
      | some expr => g.valueConstraint? expr
      | none => .ok none
    .ok { rule with
      constraint?
      isNegative := g.flag node (shex "negated") || max? = some 0 }

end Graph

end StarShapes
