import StarShapes.Schema.TripleConstraint

/-!
Triple expressions: triple constraints put together by conjunction and disjunction.

* `Parts`: the rules of an expression, those asked for, those forbidden and the alternatives.
* `Graph.partsOf`: the parts of an expression below others. An expression that is a part of itself
  is a fault, so the descent ends; one that is shared is read wherever it occurs.
-/

namespace StarShapes

/-- The rules of a triple expression. -/
structure Parts where
  /-- The rules asked for. -/
  positive : List Rule
  /-- The rules forbidden. -/
  negative : List Rule
  /-- The alternatives. -/
  oneOf : List OneOf

namespace Parts

/-- The parts of a single rule. -/
def ofRule (r : Rule) : Parts :=
  if r.isNegative then ⟨[], [r.withNegative false], []⟩ else ⟨[r], [], []⟩

/-- The parts of a conjunction: those of its members in turn. -/
def all (members : List Parts) : Parts :=
  ⟨members.flatMap positive, members.flatMap negative, members.flatMap oneOf⟩

/-- The parts of a disjunction: what a member forbids is forbidden, and what the members ask for
makes one more alternative, after those inside the members. -/
def any (members : List Parts) : Parts :=
  ⟨[], members.flatMap negative, members.flatMap oneOf ++ [members.map positive]⟩

end Parts

namespace Graph

open Vocabulary

/-- The classes of a node as they are reported. -/
def typesText (g : Graph) (node : String) : String :=
  String.intercalate " " ((g.objects node rdfType).map Term.text)

/-- The parts of an expression that stands below the expressions `path`. -/
def partsOf (g : Graph) (path : List String) (expr : Term) : Except ShapeError Parts :=
  match expr.nodeName? with
  | none => .error (.unsupportedExpression expr.text "literal")
  | some node =>
    if _ : node ∈ path then .error (.cyclicExpression node)
    else if g.hasType node (shex "TripleConstraint") then
      (g.tripleConstraint node).map Parts.ofRule
    else if _ : g.hasType node (shex "EachOf") then do
      let members ← g.elementsAt node (shex "expressions")
      let parts ← members.mapM fun e => g.partsOf (node :: path) e
      .ok (Parts.all parts)
    else if _ : g.hasType node (shex "OneOf") then do
      let members ← g.elementsAt node (shex "expressions")
      let parts ← members.mapM fun e => g.partsOf (node :: path) e
      .ok (Parts.any parts)
    else .error (.unsupportedExpression node (g.typesText node))
termination_by g.unvisited rdfType path
decreasing_by
  all_goals exact unvisited_cons_lt (exists_triple_of_hasType ‹_›) ‹_›

end Graph

end StarShapes
