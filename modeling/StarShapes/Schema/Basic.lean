import StarShapes.Schema.Expression

/-!
Schemas: graphs that describe shapes.

* `Graph.shapeAt`: the shape that a node describes, under a given name.
* `Graph.shapes`: every shape of a description; one that is declared has the name of its
  declaration.
* `Graph.shapeNamed`: the shape of a name, which is that of a shape or of a declaration.
-/

namespace StarShapes.Graph

open Vocabulary

/-- The node of the shape that a declaration wraps. -/
def declaredNode? (g : Graph) (declaration : String) : Option String :=
  (g.object? declaration (shex "shapeExpr")).bind Term.nodeName?

/-- The declarations with the nodes that they wrap, in order. -/
def declarations (g : Graph) : List (String × String) :=
  (g.nodesOfType (shex "ShapeDecl")).filterMap fun d => (g.declaredNode? d).map fun n => (d, n)

/-- The name of the declaration that wraps the shape at a node; the last one if there are
several. -/
def declaredName? (declarations : List (String × String)) (node : String) : Option String :=
  ((declarations.filter fun d => d.2 = node).map Prod.fst).getLast?

/-- The shape that a node describes, under the name `name`. -/
def shapeAt (g : Graph) (node name : String) : Except ShapeError Shape := do
  let parts ← match g.object? node (shex "expression") with
    | some expr => g.partsOf [] expr
    | none => .ok ⟨[], [], []⟩
  Shape.new ⟨name, g.flag node (shex "closed"), parts.positive, parts.negative, parts.oneOf⟩

/-- Every shape of a description, in the order of their nodes. -/
def shapes (g : Graph) : Except ShapeError (List Shape) :=
  let declarations := g.declarations
  (g.nodesOfType (shex "Shape")).mapM fun node =>
    g.shapeAt node ((declaredName? declarations node).getD node)

/-- The shape of a name: that of the node itself if it is a shape, or else the one that it
declares. -/
def shapeNamed (g : Graph) (name : String) : Except ShapeError Shape :=
  if g.hasType name (shex "Shape") then g.shapeAt name name
  else
    match g.declaredNode? name with
    | some node => g.shapeAt node name
    | none => .error (.shapeNotFound name)

end StarShapes.Graph
