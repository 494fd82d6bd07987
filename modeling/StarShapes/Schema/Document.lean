import StarShapes.Schema.Basic
import StarShapes.Turtle.Document

/-!
Schemas as documents: the shapes that a Turtle document describes.
-/

namespace StarShapes

/-- The shapes that a document describes; a text that is no document describes none. -/
def shapesOfDocument (text : String) : Except ShapeError (List Shape) :=
  match Graph.ofTurtle? text with
  | some g => g.shapes
  | none => .error .malformedDocument

/-- A document describes what its graph describes. -/
theorem shapesOfDocument_of_graph {text : String} {g : Graph} (h : Graph.ofTurtle? text = some g) :
    shapesOfDocument text = g.shapes := by
  rw [shapesOfDocument, h]

end StarShapes
