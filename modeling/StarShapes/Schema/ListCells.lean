import StarShapes.Rdf.Graph
import StarShapes.Shape.Error

/-!
Lists in a graph: cells with an element and a successor, up to the empty list.

* `Graph.elementsFrom`: the elements from a cell on, when some cells were passed. A list that comes
  back to one of its cells is a fault, so the walk ends.
* `Graph.elements`: the elements of a list.
* `Graph.elementsAt`: those of the list that a node has for a predicate.
-/

namespace StarShapes.Graph

open Vocabulary

/-- The elements of a list from `link` on, where the cells `passed` lie behind. -/
def elementsFrom (g : Graph) (passed : List String) (link : Term) : Except ShapeError (List Term) :=
  match link.nodeName? with
  | none => .error (.listWithoutRest link.text)
  | some cell =>
    if cell = rdfNil then .ok []
    else if _ : cell ∈ passed then .error (.cyclicList cell)
    else
      match _ : g.first? cell with
      | none => .error (.listWithoutFirst cell)
      | some e =>
        match g.rest? cell with
        | none => .error (.listWithoutRest cell)
        | some next => (g.elementsFrom (cell :: passed) next).map (e :: ·)
termination_by g.unvisited rdfFirst passed
decreasing_by exact unvisited_cons_lt (exists_triple_of_first? ‹_›) ‹_›

/-- The elements of a list. -/
def elements (g : Graph) (list : Term) : Except ShapeError (List Term) := g.elementsFrom [] list

/-- The elements of the list that a node has for a predicate; none if it has no list there. -/
def elementsAt (g : Graph) (node predicate : String) : Except ShapeError (List Term) :=
  match g.object? node predicate with
  | some list => g.elements list
  | none => .ok []

end StarShapes.Graph
