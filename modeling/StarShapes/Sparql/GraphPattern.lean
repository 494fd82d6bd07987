import StarShapes.Rdf.Term

/-!
Graph patterns: what a query asks of a graph, as far as triples and variables go. Expressions are
left out, for no triple of the query is inside of one.

* `PropertyPath`: the ways from a node to another.
* `TriplePattern`: a triple with variables.
* `GraphPattern`: patterns built from basic ones. `GraphPattern.merge` joins two of them and keeps
  neighbouring basic patterns together.
* `GraphPattern.scope`: the variables that a pattern gives a value.
-/

namespace StarShapes.Sparql

/-- The way from a node to another. -/
inductive PropertyPath where
  /-- Along a predicate. -/
  | predicate (iri : String)
  /-- The other way round. -/
  | inverse (path : PropertyPath)
  /-- One way after the other. -/
  | sequence (first second : PropertyPath)
  /-- One way or the other. -/
  | alternative (first second : PropertyPath)
  /-- Any number of times. -/
  | zeroOrMore (path : PropertyPath)
  /-- At least once. -/
  | oneOrMore (path : PropertyPath)
  /-- At most once. -/
  | zeroOrOne (path : PropertyPath)
  /-- Along a predicate that is none of these. -/
  | except (iris : List String)
  deriving DecidableEq, Repr, Inhabited

/-- An IRI, or a variable in its place. -/
inductive IriOrVar where
  /-- An IRI. -/
  | iri (iri : String)
  /-- A variable. -/
  | var (name : String)
  deriving DecidableEq, Repr, Inhabited

/-- The variable, if it is one. -/
def IriOrVar.scope : IriOrVar → List String
  | iri _ => []
  | var name => [name]

/-- The variable that a term is, if it is one. -/
def termScope : Term → List String
  | .var name => [name]
  | _ => []

/-- A triple with variables. -/
structure TriplePattern where
  /-- The subject. -/
  subject : Term
  /-- The predicate. -/
  predicate : IriOrVar
  /-- The object. -/
  object : Term
  deriving DecidableEq, Repr

/-- The variables of a triple. -/
def TriplePattern.scope (t : TriplePattern) : List String :=
  termScope t.subject ++ t.predicate.scope ++ termScope t.object

/-- What a query asks of a graph. -/
inductive GraphPattern where
  /-- Some triples. -/
  | basic (triples : List TriplePattern)
  /-- A path between two nodes. -/
  | path (subject : Term) (path : PropertyPath) (object : Term)
  /-- Both patterns. -/
  | join (left right : GraphPattern)
  /-- The left pattern, and the right one if it can be had. -/
  | leftJoin (left right : GraphPattern)
  /-- One of the patterns. -/
  | union (left right : GraphPattern)
  /-- The left pattern without what fits the right one. -/
  | minus (left right : GraphPattern)
  /-- A pattern under a condition. -/
  | filter (inner : GraphPattern)
  /-- A pattern in a named graph. -/
  | graph (name : IriOrVar) (inner : GraphPattern)
  /-- A pattern and one more variable. -/
  | extend (inner : GraphPattern) (name : String)
  /-- A pattern in some order. -/
  | orderBy (inner : GraphPattern)
  /-- Some variables of a pattern. -/
  | project (inner : GraphPattern) (names : List String)
  /-- A pattern without duplicates. -/
  | distinct (inner : GraphPattern)
  /-- A pattern with fewer duplicates. -/
  | reduced (inner : GraphPattern)
  /-- A part of the solutions of a pattern. -/
  | slice (inner : GraphPattern)
  /-- The solutions of a pattern, grouped; the names are those of the groups and of what is
  computed for each. -/
  | group (inner : GraphPattern) (names : List String)
  /-- Given values of some variables. -/
  | values (names : List String)
  /-- A pattern that is answered elsewhere. -/
  | service (name : IriOrVar) (inner : GraphPattern)
  deriving Repr, Inhabited

namespace GraphPattern

/-- The pattern that asks for nothing. -/
def nothing : GraphPattern := basic []

/-- The variables that a pattern gives a value. -/
def scope : GraphPattern → List String
  | basic triples => triples.flatMap TriplePattern.scope
  | path subject _ object => termScope subject ++ termScope object
  | join left right => left.scope ++ right.scope
  | leftJoin left right => left.scope ++ right.scope
  | union left right => left.scope ++ right.scope
  | minus left _ => left.scope
  | filter inner => inner.scope
  | graph name inner => name.scope ++ inner.scope
  | extend inner name => name :: inner.scope
  | orderBy inner => inner.scope
  | project _ names => names
  | distinct inner => inner.scope
  | reduced inner => inner.scope
  | slice inner => inner.scope
  | group _ names => names
  | values names => names
  | service _ inner => inner.scope

/-- Both patterns, of which one that asks for nothing does not count. Triples that come together
stay together, and so do patterns in one named graph. -/
def merge : GraphPattern → GraphPattern → GraphPattern
  | basic [], right => right
  | left, basic [] => left
  | basic ts, basic us => basic (ts ++ us)
  | graph n left, graph m right =>
    if n = m then graph n (merge left right) else join (graph n left) (graph m right)
  | left, right => join left right

@[simp]
theorem merge_nothing_left (g : GraphPattern) : merge nothing g = g := by
  unfold nothing merge; rfl

@[simp]
theorem merge_nothing_right (g : GraphPattern) : merge g nothing = g := by
  unfold nothing
  cases g with
  | basic ts => cases ts <;> rfl
  | _ => rfl

/-- All of some patterns. -/
def mergeAll : List GraphPattern → GraphPattern
  | [] => nothing
  | g :: gs => gs.foldl merge g

/-- A variable has a value in both patterns together if it has one in either. -/
theorem mem_scope_merge {left right : GraphPattern} {n : String} :
    n ∈ (merge left right).scope ↔ n ∈ left.scope ∨ n ∈ right.scope := by
  fun_induction merge left right with
  | case1 => simp [scope]
  | case2 => simp [scope]
  | case3 => simp [scope]
  | case4 _ _ _ ih => simp only [scope, List.mem_append, ih]; grind
  | case5 => simp [scope, or_assoc]
  | case6 => simp [scope]

end GraphPattern

end StarShapes.Sparql
