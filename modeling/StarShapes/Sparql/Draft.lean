import StarShapes.Query.Basic
import StarShapes.Sparql.GraphPattern
import StarShapes.Sparql.Position

/-!
From graph patterns to stars.

* `Draft`: the stars and UNION groups met so far.
* `Draft.read`: read a graph pattern from left to right. A triple goes to the star of its subject.
  Neither triples whose predicate is a variable or a path nor literals as subjects can be kept, and
  nothing is taken from patterns that are answered elsewhere.
* `Branches.read`: read the branches of a union, each as a draft of its own. A union directly inside
  of another adds its branches to the same group; groups inside of a branch come before the group.
* `Query.ofPattern`: the query that a graph pattern asks for.
-/

namespace StarShapes.Sparql

/-- The stars and UNION groups that were read so far. -/
structure Draft where
  /-- The stars outside of unions. -/
  stars : Branch
  /-- The groups. -/
  unions : List (List Branch)

namespace Draft

/-- The draft without triples. -/
def empty : Draft := ⟨.empty, []⟩

/-- Add a triple to the star of its subject. -/
def addTriple (d : Draft) (isVariable : Bool) (t : Triple) : Draft :=
  let star := (d.stars.get? t.subject).getD (Star.new t.subject isVariable)
  { d with stars := d.stars.insert (star.insert t none) }

/-- Add a triple that stands at a position; a literal as its subject has no star. -/
def addPattern (d : Draft) (p : Position) (subject : Term) (predicate : String) (object : Term) :
    Draft :=
  match subject.name? with
  | some name => d.addTriple subject.iri?.isNone ⟨name, predicate, object, p.isOptional⟩
  | none => d

/-- Add a triple pattern, unless its predicate is a variable. -/
def addTriplePattern (p : Position) (d : Draft) (t : TriplePattern) : Draft :=
  match t.predicate with
  | .iri predicate => d.addPattern p t.subject predicate t.object
  | .var _ => d

/-- Add a path, if it is a predicate. -/
def addPath (d : Draft) (p : Position) (subject : Term) (path : PropertyPath) (object : Term) :
    Draft :=
  match path with
  | .predicate predicate => d.addPattern p subject predicate object
  | _ => d

end Draft

/-- The branches of a union that were read so far. -/
structure Branches where
  /-- The branches. -/
  branches : List Branch
  /-- The groups inside of them. -/
  inner : List (List Branch)

namespace Branches

/-- No branches. -/
def empty : Branches := ⟨[], []⟩

/-- Add one more branch. -/
def add (b : Branches) (d : Draft) : Branches := ⟨b.branches ++ [d.stars], b.inner ++ d.unions⟩

end Branches

mutual

/-- Read a graph pattern that stands at a position. -/
def Draft.read (d : Draft) (p : Position) : GraphPattern → Draft
  | .basic triples => triples.foldl (Draft.addTriplePattern (p.extend .triples)) d
  | .path subject path object => d.addPath (p.extend .path) subject path object
  | .join left right =>
    (d.read (p.extend .joinLeft) left).read (p.extend .joinRight) right
  | .leftJoin left right =>
    (d.read (p.extend .leftJoinLeft) left).read (p.extend .leftJoinRight) right
  | .minus left right =>
    (d.read (p.extend .minusLeft) left).read (p.extend .minusRight) right
  | .union left right =>
    let b := (Branches.empty.read p left).read p right
    { d with unions := d.unions ++ b.inner ++ [b.branches] }
  | .filter inner => d.read (p.extend .filter) inner
  | .graph _ inner => d.read (p.extend .graph) inner
  | .extend inner _ => d.read (p.extend .extend) inner
  | .orderBy inner => d.read (p.extend .orderBy) inner
  | .project inner _ => d.read (p.extend .project) inner
  | .distinct inner => d.read (p.extend .distinct) inner
  | .reduced inner => d.read (p.extend .reduced) inner
  | .slice inner => d.read (p.extend .slice) inner
  | .group inner _ => d.read (p.extend .group) inner
  | .values _ => d
  | .service _ _ => d
termination_by g => (sizeOf g, 0)

/-- Read the branches that a part of a union at a position has. -/
def Branches.read (b : Branches) (p : Position) (g : GraphPattern) : Branches :=
  match g with
  | .union left right => (b.read p left).read p right
  | g => b.add (Draft.empty.read (p.extend (.unionBranch b.branches.length)) g)
termination_by (sizeOf g, 1)

end

end StarShapes.Sparql

namespace StarShapes.Query

/-- The query that a graph pattern asks for. -/
def ofPattern (g : Sparql.GraphPattern) : Query :=
  let d := Sparql.Draft.empty.read .root g
  new d.stars d.unions

end StarShapes.Query
