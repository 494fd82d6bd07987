import StarShapes.Query.Basic
import StarShapes.Shape.Basic

/-!
Bindings: how the triples of a star fare against a shape.

* `Demand`, `Shape.demand`: what a shape makes of a ray by itself: it takes it, refuses it, or
  leaves the decision to another shape and the star at the other end.
* `Bindings`: the triples bound and unbound so far, and the report on what was decided elsewhere.
* `Bindings.take`, `Bindings.refuse`: a ray is bound or not.
* `Bindings.recordMissing`, `Bindings.recordNested`: the report of a shape that is not loaded, and
  of the bindings of the star at the other end.
-/

namespace StarShapes

/-! ### What a shape makes of a ray -/

/-- What a shape makes of a ray of a star. -/
inductive Demand where
  /-- The ray is bound or refused on the spot. -/
  | settled (binds : Bool)
  /-- The star `link` has to conform to the shape `target`. -/
  | conform (target link : String)
  deriving DecidableEq, Repr

/-- Whether a term may stand where the datatypes `types` are asked for: only a literal can fail. -/
def NameSet.admits (types : NameSet) (t : Term) : Bool :=
  match t.datatype? with
  | some d => decide (d ∈ types)
  | none => true

/-- What a rule makes of a ray. A constraint that names several shapes, or one whose ray leads to
no star, decides nothing and so binds. -/
def Rule.demand (rule : Rule) (ray : Ray) : Demand :=
  if rule.isNegative then .settled false
  else
    match rule.constraint? with
    | none => .settled true
    | some (.datatype types) => .settled (types.admits ray.triple.object)
    | some (.shape targets) =>
      match targets.single?, ray.link? with
      | some target, some link => .conform target link
      | _, _ => .settled true

/-- What a closed shape makes of a ray: without rule for its predicate it is refused. -/
def Shape.demand (shape : Shape) (ray : Ray) : Demand :=
  match shape.get? ray.predicate with
  | none => .settled false
  | some rule => rule.demand ray

/-- Whether a class triple speaks for the shape: a shape that lists the classes of its members
has to list this one. -/
def Shape.anchors (shape : Shape) (t : Triple) : Bool :=
  match t.object.iri?,
      ((shape.get? Vocabulary.rdfType).bind Rule.constraint?).bind Constraint.datatypes? with
  | some iri, some classes => decide (iri ∈ classes)
  | _, _ => true

/-! ### Bindings -/

/-- A ray was left to the bindings of the star at its other end. -/
structure Dependency where
  /-- The star of the ray. -/
  origin : String
  /-- The predicate of the ray. -/
  predicate : String
  /-- The star at the other end. -/
  nested : String
  /-- The shape that this star had to conform to. -/
  target : String
  /-- Whether all its triples were bound. -/
  full : Bool
  deriving DecidableEq, Repr

/-- A rule names a shape that is not loaded. -/
structure Unresolved where
  /-- The star of the ray. -/
  star : String
  /-- The predicate of the ray. -/
  predicate : String
  /-- The shape that is not loaded. -/
  shape : String
  deriving DecidableEq, Repr

/-- The outcome of matching a star against a shape. -/
structure Bindings where
  /-- The name of the shape. -/
  shape : String
  /-- The name of the star. -/
  star : String
  /-- The triple bound to each predicate: to those of the shape's rules, and for an open shape to
  all of the star. -/
  slots : Dict String (Option Triple)
  /-- The triples that the shape refuses. -/
  unbound : List Triple
  /-- Whether there are triples and all are bound. -/
  full : Bool
  /-- Whether a class triple was bound that speaks for the shape. -/
  byClass : Bool
  /-- The stars bound in full through a ray, by its predicate. -/
  nested : Dict String String
  /-- The triples bound in stars that were bound in full through a ray, at any distance. -/
  nestedBound : List Triple
  /-- The rays left to other stars, at any distance. -/
  dependencies : List Dependency
  /-- The shapes found missing, at any distance. -/
  unresolved : List Unresolved
  deriving DecidableEq

namespace Bindings

/-- Before the first ray: nothing is bound. -/
def start (shape : Shape) (star : String) : Bindings where
  shape := shape.name
  star := star
  slots := .ofList (shape.rules.map fun r => (r.predicate, none))
  unbound := []
  full := false
  byClass := false
  nested := .empty
  nestedBound := []
  dependencies := []
  unresolved := []

/-- The triples that are bound, in the order of their predicates. -/
def bound (b : Bindings) : List Triple := b.slots.values.filterMap id

/-- The number of triples that are bound. -/
def count (b : Bindings) : Nat := b.bound.length

/-- Any bound triple is reason enough to visit the data of the shape. -/
def isWorthVisiting (b : Bindings) : Bool := 0 < b.count

/-- A ray is bound. -/
def take (b : Bindings) (shape : Shape) (ray : Ray) : Bindings :=
  { b with
    slots := b.slots.set ray.predicate (some ray.triple)
    byClass := b.byClass || (ray.triple.isType && shape.anchors ray.triple) }

/-- A ray is refused. -/
def refuse (b : Bindings) (ray : Ray) : Bindings :=
  { b with unbound := b.unbound ++ [ray.triple] }

/-- A ray is bound or refused. -/
def settle (b : Bindings) (shape : Shape) (ray : Ray) (binds : Bool) : Bindings :=
  if binds then b.take shape ray else b.refuse ray

/-- Report that the shape asked for at the other end of a ray is not loaded. -/
def recordMissing (b : Bindings) (ray : Ray) (target : String) : Bindings :=
  { b with unresolved := b.unresolved ++ [⟨b.star, ray.predicate, target⟩] }

/-- Report the bindings of the star `link` against the shape `target` asked for at the other end
of a ray: that it was tried, all that its report says, and, if it is bound in full, its triples. -/
def recordNested (b : Bindings) (ray : Ray) (target link : String) (n : Bindings) : Bindings :=
  let dependencies := pushAllNew b.dependencies
    (⟨b.star, ray.predicate, link, target, n.full⟩ :: n.dependencies)
  let unresolved := pushAllNew b.unresolved n.unresolved
  if n.full then
    { b with
      dependencies
      unresolved
      nested := b.nested.set ray.predicate link
      nestedBound := pushAllNew b.nestedBound (n.bound ++ n.nestedBound) }
  else { b with dependencies, unresolved }

/-- After the last ray of a star: it is bound in full if it has rays and none was refused. -/
def finish (b : Bindings) (star : Star) : Bindings :=
  { b with full := b.unbound.isEmpty && !star.isEmpty }

/-- An open shape binds every triple. -/
def ofOpen (shape : Shape) (star : Star) : Bindings :=
  let b := start shape star.name
  { b with
    slots := star.triples.foldl (fun d t => d.set t.predicate (some t)) b.slots
    full := !star.isEmpty }

/-- The bindings with more triples; the earlier ones if there are equally many. -/
def better (best? : Option Bindings) (b : Bindings) : Bindings :=
  match best? with
  | some best => if best.count < b.count then b else best
  | none => b

end Bindings

end StarShapes
