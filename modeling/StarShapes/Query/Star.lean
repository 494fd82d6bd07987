import StarShapes.Collection.Keyed
import StarShapes.Rdf.Triple

/-!
Stars: the triples of a query that share their subject.

* `Ray`: a triple of a star, with the star that its object is the subject of, if it has one.
* `Star`: rays by predicate, at most one for each.
* `Star.insert`: a triple with a predicate that is there takes the place of the old one.
* `Star.extend`: the rays of one star and then those of another, which win.
-/

namespace StarShapes

/-- A triple of a star and the name of the star at its other end. -/
structure Ray where
  /-- The triple. -/
  triple : Triple
  /-- The name of the star whose subject is the triple's object. -/
  link? : Option String
  deriving DecidableEq, Repr

/-- The predicate of a ray, which tells it from the others of its star. -/
def Ray.predicate (r : Ray) : String := r.triple.predicate

/-- The triples of one subject, by predicate. -/
structure Star where
  /-- The name of the subject. -/
  name : String
  /-- Whether the subject stands for nodes that the query does not name. -/
  isVariable : Bool
  /-- The triples, in the order in which their predicates came up. -/
  rays : Keyed Ray.predicate
  deriving DecidableEq

namespace Star

/-- The star without triples. -/
def new (name : String) (isVariable : Bool) : Star := ⟨name, isVariable, .empty⟩

instance : Inhabited Star := ⟨new "" false⟩

/-- Add a triple; one with the same predicate is replaced where it stands. -/
def insert (s : Star) (triple : Triple) (link? : Option String) : Star :=
  { s with rays := s.rays.insert ⟨triple, link?⟩ }

/-- The ray of a predicate. -/
def get? (s : Star) (predicate : String) : Option Ray := s.rays.get? predicate

/-- The triples, in order. -/
def triples (s : Star) : List Triple := s.rays.toList.map Ray.triple

/-- Whether the star has no triple. -/
def isEmpty (s : Star) : Bool := s.rays.isEmpty

/-- The rays of a star followed by those of another; for a common predicate the other's ray
counts. The name stays. -/
def extend (s other : Star) : Star :=
  { s with rays := s.rays.insertAll other.rays.toList }

@[simp]
theorem name_insert (s : Star) (t : Triple) (l : Option String) : (s.insert t l).name = s.name :=
  rfl

@[simp]
theorem name_extend (s other : Star) : (s.extend other).name = s.name := rfl

/-- Whether two stars have the same name and the same rays, whatever the order of these. -/
def agrees (s other : Star) : Bool :=
  s.name = other.name && s.isVariable = other.isVariable && s.rays.size = other.rays.size &&
    s.rays.toList.all fun r => other.get? r.predicate = some r

end Star

end StarShapes
