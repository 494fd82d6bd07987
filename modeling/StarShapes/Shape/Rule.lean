import StarShapes.Collection.NameSet
import StarShapes.Shape.Error

/-!
Rules: what a shape says of one predicate.

* `Constraint`: the shapes that a value has to conform to, or the datatypes that it may have.
* `Cardinality`: how many values there may be; the bounds are in order by construction
  (`Cardinality.ofBounds`).
* `Rule`: a predicate with its constraint and cardinality, and whether it is forbidden.
-/

namespace StarShapes

/-- What the values of a predicate have to be. -/
inductive Constraint where
  /-- Values conform to one of these shapes. -/
  | shape (targets : NameSet)
  /-- Values that are literals have one of these datatypes. -/
  | datatype (types : NameSet)
  deriving DecidableEq

namespace Constraint

/-- The target of a constraint that names exactly one shape. -/
def target? : Constraint → Option String
  | shape targets => targets.single?
  | datatype _ => none

/-- The datatypes that a datatype constraint allows. -/
def datatypes? : Constraint → Option NameSet
  | shape _ => none
  | datatype types => some types

end Constraint

/-- How many values a predicate may have. -/
structure Cardinality where
  /-- The least number of values. -/
  min : Nat
  /-- The greatest number of values, if there is one. -/
  max? : Option Nat
  /-- The bounds are in order. -/
  min_le_max : ∀ m ∈ max?, min ≤ m
  deriving DecidableEq

namespace Cardinality

/-- Exactly one value. -/
def one : Cardinality := ⟨1, some 1, by simp⟩

instance : Inhabited Cardinality := ⟨one⟩

/-- The greatest bound that a cardinality can have. -/
def limit : Nat := 4294967295

/-- The cardinality with the given bounds; `predicate` is named in the report of bounds that are
out of order. -/
def ofBounds (predicate : String) (min : Nat) (max? : Option Nat) :
    Except ShapeError Cardinality :=
  match max? with
  | none => .ok ⟨min, none, by simp⟩
  | some max =>
    if h : min ≤ max then .ok ⟨min, some max, by simpa using h⟩
    else .error (.invertedBounds predicate min max)

/-- Bounds are refused exactly when they are out of order. -/
theorem ofBounds_eq_error_iff {p : String} {min : Nat} {max? : Option Nat} {e : ShapeError} :
    ofBounds p min max? = .error e ↔
      ∃ max, max? = some max ∧ max < min ∧ e = .invertedBounds p min max := by
  unfold ofBounds
  split
  · simp
  · rename_i max
    split
    · rename_i h
      simp [Nat.not_lt.2 h]
    · rename_i h
      constructor
      · intro he
        exact ⟨max, rfl, Nat.lt_of_not_le h, by simpa using he.symm⟩
      · rintro ⟨m, hm, _, rfl⟩
        cases hm
        rfl

/-- Accepted bounds are kept. -/
theorem bounds_of_ofBounds {p : String} {min : Nat} {max? : Option Nat} {c : Cardinality}
    (h : ofBounds p min max? = .ok c) : c.min = min ∧ c.max? = max? := by
  unfold ofBounds at h
  split at h
  · cases h
    exact ⟨rfl, rfl⟩
  · split at h
    · cases h
      exact ⟨rfl, rfl⟩
    · cases h

end Cardinality

/-- What a shape says of a predicate. -/
structure Rule where
  /-- The IRI of the predicate. -/
  predicate : String
  /-- What its values have to be. -/
  constraint? : Option Constraint
  /-- How many values it may have. -/
  cardinality? : Option Cardinality
  /-- Whether it is forbidden. -/
  isNegative : Bool
  /-- Whether it may be absent. -/
  isOptional : Bool
  deriving DecidableEq

namespace Rule

/-- The rule that asks for a predicate and says nothing of its values. -/
def new (predicate : String) : Rule := ⟨predicate, none, none, false, false⟩

instance : Inhabited Rule := ⟨new ""⟩

/-- The rule with a constraint on its values. -/
def withConstraint (r : Rule) (c : Constraint) : Rule := { r with constraint? := some c }

/-- The rule with a cardinality; a predicate that needs no value may be absent. -/
def withCardinality (r : Rule) (c : Cardinality) : Rule :=
  { r with cardinality? := some c, isOptional := r.isOptional || c.min == 0 }

/-- The rule with a predicate that may be absent. -/
def optional (r : Rule) : Rule := { r with isOptional := true }

/-- The rule with a predicate that is asked for, or forbidden. -/
def withNegative (b : Bool) (r : Rule) : Rule := { r with isNegative := b }

@[simp]
theorem predicate_withNegative (b : Bool) (r : Rule) :
    (r.withNegative b).predicate = r.predicate := rfl

@[simp]
theorem isNegative_withNegative (b : Bool) (r : Rule) : (r.withNegative b).isNegative = b := rfl

end Rule

end StarShapes
