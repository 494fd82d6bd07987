import StarShapes.Collection.Distinct
import StarShapes.Collection.Keyed
import StarShapes.Shape.Rule

/-!
Shapes: what the triples of a subject have to be.

* `Declarations`: what a shape is declared to ask for, to forbid and to offer as alternatives.
* `Shape`: the rules that it asks for and those that it forbids, at most one for a predicate.
* `Shape.new`: the shape of its declarations, where a later declaration of a predicate overrides
  an earlier one; a predicate both asked for and forbidden is a fault.
* `Shape.get?`: the rule of a predicate.
-/

namespace StarShapes

/-- Alternatives of a shape: one of several sets of rules holds. -/
abbrev OneOf : Type := List (List Rule)

/-- What a shape is declared to be. -/
structure Declarations where
  /-- The name of the shape. -/
  name : String
  /-- Whether predicates without rule are forbidden. -/
  closed : Bool
  /-- The rules that it asks for. -/
  positive : List Rule
  /-- The rules that it forbids. -/
  negative : List Rule
  /-- The alternatives that it offers. -/
  oneOf : List OneOf
  deriving DecidableEq

/-- A shape, with its rules by predicate. -/
structure Shape where
  /-- The name of the shape. -/
  name : String
  /-- Whether predicates without rule are forbidden. -/
  closed : Bool
  /-- The rules that it asks for, those of its alternatives included. -/
  positive : Keyed Rule.predicate
  /-- The rules that it forbids. -/
  negative : Keyed Rule.predicate
  /-- The alternatives, as declared. -/
  oneOf : List OneOf
  /-- The rules asked for are marked so. -/
  isNegative_positive : ∀ r ∈ positive.toList, r.isNegative = false
  /-- The rules forbidden are marked so. -/
  isNegative_negative : ∀ r ∈ negative.toList, r.isNegative = true
  /-- No predicate is both asked for and forbidden. -/
  disjoint : ∀ p ∈ positive.keys, p ∉ negative.keys
  deriving DecidableEq

namespace Declarations

/-- The rules asked for by predicate: those of the positive list, then those of every set of
every alternative. -/
def positiveRules (d : Declarations) : Keyed Rule.predicate :=
  .ofList ((d.positive ++ d.oneOf.flatten.flatten).map (Rule.withNegative false))

/-- The rules forbidden by predicate. -/
def negativeRules (d : Declarations) : Keyed Rule.predicate :=
  .ofList (d.negative.map (Rule.withNegative true))

/-- The predicates both asked for and forbidden, in the order in which they are asked for. -/
def overlap (d : Declarations) : List String := d.positiveRules.keys.filter d.negativeRules.contains

theorem isNegative_positiveRules {d : Declarations} {r : Rule} (h : r ∈ d.positiveRules.toList) :
    r.isNegative = false := by
  obtain ⟨r', _, rfl⟩ := List.mem_map.1 (Keyed.mem_of_mem_ofList h)
  rfl

theorem isNegative_negativeRules {d : Declarations} {r : Rule} (h : r ∈ d.negativeRules.toList) :
    r.isNegative = true := by
  obtain ⟨r', _, rfl⟩ := List.mem_map.1 (Keyed.mem_of_mem_ofList h)
  rfl

theorem disjoint_of_overlap {d : Declarations} (h : d.overlap = []) :
    ∀ p ∈ d.positiveRules.keys, p ∉ d.negativeRules.keys := fun p hp hn =>
  List.filter_eq_nil_iff.1 h p hp (Keyed.contains_iff_mem.2 hn)

end Declarations

namespace Shape

/-- The shape of its declarations; a later declaration of a predicate overrides an earlier one. -/
def new (d : Declarations) : Except ShapeError Shape :=
  if h : d.overlap = [] then
    .ok {
      name := d.name
      closed := d.closed
      positive := d.positiveRules
      negative := d.negativeRules
      oneOf := d.oneOf
      isNegative_positive := fun _ => Declarations.isNegative_positiveRules
      isNegative_negative := fun _ => Declarations.isNegative_negativeRules
      disjoint := Declarations.disjoint_of_overlap h }
  else .error (.overlap d.name d.overlap)

/-- A shape has what its declarations make of it. -/
theorem of_new {d : Declarations} {s : Shape} (h : new d = .ok s) :
    s.name = d.name ∧ s.positive = d.positiveRules ∧ s.negative = d.negativeRules ∧
      s.oneOf = d.oneOf := by
  rw [new] at h
  split at h
  · obtain rfl := Except.ok.inj h
    exact ⟨rfl, rfl, rfl, rfl⟩
  · cases h

/-- A closed shape that asks for the given rules. -/
def closedOf (name : String) (rules : List Rule) : Except ShapeError Shape :=
  new ⟨name, true, rules, [], []⟩

/-- An open shape that asks for the given rules. -/
def openOf (name : String) (rules : List Rule) : Except ShapeError Shape :=
  new ⟨name, false, rules, [], []⟩

/-- The shape without rules that allows everything. -/
def free (name : String) : Shape :=
  ⟨name, false, .empty, .empty, [], by simp, by simp, by simp⟩

instance : Inhabited Shape := ⟨free ""⟩

/-- The rule of a predicate. -/
def get? (s : Shape) (predicate : String) : Option Rule :=
  (s.positive.get? predicate).or (s.negative.get? predicate)

/-- Whether a predicate is asked for. -/
def isPositive (s : Shape) (predicate : String) : Bool :=
  (s.get? predicate).any fun r => !r.isNegative

/-- Whether a predicate is forbidden. -/
def isNegative (s : Shape) (predicate : String) : Bool :=
  (s.get? predicate).any fun r => r.isNegative

/-- All rules: those asked for, then those forbidden. -/
def rules (s : Shape) : List Rule := s.positive.toList ++ s.negative.toList

/-- Every set of every alternative, by predicate. -/
def oneOfIndexed (s : Shape) : List (List (Keyed Rule.predicate)) :=
  s.oneOf.map fun alternative => alternative.map Keyed.ofList

/-- The shapes that a rule asked for names, in the order of the rules and each once. -/
def linkedShapes (s : Shape) : List String :=
  distinct <| s.positive.toList.flatMap fun r =>
    match r.constraint? with
    | some (.shape targets) => targets.toList
    | _ => []

theorem isPositive_iff {s : Shape} {p : String} : s.isPositive p = true ↔ p ∈ s.positive.keys := by
  unfold isPositive get?
  cases hp : s.positive.get? p with
  | some r =>
    simp [s.isNegative_positive r (Keyed.mem_of_get? hp), Keyed.mem_keys_of_get? hp]
  | none =>
    have hn := Keyed.get?_eq_none_iff.1 hp
    cases hq : s.negative.get? p with
    | some r => simp [s.isNegative_negative r (Keyed.mem_of_get? hq), hn]
    | none => simp [hn]

theorem isNegative_iff {s : Shape} {p : String} : s.isNegative p = true ↔ p ∈ s.negative.keys := by
  unfold isNegative get?
  cases hp : s.positive.get? p with
  | some r =>
    simp [s.isNegative_positive r (Keyed.mem_of_get? hp),
      s.disjoint p (Keyed.mem_keys_of_get? hp)]
  | none =>
    cases hq : s.negative.get? p with
    | some r => simp [s.isNegative_negative r (Keyed.mem_of_get? hq), Keyed.mem_keys_of_get? hq]
    | none => simp [Keyed.get?_eq_none_iff.1 hq]

end Shape

end StarShapes
