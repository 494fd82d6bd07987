import Mathlib.Data.List.Basic
import Mathlib.Tactic.Lemma
import StarShapes.Shape.Object

/-!
Objects: what the JSON object of a shape tells of it, which is everything.

* `Json.member?`: the value of a member. What is left out of an object is told by its absence
  (`Cardinality.member?_toJson`, `Rule.member?_toJson`).
* `Constraint.toJson_injective`, `Cardinality.toJson_injective`, `Rule.toJson_injective`: what a
  shape is made of is known by its object.
* `Shape.Agrees`: two shapes have the same parts, and the same can be looked up in them.
* `Shape.toJson_eq_iff`: this is so exactly if they have the same object.
-/

namespace StarShapes

/-! ### Members and items -/

namespace Json

/-- The value of a member; none if there is no such member, or no object. -/
def member? : Json → String → Option Json
  | object members, name => members.lookup name
  | _, _ => none

lemma lookup_singleton (name key : String) (v : Json) :
    [(key, v)].lookup name = if name = key then some v else none := by
  by_cases h : name = key
  · simp [h]
  · rw [List.lookup_cons, beq_false_of_ne h, if_neg h, List.lookup_nil]

/-- A member that is left out if there is no value for it. -/
lemma lookup_toList {α : Type} (name key : String) (x : Option α) (f : α → Json) :
    (x.map fun a => (key, f a)).toList.lookup name = if name = key then x.map f else none := by
  cases x with
  | none => simp
  | some a => exact lookup_singleton name key (f a)

/-- A flag that is down has no member. -/
lemma lookup_flag (name key : String) (b : Bool) :
    (flag key b).lookup name = if name = key ∧ b = true then some (bool true) else none := by
  cases b with
  | false => simp [flag]
  | true => simpa [flag] using lookup_singleton name key (bool true)

/-- An array is known by its items, and these by what was written. -/
lemma array_map_injective {α : Type} {f : α → Json} (hf : Function.Injective f) :
    Function.Injective fun l : List α => array (l.map f) := fun _ _ h =>
  List.map_injective_iff.mpr hf (array.inj h)

end Json

/-! ### Constraints and cardinalities -/

/-- A set of names is known by its members, which stand in ascending order. -/
lemma NameSet.toJson_injective :
    Function.Injective fun s : NameSet => Json.array (s.toList.map .string) := fun _ _ h =>
  NameSet.ext (Json.array_map_injective (fun _ _ => Json.string.inj) h)

/-- A constraint is known by its kind and its value set. -/
lemma Constraint.toJson_injective : Function.Injective Constraint.toJson := by
  intro c c' h
  have htype := congrArg (Json.member? · "type") h
  have hvalue := congrArg (Json.member? · "value") h
  cases c <;> cases c'
  case shape.shape => exact congrArg _ (NameSet.toJson_injective (Option.some.inj hvalue))
  case datatype.datatype => exact congrArg _ (NameSet.toJson_injective (Option.some.inj hvalue))
  all_goals simp [toJson, Json.member?] at htype

namespace Cardinality

/-- The members of a cardinality: its lower bound, and its upper bound if it has one. -/
lemma member?_toJson (c : Cardinality) (name : String) : c.toJson.member? name =
    (if name = "max" then c.max?.map Json.number else none).or
      (if name = "min" then some (.number c.min) else none) := by
  rw [toJson, Json.member?, List.lookup_append, Json.lookup_toList, Json.lookup_singleton]

/-- A cardinality is known by its bounds. -/
lemma toJson_injective : Function.Injective toJson := by
  intro c c' h
  have hmember (name : String) := congrArg (Json.member? · name) h
  simp only [member?_toJson] at hmember
  have hmin : c.min = c'.min := by simpa using hmember "min"
  have hmax : c.max? = c'.max? :=
    Option.map_injective (fun _ _ => Json.number.inj) (by simpa using hmember "max")
  cases c
  cases c'
  cases hmin
  cases hmax
  rfl

end Cardinality

/-! ### Rules -/

namespace Rule

/-- The members of a rule: its predicate, what it says of values if it does, and its flags if they
are up. -/
lemma member?_toJson (r : Rule) (name : String) : r.toJson.member? name =
    (((((if name = "cardinality" then r.cardinality?.map Cardinality.toJson else none).or
      (if name = "constraint" then r.constraint?.map Constraint.toJson else none)).or
      (if name = "name" then some (.string r.predicate) else none)).or
      (if name = "negative" ∧ r.isNegative = true then some (.bool true) else none)).or
      (if name = "optional" ∧ r.isOptional = true then some (.bool true) else none)) := by
  simp only [toJson, Json.member?, List.lookup_append, Json.lookup_toList, Json.lookup_singleton,
    Json.lookup_flag]

/-- A rule is known by its object. -/
lemma toJson_injective : Function.Injective toJson := by
  intro r r' h
  have hmember (name : String) := congrArg (Json.member? · name) h
  simp only [member?_toJson] at hmember
  have hname : r.predicate = r'.predicate := by simpa using hmember "name"
  have hcardinality : r.cardinality? = r'.cardinality? :=
    Option.map_injective Cardinality.toJson_injective (by simpa using hmember "cardinality")
  have hconstraint : r.constraint? = r'.constraint? :=
    Option.map_injective Constraint.toJson_injective (by simpa using hmember "constraint")
  -- a flag is up exactly if it has a member
  have hnegative : r.isNegative = r'.isNegative := by
    simpa using Bool.eq_iff_iff.mp (congrArg Option.isSome (hmember "negative"))
  have hoptional : r.isOptional = r'.isOptional := by
    simpa using Bool.eq_iff_iff.mp (congrArg Option.isSome (hmember "optional"))
  cases r
  cases r'
  cases hname
  cases hcardinality
  cases hconstraint
  cases hnegative
  cases hoptional
  rfl

/-- A list of rules is known by the list of their objects. -/
lemma listToJson_injective : Function.Injective listToJson :=
  Json.array_map_injective toJson_injective

end Rule

/-! ### Shapes -/

namespace Shape

variable {s s' : Shape}

/-- Two shapes agree in all that can be seen of them. -/
structure Agrees (s s' : Shape) : Prop where
  /-- They have the same name. -/
  name : s.name = s'.name
  /-- Both are closed, or neither is. -/
  closed : s.closed = s'.closed
  /-- They ask for the same predicates, in the same order, -/
  keys_positive : s.positive.keys = s'.positive.keys
  /-- and forbid the same, in the same order. -/
  keys_negative : s.negative.keys = s'.negative.keys
  /-- They have the same rules, with all that these say. -/
  rules : s.rules = s'.rules
  /-- The same rule is found at each predicate. -/
  get? : ∀ p, s.get? p = s'.get? p
  /-- They offer the same alternatives, as declared -/
  oneOf : s.oneOf = s'.oneOf
  /-- and by predicate. -/
  oneOfIndexed : s.oneOfIndexed = s'.oneOfIndexed

/-- Shapes that agree are the same. -/
lemma eq_of_agrees (h : s.Agrees s') : s = s' := by
  have hrules : s.positive.toList = s'.positive.toList ∧ s.negative.toList = s'.negative.toList :=
    List.append_inj h.rules (by simpa [Keyed.keys] using congrArg List.length h.keys_positive)
  have hpositive := Keyed.ext hrules.1
  have hnegative := Keyed.ext hrules.2
  have hname := h.name
  have hclosed := h.closed
  have honeOf := h.oneOf
  cases s
  cases s'
  cases hname
  cases hclosed
  cases hpositive
  cases hnegative
  cases honeOf
  rfl

/-- The object of a shape tells its parts, each by a member of its own. -/
lemma agrees_of_toJson (h : s.toJson = s'.toJson) : s.Agrees s' := by
  have hmember (key : String) {v v' : Json} (hv : s.toJson.member? key = some v)
      (hv' : s'.toJson.member? key = some v') : v = v' :=
    Option.some.inj (hv.symm.trans (h ▸ hv'))
  have hclosed : s.closed = s'.closed := Json.bool.inj (hmember "closed" rfl rfl)
  have hname : s.name = s'.name := Json.string.inj (hmember "name" rfl rfl)
  have hnegative : s.negative = s'.negative :=
    Keyed.ext (Rule.listToJson_injective (hmember "negativePredicates" rfl rfl))
  have hpositive : s.positive = s'.positive :=
    Keyed.ext (Rule.listToJson_injective (hmember "positivePredicates" rfl rfl))
  have honeOf : s.oneOf = s'.oneOf :=
    Json.array_map_injective (Json.array_map_injective Rule.listToJson_injective)
      (hmember "oneOf" rfl rfl)
  exact {
    name := hname
    closed := hclosed
    keys_positive := by rw [hpositive]
    keys_negative := by rw [hnegative]
    rules := by rw [Shape.rules, Shape.rules, hpositive, hnegative]
    get? := fun p => by rw [Shape.get?, Shape.get?, hpositive, hnegative]
    oneOf := honeOf
    oneOfIndexed := by rw [Shape.oneOfIndexed, Shape.oneOfIndexed, honeOf] }

/-- **The object of a shape tells all of it**: shapes with the same object agree in all that can be
seen of them, also in what is not written down, and no others have the same object. -/
theorem toJson_eq_iff : s.toJson = s'.toJson ↔ s.Agrees s' :=
  ⟨agrees_of_toJson, fun h => congrArg toJson (eq_of_agrees h)⟩

end Shape

end StarShapes
