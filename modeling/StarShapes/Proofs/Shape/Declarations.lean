import Mathlib.Data.List.Forall2
import Mathlib.Data.List.Nodup
import StarShapes.Proofs.Collection.Distinct
import StarShapes.Shape.Basic

/-!
Declarations: what becomes of them in a shape.

* `lastRule?`: the rule of a predicate that is declared last, which overrides those before it. A
  keyed list of rules has it at each predicate (`get?_ofList_rules`).
* `Declarations.asked`, `Declarations.Clashes`: all rules that are asked for, and the predicates
  that are both asked for and forbidden.
* `keys_positiveRules`, `get?_positiveRules` and their likes for the forbidden rules: the predicates
  of a shape and the rules found there.
* `Shape.Represents`: everything that can be seen of a shape, said of its declarations.
* `new_represents`: declarations are refused exactly if a predicate clashes; otherwise the shape
  represents them.
-/

namespace StarShapes

/-! ### Rules declared for a predicate -/

/-- The last of the rules for a predicate. -/
def lastRule? (rules : List Rule) (predicate : String) : Option Rule :=
  rules.reverse.find? fun r => r.predicate = predicate

lemma isSome_lastRule?_iff {rules : List Rule} {p : String} :
    (lastRule? rules p).isSome = true ↔ p ∈ rules.map Rule.predicate := by
  simp [lastRule?]

/-- To mark all rules is to mark the last one for each predicate. -/
lemma lastRule?_map_withNegative (b : Bool) (rules : List Rule) (p : String) :
    lastRule? (rules.map (Rule.withNegative b)) p =
      (lastRule? rules p).map (Rule.withNegative b) := by
  rw [lastRule?, ← List.map_reverse, List.find?_map]
  rfl

/-- A keyed list of rules has the last one for each predicate. -/
lemma get?_ofList_rules (rules : List Rule) (p : String) :
    (Keyed.ofList rules : Keyed Rule.predicate).get? p = lastRule? rules p :=
  Keyed.get?_ofList rules p

/-! ### The rules of a shape -/

namespace Declarations

variable {d : Declarations} {p : String}

/-- All rules that are asked for, in the order of their declaration: those of the list, then those
of the alternatives. -/
def asked (d : Declarations) : List Rule := d.positive ++ d.oneOf.flatten.flatten

/-- A predicate is both asked for and forbidden. -/
def Clashes (d : Declarations) (p : String) : Prop :=
  p ∈ d.asked.map Rule.predicate ∧ p ∈ d.negative.map Rule.predicate

instance (d : Declarations) : DecidablePred d.Clashes := fun _ => inferInstanceAs (Decidable (_ ∧ _))

lemma keys_positiveRules (d : Declarations) :
    d.positiveRules.keys = distinct (d.asked.map Rule.predicate) := by
  rw [positiveRules, Keyed.keys_ofList, List.map_map]
  rfl

lemma keys_negativeRules (d : Declarations) :
    d.negativeRules.keys = distinct (d.negative.map Rule.predicate) := by
  rw [negativeRules, Keyed.keys_ofList, List.map_map]
  rfl

lemma mem_keys_positiveRules :
    p ∈ d.positiveRules.keys ↔
      (∃ r ∈ d.positive, r.predicate = p) ∨ ∃ c ∈ d.oneOf, ∃ m ∈ c, ∃ r ∈ m, r.predicate = p := by
  simp only [keys_positiveRules, mem_distinct, asked, List.mem_map, List.mem_append,
    List.mem_flatten]
  constructor
  · rintro ⟨r, hr | ⟨m, ⟨c, hc, hm⟩, hr⟩, rfl⟩
    · exact .inl ⟨r, hr, rfl⟩
    · exact .inr ⟨c, hc, m, hm, r, hr, rfl⟩
  · rintro (⟨r, hr, rfl⟩ | ⟨c, hc, m, hm, r, hr, rfl⟩)
    · exact ⟨r, .inl hr, rfl⟩
    · exact ⟨r, .inr ⟨m, ⟨c, hc, hm⟩, hr⟩, rfl⟩

lemma mem_keys_negativeRules :
    p ∈ d.negativeRules.keys ↔ ∃ r ∈ d.negative, r.predicate = p := by
  rw [keys_negativeRules, mem_distinct, List.mem_map]

lemma get?_positiveRules (d : Declarations) (p : String) :
    d.positiveRules.get? p = (lastRule? d.asked p).map (Rule.withNegative false) := by
  rw [positiveRules, get?_ofList_rules, lastRule?_map_withNegative]
  rfl

lemma get?_negativeRules (d : Declarations) (p : String) :
    d.negativeRules.get? p = (lastRule? d.negative p).map (Rule.withNegative true) := by
  rw [negativeRules, get?_ofList_rules, lastRule?_map_withNegative]

/-- The predicates that clash, in the order in which they are first asked for. -/
lemma overlap_eq (d : Declarations) :
    d.overlap = (distinct (d.asked.map Rule.predicate)).filter d.Clashes := by
  rw [overlap, keys_positiveRules]
  refine List.filter_congr fun p hp => ?_
  rw [Bool.eq_iff_iff, Keyed.contains_iff_mem, keys_negativeRules, mem_distinct, decide_eq_true_eq,
    Clashes, and_iff_right (mem_distinct.mp hp)]

lemma overlap_ne_nil_iff : d.overlap ≠ [] ↔ ∃ p, d.Clashes p := by
  rw [overlap_eq, Ne, List.filter_eq_nil_iff]
  simp only [decide_eq_true_eq, mem_distinct, not_forall, not_not]
  constructor
  · rintro ⟨p, -, hp⟩
    exact ⟨p, hp⟩
  · rintro ⟨p, hp⟩
    exact ⟨p, hp.1, hp⟩

end Declarations

/-! ### What can be seen of a shape -/

namespace Shape

variable {s : Shape} {d : Declarations}

/-- Everything that can be seen of a shape agrees with its declarations. -/
structure Represents (s : Shape) (d : Declarations) : Prop where
  /-- The name is as declared, -/
  name_eq : s.name = d.name
  /-- and so is whether the shape is closed, -/
  closed_eq : s.closed = d.closed
  /-- and so are the alternatives. -/
  oneOf_eq : s.oneOf = d.oneOf
  /-- The predicates asked for stand in the order in which they are first declared, -/
  keys_positive : s.positive.keys = distinct (d.asked.map Rule.predicate)
  /-- and so do those that are forbidden. -/
  keys_negative : s.negative.keys = distinct (d.negative.map Rule.predicate)
  /-- None of them occurs twice, or on both sides. -/
  nodup : (s.positive.keys ++ s.negative.keys).Nodup
  /-- The rule of a predicate is the one declared last, marked as asked for or forbidden. -/
  get?_eq : ∀ p, s.get? p = ((lastRule? d.asked p).map (Rule.withNegative false)).or
    ((lastRule? d.negative p).map (Rule.withNegative true))
  /-- There is a rule for each predicate that is declared, and for no other. -/
  isSome_get? : ∀ p, (s.get? p).isSome = true ↔
    p ∈ d.asked.map Rule.predicate ∨ p ∈ d.negative.map Rule.predicate
  /-- A predicate is asked for if it stands among those that are. -/
  positive_iff : ∀ p, s.isPositive p = true ↔ p ∈ s.positive.keys
  /-- A predicate is forbidden if it stands among those that are. -/
  negative_iff : ∀ p, s.isNegative p = true ↔ p ∈ s.negative.keys
  /-- All rules are those of the predicates asked for, then those of the predicates forbidden. -/
  rules_eq : s.rules.map some = (s.positive.keys ++ s.negative.keys).map s.get?
  /-- Each set of an alternative has the rule that it declares last for a predicate, and its
  predicates in the order in which it first declares them. -/
  oneOfIndexed : List.Forall₂ (List.Forall₂ fun rules index =>
    index.keys = distinct (rules.map Rule.predicate) ∧ ∀ p, index.get? p = lastRule? rules p)
      d.oneOf s.oneOfIndexed

/-- The rule of a predicate that is asked for is found among the rules asked for. -/
lemma get?_of_mem_positive {p : String} (hp : p ∈ s.positive.keys) :
    s.get? p = s.positive.get? p := by
  have hsome : s.positive.get? p ≠ none := fun hnone => Keyed.get?_eq_none_iff.mp hnone hp
  obtain ⟨r, hr⟩ := Option.ne_none_iff_exists'.mp hsome
  rw [get?, hr, Option.some_or]

/-- The rule of a predicate that is forbidden is found among the rules forbidden. -/
lemma get?_of_mem_negative {p : String} (hp : p ∈ s.negative.keys) :
    s.get? p = s.negative.get? p := by
  have hnone : s.positive.get? p = none :=
    Keyed.get?_eq_none_iff.mpr fun hpositive => s.disjoint p hpositive hp
  rw [get?, hnone, Option.none_or]

/-- The rules of a shape are found at its predicates. -/
lemma map_get?_keys (s : Shape) :
    (s.positive.keys ++ s.negative.keys).map s.get? = s.rules.map some := by
  have hpositive : s.positive.keys.map s.get? = s.positive.toList.map some := by
    rw [← Keyed.map_get?_keys]
    exact List.map_congr_left fun p hp => get?_of_mem_positive hp
  have hnegative : s.negative.keys.map s.get? = s.negative.toList.map some := by
    rw [← Keyed.map_get?_keys]
    exact List.map_congr_left fun p hp => get?_of_mem_negative hp
  rw [List.map_append, hpositive, hnegative, rules, List.map_append]

/-- No predicate of a shape occurs twice, or on both sides. -/
lemma nodup_keys (s : Shape) : (s.positive.keys ++ s.negative.keys).Nodup :=
  s.positive.nodup_keys.append s.negative.nodup_keys s.disjoint

/-- A shape is closed if it is declared so. -/
lemma closed_of_new (h : new d = .ok s) : s.closed = d.closed := by
  rw [new] at h
  split at h
  · obtain rfl := Except.ok.inj h
    rfl
  · cases h

/-- The shape of its declarations represents them. -/
lemma represents_of_new (h : new d = .ok s) : s.Represents d := by
  obtain ⟨hname, hpositive, hnegative, honeOf⟩ := of_new h
  have hget (p : String) : s.get? p = ((lastRule? d.asked p).map (Rule.withNegative false)).or
      ((lastRule? d.negative p).map (Rule.withNegative true)) := by
    rw [get?, hpositive, hnegative, d.get?_positiveRules, d.get?_negativeRules]
  refine {
    name_eq := hname
    closed_eq := closed_of_new h
    oneOf_eq := honeOf
    keys_positive := hpositive ▸ d.keys_positiveRules
    keys_negative := hnegative ▸ d.keys_negativeRules
    nodup := s.nodup_keys
    get?_eq := hget
    isSome_get? := fun p => ?_
    positive_iff := fun _ => isPositive_iff
    negative_iff := fun _ => isNegative_iff
    rules_eq := s.map_get?_keys.symm
    oneOfIndexed := ?_ }
  · rw [hget, Option.isSome_or, Option.isSome_map, Option.isSome_map, Bool.or_eq_true,
      isSome_lastRule?_iff, isSome_lastRule?_iff]
  · rw [oneOfIndexed, honeOf]
    refine List.forall₂_map_right_iff.mpr (List.forall₂_same.mpr fun sets _ => ?_)
    refine List.forall₂_map_right_iff.mpr (List.forall₂_same.mpr fun rules _ => ?_)
    exact ⟨Keyed.keys_ofList rules, get?_ofList_rules rules⟩

/-- Declarations are refused exactly if predicates clash, and these are reported. -/
lemma new_eq_error_iff {e : ShapeError} :
    new d = .error e ↔ d.overlap ≠ [] ∧ e = .overlap d.name d.overlap := by
  rw [new]
  split
  · rename_i hnone
    simp [hnone]
  · rename_i hsome
    rw [Except.error.injEq, eq_comm]
    exact ⟨fun he => ⟨hsome, he⟩, And.right⟩

/-- **A shape agrees with its declarations, or there is none.** Declarations are refused exactly if
some predicate is both asked for, in the list or in an alternative, and forbidden; then all such
predicates are reported, in the order in which they are first asked for. Otherwise there is a shape
that represents the declarations. -/
theorem new_represents (d : Declarations) :
    (∀ e, new d = .error e ↔ (∃ p, d.Clashes p) ∧
      e = .overlap d.name ((distinct (d.asked.map Rule.predicate)).filter d.Clashes)) ∧
    ((¬ ∃ p, d.Clashes p) → ∃ s, new d = .ok s ∧ s.Represents d) := by
  constructor
  · intro e
    rw [← d.overlap_eq, ← Declarations.overlap_ne_nil_iff]
    exact new_eq_error_iff
  · intro hnone
    rw [← Declarations.overlap_ne_nil_iff, not_not] at hnone
    have hs : new d = .ok _ := dif_pos hnone
    exact ⟨_, hs, represents_of_new hs⟩

/-- Two predicates in the list, of which one comes again in an alternative with a third, and one
that is forbidden twice, the second time as optional; what else is forbidden. -/
def repeating (others : List Rule) : Declarations where
  name := "S"
  closed := true
  positive := [.new "p", .new "q"]
  negative := [.new "n", (Rule.new "n").optional] ++ others
  oneOf := [[[.new "r", (Rule.new "q").optional], [.new "r"]]]

/-- Without clashes the last declarations count, where the first ones stand. With clashes these are
reported, in the order in which they are asked for. -/
theorem repeating_represented : (¬ ∃ p, (repeating []).Clashes p) ∧
    (∃ s, new (repeating []) = .ok s ∧ s.positive.keys = ["p", "q", "r"] ∧
      s.get? "q" = some (Rule.new "q").optional ∧
      s.get? "n" = some ((Rule.new "n").optional.withNegative true)) ∧
    new (repeating [.new "r", .new "p"]) = .error (.overlap "S" ["p", "r"]) := by
  have hnone : ¬ ∃ p, (repeating []).Clashes p := by
    rw [← Declarations.overlap_ne_nil_iff, not_not]
    decide +kernel
  have hclash : (repeating [.new "r", .new "p"]).Clashes "p" := by decide +kernel
  obtain ⟨s, hs, hrepresents⟩ := (new_represents (repeating [])).2 hnone
  refine ⟨hnone, ⟨s, hs, ?_, ?_, ?_⟩, ?_⟩
  · exact hrepresents.keys_positive.trans (by decide +kernel)
  · exact (hrepresents.get?_eq "q").trans (by decide +kernel)
  · exact (hrepresents.get?_eq "n").trans (by decide +kernel)
  · exact ((new_represents _).1 _).mpr ⟨⟨"p", hclash⟩, by decide +kernel⟩

end Shape

end StarShapes
