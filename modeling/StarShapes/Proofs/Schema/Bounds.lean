import Mathlib.Data.List.Induction
import Mathlib.Tactic.Lemma
import StarShapes.Proofs.Schema.Unfolding

/-!
Bounds: which cardinality a triple constraint has, from the texts of its bounds on.

* `Numeral`, `Spells`: what integer a text stands for, with all its digits. A text is read if the
  integer fits into 64 bits (`readInteger?_eq_some_iff`).
* `Graph.StatesInteger`, `Graph.StatesBounds`: the integers that are stated of a node, and bounds
  that fit into their ranges. Just these are read (`bounds_eq_ok_iff`).
* `Graph.RuleOf`: the rule for the bounds of a node.
* `Graph.tripleConstraint_exact`: a triple constraint without value expression is read exactly if
  its bounds are stated, fit and are in order; otherwise the fault is one of the bounds or of their
  order.
-/

namespace StarShapes

/-! ### Integers as text -/

/-- Decimal digits, at least one, and the number that they spell. -/
inductive Numeral : List Char → Nat → Prop
  | digit {c : Char} (hc : c.isDigit = true) : Numeral [c] (c.toNat - '0'.toNat)
  | append {cs : List Char} {n : Nat} {c : Char} (h : Numeral cs n) (hc : c.isDigit = true) :
      Numeral (cs ++ [c]) (10 * n + (c.toNat - '0'.toNat))

namespace Numeral

variable {cs : List Char} {n : Nat}

lemma ne_nil (h : Numeral cs n) : cs ≠ [] := by
  cases h <;> simp

lemma isDigit (h : Numeral cs n) : ∀ c ∈ cs, c.isDigit = true := by
  induction h with
  | digit hc => simpa using hc
  | append _ hc ih => simpa [or_imp, forall_and] using ⟨ih, hc⟩

/-- The number is that of the digits read from the left. -/
lemma foldl_eq (h : Numeral cs n) : cs.foldl (fun n c => 10 * n + (c.toNat - '0'.toNat)) 0 = n := by
  induction h with
  | digit => simp
  | append _ _ ih => rw [List.foldl_append, ih]; rfl

/-- Digits spell what is read from the left. -/
lemma of_isDigit (hne : cs ≠ []) (h : ∀ c ∈ cs, c.isDigit = true) :
    Numeral cs (cs.foldl (fun n c => 10 * n + (c.toNat - '0'.toNat)) 0) := by
  induction cs using List.reverseRecOn with
  | nil => exact absurd rfl hne
  | append_singleton cs c ih =>
      have hc : c.isDigit = true := h c (by simp)
      by_cases hcs : cs = []
      · subst hcs
        simpa using digit hc
      · rw [List.foldl_append]
        exact append (ih hcs fun c hc => h c (List.mem_append_left _ hc)) hc

end Numeral

lemma readDigits?_eq_some_iff {cs : List Char} {n : Nat} :
    readDigits? cs = some n ↔ Numeral cs n := by
  have hguard : (cs.isEmpty || !cs.all Char.isDigit) = false ↔
      cs ≠ [] ∧ ∀ c ∈ cs, c.isDigit = true := by simp
  rw [readDigits?]
  constructor
  · intro h
    split at h
    · cases h
    · rename_i hdigits
      obtain ⟨hne, hall⟩ := hguard.mp (by simpa using hdigits)
      exact Option.some.inj h ▸ Numeral.of_isDigit hne hall
  · intro h
    rw [hguard.mpr ⟨h.ne_nil, h.isDigit⟩, h.foldl_eq]
    simp

/-- The integer that a text stands for: one sign at most, then digits. -/
inductive Spells : List Char → Int → Prop
  | unsigned {cs : List Char} {n : Nat} (h : Numeral cs n) : Spells cs n
  | plus {cs : List Char} {n : Nat} (h : Numeral cs n) : Spells ('+' :: cs) n
  | minus {cs : List Char} {n : Nat} (h : Numeral cs n) : Spells ('-' :: cs) (-n)

/-- An integer of 64 bits with sign. -/
def Fits (k : Int) : Prop := -9223372036854775808 ≤ k ∧ k ≤ 9223372036854775807

lemma fitInteger?_eq_some_iff {n k : Int} : fitInteger? n = some k ↔ n = k ∧ Fits k := by
  rw [fitInteger?]
  constructor
  · intro h
    split at h
    · rename_i hn
      exact Option.some.inj h ▸ ⟨rfl, hn⟩
    · cases h
  · rintro ⟨rfl, hn⟩
    exact if_pos hn

/-- Digits after a sign, which says what is made of their number. -/
lemma bind_readDigits?_eq_some_iff {cs : List Char} {f : Nat → Int} {k : Int} :
    ((readDigits? cs).bind fun n => fitInteger? (f n)) = some k ↔
      ∃ n, Numeral cs n ∧ f n = k ∧ Fits k := by
  simp only [Option.bind_eq_some_iff, readDigits?_eq_some_iff, fitInteger?_eq_some_iff]

/-- A text is read as the integer that it stands for, if this fits into 64 bits. -/
theorem readInteger?_eq_some_iff {s : String} {k : Int} :
    readInteger? s = some k ↔ Spells s.toList k ∧ Fits k := by
  rw [readInteger?]
  generalize s.toList = cs
  constructor
  · intro h
    split at h <;> obtain ⟨n, hdigits, rfl, hfits⟩ := bind_readDigits?_eq_some_iff.mp h
    · exact ⟨.minus hdigits, hfits⟩
    · exact ⟨.plus hdigits, hfits⟩
    · exact ⟨.unsigned hdigits, hfits⟩
  · rintro ⟨h, hfits⟩
    cases h with
    | minus hdigits => exact bind_readDigits?_eq_some_iff.mpr ⟨_, hdigits, rfl, hfits⟩
    | plus hdigits => exact bind_readDigits?_eq_some_iff.mpr ⟨_, hdigits, rfl, hfits⟩
    | unsigned hdigits =>
        -- A sign is no digit, so the text is not taken for one with a sign.
        split
        · exact absurd (hdigits.isDigit '-' List.mem_cons_self) (by decide)
        · exact absurd (hdigits.isDigit '+' List.mem_cons_self) (by decide)
        · exact bind_readDigits?_eq_some_iff.mpr ⟨_, hdigits, rfl, hfits⟩

namespace Graph

open Vocabulary

variable {g : Graph} {node predicate : String}

/-! ### Stated integers -/

/-- The integer that is stated of a node first, or 1 if there is nothing stated. -/
def StatesInteger (g : Graph) (node predicate : String) (k : Int) : Prop :=
  g.object? node predicate = none ∧ k = 1 ∨
    ∃ l, g.object? node predicate = some (.literal l) ∧ Spells l.value.toList k ∧ Fits k

/-- Just the integers that are stated are read. -/
lemma integerAt_eq_ok_iff {k : Int} :
    g.integerAt node predicate = .ok k ↔ g.StatesInteger node predicate k := by
  rw [integerAt, StatesInteger]
  cases h : g.object? node predicate with
  | none => simp [eq_comm]
  | some t =>
      cases t with
      | literal l =>
          cases hl : readInteger? l.value with
          | none =>
              have hnone : ¬ (Spells l.value.toList k ∧ Fits k) := by
                simp [← readInteger?_eq_some_iff, hl]
              simp [Term.integer, Term.literal?, hl, hnone]
          | some n => simp [Term.integer, Term.literal?, hl, ← readInteger?_eq_some_iff]
      | named _ => simp [Term.integer, Term.literal?]
      | blank _ => simp [Term.integer, Term.literal?]
      | var _ => simp [Term.integer, Term.literal?]

/-- What is reported of a statement about a node names the node. -/
lemma exists_of_integerAt_eq_error {e : ShapeError}
    (h : g.integerAt node predicate = .error e) : ∃ found, e = .invalidInteger node found := by
  rw [integerAt] at h
  split at h
  · rw [Term.integer] at h
    split at h
    · split at h
      · cases h
      · exact ⟨_, (Except.error.inj h).symm⟩
    · exact ⟨_, (Except.error.inj h).symm⟩
  · cases h

/-- A node has one integer at most. -/
lemma StatesInteger.unique {j k : Int} (hj : g.StatesInteger node predicate j)
    (hk : g.StatesInteger node predicate k) : j = k :=
  Except.ok.inj ((integerAt_eq_ok_iff.mpr hj).symm.trans (integerAt_eq_ok_iff.mpr hk))

/-! ### Bounds -/

/-- The bounds that are stated of a node, where both fit into their ranges. -/
structure StatesBounds (g : Graph) (node : String) (min max : Int) : Prop where
  /-- The lower bound is stated. -/
  min_stated : g.StatesInteger node (shex "min") min
  /-- The upper bound is stated. -/
  max_stated : g.StatesInteger node (shex "max") max
  /-- The lower bound is not negative. -/
  min_nonneg : 0 ≤ min
  /-- The lower bound is a cardinality's. -/
  min_le : min ≤ 4294967295
  /-- The upper bound is a cardinality's, or negative. -/
  max_le : max ≤ 4294967295

/-- The upper bound of a cardinality: none in place of a negative one. -/
def upper? (max : Int) : Option Nat := if max < 0 then none else some max.toNat

lemma boundOf_eq_ok_iff {n : Int} {b : Nat} :
    boundOf node n = .ok b ↔ (0 ≤ n ∧ n ≤ 4294967295) ∧ n.toNat = b := by
  have hlimit : (Cardinality.limit : Int) = 4294967295 := rfl
  rw [boundOf, hlimit]
  split
  · rename_i h
    simpa using fun _ => h
  · rename_i h
    simpa using fun h0 hn => absurd ⟨h0, hn⟩ h

lemma exists_of_boundOf_eq_error {n : Int} {e : ShapeError} (h : boundOf node n = .error e) :
    ∃ found, e = .invalidInteger node found := by
  rw [boundOf] at h
  split at h
  · cases h
  · exact ⟨_, (Except.error.inj h).symm⟩

/-- Just the bounds that are stated are read. -/
lemma bounds_eq_ok_iff {b : Nat × Option Nat} :
    g.bounds node = .ok b ↔
      ∃ min max, g.StatesBounds node min max ∧ b = (min.toNat, upper? max) := by
  simp only [bounds, bind_eq_ok_iff, integerAt_eq_ok_iff, boundOf_eq_ok_iff]
  constructor
  · rintro ⟨min, hmin, max, hmax, least, ⟨⟨h0, hle⟩, rfl⟩, h⟩
    refine ⟨min, max, ?_⟩
    split at h
    · rename_i hneg
      exact ⟨⟨hmin, hmax, h0, hle, by omega⟩, by rw [upper?, if_pos hneg, Except.ok.inj h]⟩
    · rename_i hneg
      obtain ⟨greatest, hgreatest, h⟩ := bind_eq_ok_iff.mp h
      obtain ⟨⟨-, hmaxle⟩, rfl⟩ := boundOf_eq_ok_iff.mp hgreatest
      exact ⟨⟨hmin, hmax, h0, hle, hmaxle⟩, by rw [upper?, if_neg hneg, Except.ok.inj h]⟩
  · rintro ⟨min, max, hb, rfl⟩
    refine ⟨min, hb.min_stated, max, hb.max_stated, _, ⟨⟨hb.min_nonneg, hb.min_le⟩, rfl⟩, ?_⟩
    rw [upper?]
    split
    · rfl
    · rename_i hneg
      exact bind_eq_ok_iff.mpr ⟨_, boundOf_eq_ok_iff.mpr ⟨⟨by omega, hb.max_le⟩, rfl⟩, rfl⟩

/-- Where there are no such bounds, the node is reported. -/
lemma exists_of_bounds_eq_error {e : ShapeError} (h : g.bounds node = .error e) :
    ∃ found, e = .invalidInteger node found := by
  rw [bounds] at h
  obtain h | ⟨min, -, h⟩ := bind_eq_error_iff.mp h
  · exact exists_of_integerAt_eq_error h
  obtain h | ⟨max, -, h⟩ := bind_eq_error_iff.mp h
  · exact exists_of_integerAt_eq_error h
  obtain h | ⟨least, -, h⟩ := bind_eq_error_iff.mp h
  · exact exists_of_boundOf_eq_error h
  split at h
  · cases h
  · obtain h | ⟨greatest, -, h⟩ := bind_eq_error_iff.mp h
    · exact exists_of_boundOf_eq_error h
    · cases h

/-- A node has one pair of bounds at most. -/
lemma StatesBounds.unique {min max min' max' : Int} (h : g.StatesBounds node min max)
    (h' : g.StatesBounds node min' max') : min = min' ∧ max = max' :=
  ⟨h.min_stated.unique h'.min_stated, h.max_stated.unique h'.max_stated⟩

/-! ### The rule of a triple constraint -/

/-- The node says yes to being forbidden. -/
def SaysNegated (g : Graph) (node : String) : Prop :=
  ∃ l, g.object? node (shex "negated") = some (.literal l) ∧ (l.value = "true" ∨ l.value = "1")

lemma flag_negated_iff : g.flag node (shex "negated") = true ↔ g.SaysNegated node := by
  rw [flag, SaysNegated]
  cases g.object? node (shex "negated") with
  | none => simp
  | some t => cases t <;> simp [Term.isTrue, Term.literal?]

/-- The rule for the bounds of a node, with nothing asked of the values. -/
structure RuleOf (g : Graph) (node predicate : String) (min max : Int) (r : Rule) : Prop where
  /-- The rule is one of the predicate. -/
  predicate_eq : r.predicate = predicate
  /-- Nothing is asked of the values. -/
  constraint?_eq : r.constraint? = none
  /-- The cardinality has these bounds, and no upper one in place of a negative one. -/
  cardinality?_eq : ∃ c, r.cardinality? = some c ∧ (c.min : Int) = min ∧
    c.max? = upper? max
  /-- The predicate may be absent if no value is needed. -/
  isOptional_iff : r.isOptional = true ↔ min = 0
  /-- The predicate is forbidden if the node says so, or if there may be no value. -/
  isNegative_iff : r.isNegative = true ↔ g.SaysNegated node ∨ max = 0

/-- Bounds are refused if there is an upper one below the lower one. -/
lemma StatesBounds.ofBounds_eq_error_iff {min max : Int} (h : g.StatesBounds node min max)
    {p : String} {e : ShapeError} :
    Cardinality.ofBounds p min.toNat (upper? max) = .error e ↔
      (0 ≤ max ∧ max < min) ∧ e = .invertedBounds p min.toNat max.toNat := by
  have hmin : 0 ≤ min := h.min_nonneg
  rw [Cardinality.ofBounds_eq_error_iff, upper?]
  constructor
  · rintro ⟨greatest, hgreatest, hlt, rfl⟩
    split at hgreatest
    · cases hgreatest
    · obtain rfl := Option.some.inj hgreatest
      exact ⟨⟨by omega, by omega⟩, rfl⟩
  · rintro ⟨⟨hmax, hlt⟩, rfl⟩
    exact ⟨max.toNat, if_neg (by omega), by omega, rfl⟩

/-- Otherwise they make up a cardinality. -/
lemma StatesBounds.exists_ofBounds_iff {min max : Int} (h : g.StatesBounds node min max)
    {p : String} :
    (∃ c, Cardinality.ofBounds p min.toNat (upper? max) = .ok c) ↔ max < 0 ∨ min ≤ max := by
  have hinverted : (∃ e, Cardinality.ofBounds p min.toNat (upper? max) = .error e) ↔
      0 ≤ max ∧ max < min := by
    simp only [h.ofBounds_eq_error_iff, exists_and_left, exists_eq, and_true]
  cases hc : Cardinality.ofBounds p min.toNat (upper? max) with
  | error e =>
      have hlt := hinverted.mp ⟨e, hc⟩
      simp only [reduceCtorEq, exists_false, false_iff]
      omega
  | ok c =>
      have hle : ¬ (0 ≤ max ∧ max < min) := by simp [← hinverted, hc]
      exact ⟨fun _ => by omega, fun _ => ⟨c, rfl⟩⟩

section

variable {p : String} (hp : g.object? node (shex "predicate") = some (.named p))
  (hv : g.object? node (shex "valueExpr") = none)

include hp hv

/-- Without value expression, bounds are read and then made into a cardinality. -/
lemma tripleConstraint_eq : g.tripleConstraint node = g.bounds node >>= fun b =>
    (Cardinality.ofBounds p b.1 b.2).map fun c =>
      { (Rule.new p).withCardinality c with
        isNegative := g.flag node (shex "negated") || b.2 = some 0 } := by
  rw [tripleConstraint, hp, hv]
  cases g.bounds node with
  | error e => rfl
  | ok b =>
      change (Cardinality.ofBounds p b.1 b.2 >>= _) = (Cardinality.ofBounds p b.1 b.2).map _
      cases Cardinality.ofBounds p b.1 b.2 <;> rfl

/-- A rule is read from stated bounds that make up a cardinality. -/
lemma tripleConstraint_eq_ok_iff {r : Rule} :
    g.tripleConstraint node = .ok r ↔ ∃ min max c, g.StatesBounds node min max ∧
      Cardinality.ofBounds p min.toNat (upper? max) = .ok c ∧
      { (Rule.new p).withCardinality c with
        isNegative := g.flag node (shex "negated") || upper? max = some 0 } = r := by
  simp only [tripleConstraint_eq hp hv, bind_eq_ok_iff, map_eq_ok_iff, bounds_eq_ok_iff]
  constructor
  · rintro ⟨_, ⟨min, max, hb, rfl⟩, c, hc, hr⟩
    exact ⟨min, max, c, hb, hc, hr⟩
  · rintro ⟨min, max, c, hb, hc, hr⟩
    exact ⟨_, ⟨min, max, hb, rfl⟩, c, hc, hr⟩

/-- A fault is one of the bounds, or of their order. -/
lemma tripleConstraint_eq_error_iff {e : ShapeError} :
    g.tripleConstraint node = .error e ↔ g.bounds node = .error e ∨
      ∃ min max, g.StatesBounds node min max ∧ (0 ≤ max ∧ max < min) ∧
        e = .invertedBounds p min.toNat max.toNat := by
  simp only [tripleConstraint_eq hp hv, bind_eq_error_iff, map_eq_error_iff, bounds_eq_ok_iff]
  refine or_congr_right ⟨?_, ?_⟩
  · rintro ⟨_, ⟨min, max, hb, rfl⟩, he⟩
    exact ⟨min, max, hb, hb.ofBounds_eq_error_iff.mp he⟩
  · rintro ⟨min, max, hb, he⟩
    exact ⟨_, ⟨min, max, hb, rfl⟩, hb.ofBounds_eq_error_iff.mpr he⟩

/-- What is read is the rule for the bounds. -/
lemma ruleOf_of_tripleConstraint {r : Rule} {min max : Int} (h : g.tripleConstraint node = .ok r)
    (hb : g.StatesBounds node min max) : g.RuleOf node p min max r := by
  obtain ⟨_, _, c, hb', hc, rfl⟩ := (tripleConstraint_eq_ok_iff hp hv).mp h
  obtain ⟨rfl, rfl⟩ := hb.unique hb'
  obtain ⟨hmin, hmax⟩ := Cardinality.bounds_of_ofBounds hc
  have hmin_nonneg : 0 ≤ min := hb.min_nonneg
  have hzero : upper? max = some 0 ↔ max = 0 := by
    rw [upper?]
    split <;> simp <;> omega
  refine ⟨rfl, rfl, ⟨c, rfl, by omega, hmax⟩, ?_, ?_⟩
  · simp only [Rule.withCardinality, Rule.new, Bool.false_or, beq_iff_eq, hmin]
    omega
  · rw [Bool.or_eq_true, flag_negated_iff, decide_eq_true_iff, hzero]

/-- **Bounds are exact**: a triple constraint without value expression is read exactly if its bounds
are stated, fit into their ranges and are in order, a negative upper bound standing for none. What
is read is the rule for these bounds. Bounds that fit but are out of order are reported as such,
with the predicate, and all other bounds as integers that they are not, with the node. -/
theorem tripleConstraint_exact :
    ((∃ r, g.tripleConstraint node = .ok r) ↔
      ∃ min max, g.StatesBounds node min max ∧ (max < 0 ∨ min ≤ max)) ∧
    (∀ r min max, g.tripleConstraint node = .ok r → g.StatesBounds node min max →
      g.RuleOf node p min max r) ∧
    (∀ q least greatest, g.tripleConstraint node = .error (.invertedBounds q least greatest) ↔
      q = p ∧ g.StatesBounds node least greatest ∧ greatest < least) ∧
    ((∃ found, g.tripleConstraint node = .error (.invalidInteger node found)) ↔
      ¬ ∃ min max, g.StatesBounds node min max) := by
  refine ⟨?_, fun r min max => ruleOf_of_tripleConstraint hp hv, fun q least greatest => ?_, ?_⟩
  · simp only [tripleConstraint_eq_ok_iff hp hv]
    constructor
    · rintro ⟨r, min, max, c, hb, hc, -⟩
      exact ⟨min, max, hb, hb.exists_ofBounds_iff.mp ⟨c, hc⟩⟩
    · rintro ⟨min, max, hb, horder⟩
      obtain ⟨c, hc⟩ := hb.exists_ofBounds_iff.mpr horder
      exact ⟨_, min, max, c, hb, hc, rfl⟩
  · rw [tripleConstraint_eq_error_iff hp hv]
    constructor
    · rintro (h | ⟨min, max, hb, ⟨hmax, hlt⟩, he⟩)
      · obtain ⟨found, he⟩ := exists_of_bounds_eq_error h
        cases he
      · obtain ⟨rfl, rfl, rfl⟩ := ShapeError.invertedBounds.inj he
        have hmin : 0 ≤ min := hb.min_nonneg
        rw [Int.toNat_of_nonneg hmin, Int.toNat_of_nonneg hmax]
        exact ⟨rfl, hb, by omega⟩
    · rintro ⟨rfl, hb, hlt⟩
      exact .inr ⟨least, greatest, hb, ⟨by omega, by omega⟩, by simp⟩
  · simp only [tripleConstraint_eq_error_iff hp hv]
    constructor
    · rintro ⟨found, h | ⟨min, max, hb, -, he⟩⟩ ⟨min', max', hb'⟩
      · cases h.symm.trans (bounds_eq_ok_iff.mpr ⟨min', max', hb', rfl⟩)
      · cases he
    · intro hnone
      cases h : g.bounds node with
      | error e =>
          obtain ⟨found, rfl⟩ := exists_of_bounds_eq_error h
          exact ⟨found, .inl rfl⟩
      | ok b =>
          obtain ⟨min, max, hb, -⟩ := bounds_eq_ok_iff.mp h
          exact absurd ⟨min, max, hb⟩ hnone

end

/-- A triple constraint that states its bounds. -/
def bounded (least greatest : String) : Graph := stating [
  ("_:c", rdfType, .named (shex "TripleConstraint")),
  ("_:c", shex "predicate", .named "p"),
  ("_:c", shex "min", .literal (.simple least)),
  ("_:c", shex "max", .literal (.simple greatest))]

/-- A negative upper bound is none, bounds out of order are refused, and so is a lower bound that is
too great by one. -/
theorem bounded_exact :
    (∃ r, (bounded "0" "-7").tripleConstraint "_:c" = .ok r ∧
      (bounded "0" "-7").RuleOf "_:c" "p" 0 (-7) r) ∧
    (bounded "2" "1").tripleConstraint "_:c" = .error (.invertedBounds "p" 2 1) ∧
    ∃ found, (bounded "4294967296" "1").tripleConstraint "_:c" =
      .error (.invalidInteger "_:c" found) := by
  have hstates {g : Graph} {predicate : String} {k : Int}
      (h : (g.integerAt "_:c" predicate).toOption = some k) : g.StatesInteger "_:c" predicate k :=
    integerAt_eq_ok_iff.mp (toOption_eq_some_iff.mp h)
  have hopen : (bounded "0" "-7").StatesBounds "_:c" 0 (-7) :=
    ⟨hstates (by decide +kernel), hstates (by decide +kernel), by decide, by decide, by decide⟩
  have hinverted : (bounded "2" "1").StatesBounds "_:c" 2 1 :=
    ⟨hstates (by decide +kernel), hstates (by decide +kernel), by decide, by decide, by decide⟩
  have hgreat : (bounded "4294967296" "1").StatesInteger "_:c" (shex "min") 4294967296 :=
    hstates (by decide +kernel)
  obtain ⟨hok, hrule, -, -⟩ := @tripleConstraint_exact (bounded "0" "-7") "_:c" "p"
    (by decide +kernel) (by decide +kernel)
  obtain ⟨-, -, horder, -⟩ := @tripleConstraint_exact (bounded "2" "1") "_:c" "p"
    (by decide +kernel) (by decide +kernel)
  obtain ⟨-, -, -, hrange⟩ := @tripleConstraint_exact (bounded "4294967296" "1") "_:c" "p"
    (by decide +kernel) (by decide +kernel)
  refine ⟨?_, (horder _ _ _).mpr ⟨rfl, hinverted, by decide⟩, hrange.mpr ?_⟩
  · obtain ⟨r, hr⟩ := hok.mpr ⟨0, -7, hopen, .inl (by decide)⟩
    exact ⟨r, hr, hrule r _ _ hr hopen⟩
  · rintro ⟨min, max, hb⟩
    have hle : min ≤ 4294967295 := hb.min_le
    rw [hb.min_stated.unique hgreat] at hle
    exact absurd hle (by decide)

end Graph

end StarShapes
