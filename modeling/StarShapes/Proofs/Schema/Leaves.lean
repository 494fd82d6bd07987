import StarShapes.Proofs.Schema.Unfolding
import StarShapes.Proofs.Shape.Declarations

/-!
Leaves: no triple constraint of a description is lost on the way to its shape.

* `Graph.mem_asked`, `Graph.mem_forbidden`: the predicates of the rules of triple constraints.
* `shapeAt_keeps_leaves`: a shape that is read asks for the predicates of those leaves of its tree
  that do not forbid them, forbids those of the others, and has an alternative for each disjunction.
-/

namespace StarShapes

namespace Graph

open Vocabulary TripleExpression

variable {g : Graph}

/-! ### The predicates of triple constraints -/

/-- The rules of some triple constraints that are read are about the predicates of these. -/
lemma mem_filterMap_rule? {nodes : List String} {P : String → Bool} {p : String}
    (h : ∀ n ∈ nodes, ∃ r, g.tripleConstraint n = .ok r) :
    (∃ r ∈ (nodes.filter P).filterMap g.rule?, r.predicate = p) ↔
      ∃ n ∈ nodes, g.predicate? n = some p ∧ P n = true := by
  simp only [List.mem_filterMap, List.mem_filter]
  constructor
  · rintro ⟨r, ⟨n, ⟨hn, hP⟩, hrule⟩, rfl⟩
    obtain ⟨r', hr⟩ := h n hn
    obtain rfl := Option.some.inj (hrule.symm.trans (rule?_eq_some hr))
    exact ⟨n, hn, (of_tripleConstraint hr).1, hP⟩
  · rintro ⟨n, hn, hp, hP⟩
    obtain ⟨r, hr⟩ := h n hn
    exact ⟨r, ⟨n, ⟨hn, hP⟩, rule?_eq_some hr⟩,
      Option.some.inj ((of_tripleConstraint hr).1.symm.trans hp)⟩

lemma mem_asked {nodes : List String} {p : String}
    (h : ∀ n ∈ nodes, ∃ r, g.tripleConstraint n = .ok r) :
    (∃ r ∈ g.asked nodes, r.predicate = p) ↔
      ∃ n ∈ nodes, g.predicate? n = some p ∧ g.forbids n = false := by
  rw [asked, mem_filterMap_rule? h]
  simp only [Bool.not_eq_true']

lemma mem_forbidden {nodes : List String} {p : String}
    (h : ∀ n ∈ nodes, ∃ r, g.tripleConstraint n = .ok r) :
    (∃ r ∈ g.forbidden nodes, r.predicate = p) ↔
      ∃ n ∈ nodes, g.predicate? n = some p ∧ g.forbids n = true := by
  rw [← mem_filterMap_rule? h]
  simp only [forbidden, List.mem_map, exists_exists_and_eq_and, Rule.predicate_withNegative]

/-! ### The leaves of a shape -/

/-- **No triple constraint is lost.** A shape that is read is that of one tree, the one that its
node spells out. It asks for the predicates of the leaves that do not forbid them, and it forbids
those of the others. Its alternatives are the disjunctions, inner ones first, each with the rules
that its members ask for outside of inner ones. -/
theorem shapeAt_keeps_leaves {node name : String} {s : Shape} (h : g.shapeAt node name = .ok s) :
    ∃ t, (∀ t', g.UnfoldsAt node t' ↔ t' = t) ∧
      (∀ n ∈ t.leaves, ∃ r, g.tripleConstraint n = .ok r ∧ g.predicate? n = some r.predicate) ∧
      (∀ p, p ∈ s.positive.keys ↔ ∃ n ∈ t.leaves, g.predicate? n = some p ∧ g.forbids n = false) ∧
      (∀ p, p ∈ s.negative.keys ↔ ∃ n ∈ t.leaves, g.predicate? n = some p ∧ g.forbids n = true) ∧
      s.oneOf = t.choices.map (List.map g.asked) := by
  obtain ⟨t, ⟨ht, hreads⟩, hs⟩ := shapeAt_eq_ok_iff.mp h
  obtain ⟨-, hpositive, hnegative, honeOf⟩ := Shape.of_new hs
  refine ⟨t, fun t' => ⟨fun ht' => ht'.unique ht, fun e => e ▸ ht⟩, fun n hn => ?_, fun p => ?_,
    fun p => ?_, honeOf⟩
  · obtain ⟨r, hr⟩ := hreads n hn
    exact ⟨r, hr, (of_tripleConstraint hr).1⟩
  · have hdirect := mem_asked (p := p) fun n hn => hreads n (mem_leaves_iff.mpr (.inl hn))
    have hchoices : (∃ c ∈ t.choices.map (List.map g.asked), ∃ m ∈ c, ∃ r ∈ m, r.predicate = p) ↔
        ∃ c ∈ t.choices, ∃ m ∈ c, ∃ n ∈ m, g.predicate? n = some p ∧ g.forbids n = false := by
      simp only [List.mem_map, exists_exists_and_eq_and]
      refine exists_congr fun c => and_congr_right fun hc => exists_congr fun m =>
        and_congr_right fun hm => mem_asked fun n hn => hreads n ?_
      exact mem_leaves_iff.mpr (.inr ⟨c, hc, m, hm, hn⟩)
    rw [hpositive, Declarations.mem_keys_positiveRules, declarationsAt, collect, hdirect, hchoices]
    constructor
    · rintro (⟨n, hn, hp⟩ | ⟨c, hc, m, hm, n, hn, hp⟩)
      · exact ⟨n, mem_leaves_iff.mpr (.inl hn), hp⟩
      · exact ⟨n, mem_leaves_iff.mpr (.inr ⟨c, hc, m, hm, hn⟩), hp⟩
    · rintro ⟨n, hn, hp⟩
      rcases mem_leaves_iff.mp hn with hn | ⟨c, hc, m, hm, hn⟩
      · exact .inl ⟨n, hn, hp⟩
      · exact .inr ⟨c, hc, m, hm, n, hn, hp⟩
  · rw [hnegative, Declarations.mem_keys_negativeRules, declarationsAt, collect]
    exact mem_forbidden hreads

/-- A disjunction of a triple constraint and of another disjunction, whose one member is a negated
triple constraint. -/
def nested : Graph := stating [
  ("S", rdfType, .named (shex "Shape")),
  ("S", shex "expression", .named "outer"),
  ("outer", rdfType, .named (shex "OneOf")),
  ("outer", shex "expressions", .blank "1"),
  ("_:1", rdfFirst, .named "a"),
  ("_:1", rdfRest, .blank "2"),
  ("_:2", rdfFirst, .named "inner"),
  ("_:2", rdfRest, .named rdfNil),
  ("a", rdfType, .named (shex "TripleConstraint")),
  ("a", shex "predicate", .named "p"),
  ("inner", rdfType, .named (shex "OneOf")),
  ("inner", shex "expressions", .blank "3"),
  ("_:3", rdfFirst, .named "b"),
  ("_:3", rdfRest, .named rdfNil),
  ("b", rdfType, .named (shex "TripleConstraint")),
  ("b", shex "predicate", .named "q"),
  ("b", shex "negated", .literal (.typed "true" xsdBoolean))]

/-- The negated triple constraint of the inner disjunction is forbidden, and the inner disjunction
comes before the outer one. -/
theorem nested_keeps : ∃ s t, nested.shapeAt "S" "S" = .ok s ∧ nested.UnfoldsAt "S" t ∧
    t.leaves = ["a", "b"] ∧ t.choices = [[["b"]], [["a"], []]] ∧
    "p" ∈ s.positive.keys ∧ "q" ∈ s.negative.keys ∧ s.oneOf.length = 2 := by
  obtain ⟨s, hs⟩ : ∃ s, nested.shapeAt "S" "S" = .ok s := exists_ok_iff.mpr (by decide +kernel)
  have hinnerElements : nested.elementsAt "inner" (shex "expressions") = .ok [.named "b"] := by
    decide +kernel
  have houterElements : nested.elementsAt "outer" (shex "expressions") =
      .ok [.named "a", .named "inner"] := by decide +kernel
  have hinner : nested.Unfolds (.named "inner") (.any [.constraint "b"]) :=
    .any rfl (by decide +kernel) hinnerElements (.cons (.constraint rfl (by decide +kernel)) .nil)
  have houter : nested.Unfolds (.named "outer") (.any [.constraint "a", .any [.constraint "b"]]) :=
    .any rfl (by decide +kernel) houterElements
      (.cons (.constraint rfl (by decide +kernel)) (.cons hinner .nil))
  have hexpression : nested.object? "S" (shex "expression") = some (.named "outer") := by
    decide +kernel
  have hunfolds := (unfoldsAt_of_some hexpression).mpr houter
  obtain ⟨t, ht, -, hpositive, hnegative, honeOf⟩ := shapeAt_keeps_leaves hs
  obtain rfl := (ht _).mp hunfolds
  have hleaves : leaves (.any [.constraint "a", .any [.constraint "b"]]) = ["a", "b"] := by
    simp [leaves]
  have hchoices : choices (.any [.constraint "a", .any [.constraint "b"]]) =
      [[["b"]], [["a"], []]] := by simp [choices, direct]
  refine ⟨s, _, hs, hunfolds, hleaves, hchoices, (hpositive "p").mpr ⟨"a", ?_⟩,
    (hnegative "q").mpr ⟨"b", ?_⟩, by rw [honeOf, hchoices]; rfl⟩
  · rw [hleaves]
    decide +kernel
  · rw [hleaves]
    decide +kernel

end Graph

end StarShapes
