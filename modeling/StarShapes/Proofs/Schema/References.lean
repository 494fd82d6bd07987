import StarShapes.Proofs.Collection.Distinct
import StarShapes.Proofs.Schema.Unfolding

/-!
References: which shapes of a description are found under the names by which others call them.

* `Shape.targets`: the shapes that a shape names in any of its rules. It has these names from the
  value expressions of its triple constraints (`Graph.mentions_of_mem_targets`).
* `Graph.mem_shapes_iff`: the shapes of a description are those of its nodes, under their names.
* `reference_resolves_iff`: a shape that is named by its node is found under this name exactly if no
  declaration wraps it, or if it is itself the declaration of a shape.
-/

namespace StarShapes

/-- The shapes that a rule names. -/
def Rule.targets (r : Rule) : List String :=
  match r.constraint? with
  | some (.shape targets) => targets.toList
  | _ => []

@[simp]
lemma Rule.targets_withNegative (b : Bool) (r : Rule) :
    (r.withNegative b).targets = r.targets := rfl

/-- The shapes that a shape names, in the rules that it has and in those of its alternatives. -/
def Shape.targets (s : Shape) : List String :=
  (s.rules ++ s.oneOf.flatten.flatten).flatMap Rule.targets

namespace Graph

open Vocabulary TripleExpression

variable {g : Graph}

/-! ### The shapes that are named -/

/-- A triple constraint mentions the shape that its value expression is, or one of those that this
lists. -/
def Mentions (g : Graph) (node target : String) : Prop :=
  ∃ expr e, g.object? node (shex "valueExpr") = some expr ∧ expr.nodeName? = some e ∧
    (e = target ∨ ∃ exprs, g.elementsAt e (shex "shapeExprs") = .ok exprs ∧
      ∃ m ∈ exprs, m.nodeName? = some target)

/-- A node constraint names no shapes. -/
lemma nodeConstraint?_ne_shape {node : String} {targets : NameSet} :
    g.nodeConstraint? node ≠ .ok (some (.shape targets)) := by
  intro h
  rw [nodeConstraint?] at h
  split at h
  · cases h
  · obtain ⟨values, -, h⟩ := bind_eq_ok_iff.mp h
    have hresult := Except.ok.inj h
    split at hresult <;> cases hresult

/-- The shapes that a value expression asks for are its own node or those that it lists. -/
lemma of_valueConstraint? {expr : Term} {targets : NameSet} {target : String}
    (h : g.valueConstraint? expr = .ok (some (.shape targets))) (ht : target ∈ targets) :
    ∃ e, expr.nodeName? = some e ∧ (e = target ∨
      ∃ exprs, g.elementsAt e (shex "shapeExprs") = .ok exprs ∧
        ∃ m ∈ exprs, m.nodeName? = some target) := by
  rw [valueConstraint?] at h
  split at h
  · cases h
  rename_i e he
  refine ⟨e, he, ?_⟩
  split_ifs at h
  · exact absurd h nodeConstraint?_ne_shape
  · obtain ⟨exprs, hexprs, h⟩ := bind_eq_ok_iff.mp h
    have hresult := Except.ok.inj h
    split at hresult
    · cases hresult
    · obtain rfl := Constraint.shape.inj (Option.some.inj hresult)
      obtain ⟨m, hm, hname⟩ := List.mem_filterMap.mp (NameSet.mem_ofList.mp ht)
      exact .inr ⟨exprs, hexprs, m, hm, hname⟩
  · obtain rfl := Constraint.shape.inj (Option.some.inj (Except.ok.inj h))
    exact .inl (List.mem_singleton.mp (NameSet.mem_ofList.mp ht)).symm
  · cases Except.ok.inj h

/-- A rule names shapes that its triple constraint mentions. -/
lemma mentions_of_tripleConstraint {node target : String} {r : Rule}
    (h : g.tripleConstraint node = .ok r) (ht : target ∈ r.targets) : g.Mentions node target := by
  rw [tripleConstraint] at h
  split at h
  · cases h
  obtain ⟨⟨min, max?⟩, -, h⟩ := bind_eq_ok_iff.mp h
  obtain ⟨cardinality, -, h⟩ := bind_eq_ok_iff.mp h
  rw [Rule.targets] at ht
  split at ht
  · rename_i targets hconstraint
    split at h
    · rename_i expr hexpr
      obtain ⟨constraint?, hvalue, h⟩ := bind_eq_ok_iff.mp h
      obtain rfl := Except.ok.inj h
      obtain rfl : constraint? = some (.shape targets) := hconstraint
      obtain ⟨e, he, hmentions⟩ := of_valueConstraint? hvalue ht
      exact ⟨expr, e, hexpr, he, hmentions⟩
    · obtain ⟨constraint?, hvalue, h⟩ := bind_eq_ok_iff.mp h
      obtain rfl := Except.ok.inj h
      cases (Except.ok.inj hvalue).trans hconstraint
  · cases ht

/-- The rules of some triple constraints name shapes that one of these mentions. -/
lemma mentions_of_filterMap_rule? {nodes : List String} {P : String → Bool} {r : Rule}
    {target : String} (h : r ∈ (nodes.filter P).filterMap g.rule?) (ht : target ∈ r.targets) :
    ∃ n ∈ nodes, g.Mentions n target := by
  obtain ⟨n, hn, hrule⟩ := List.mem_filterMap.mp h
  exact ⟨n, List.mem_of_mem_filter hn,
    mentions_of_tripleConstraint (toOption_eq_some_iff.mp hrule) ht⟩

/-- A shape names shapes that a triple constraint of its expression mentions. -/
lemma mentions_of_mem_targets {node name target : String} {s : Shape}
    (h : g.shapeAt node name = .ok s) (ht : target ∈ s.targets) :
    ∃ t, g.UnfoldsAt node t ∧ ∃ n ∈ t.leaves, g.Mentions n target := by
  obtain ⟨t, ⟨hunfolds, -⟩, hs⟩ := shapeAt_eq_ok_iff.mp h
  obtain ⟨-, hpositive, hnegative, honeOf⟩ := Shape.of_new hs
  refine ⟨t, hunfolds, ?_⟩
  -- What is asked for directly or in an alternative comes from a leaf.
  have hdirect {r : Rule} (hr : r ∈ g.asked t.direct) (ht : target ∈ r.targets) :
      ∃ n ∈ t.leaves, g.Mentions n target := by
    obtain ⟨n, hn, hmentions⟩ := mentions_of_filterMap_rule? hr ht
    exact ⟨n, mem_leaves_iff.mpr (.inl hn), hmentions⟩
  have hchosen {r : Rule} (hr : r ∈ (t.choices.map (List.map g.asked)).flatten.flatten)
      (ht : target ∈ r.targets) : ∃ n ∈ t.leaves, g.Mentions n target := by
    obtain ⟨_, hset, hr⟩ := List.mem_flatten.mp hr
    obtain ⟨_, hchoice, hset⟩ := List.mem_flatten.mp hset
    obtain ⟨c, hc, rfl⟩ := List.mem_map.mp hchoice
    obtain ⟨m, hm, rfl⟩ := List.mem_map.mp hset
    obtain ⟨n, hn, hmentions⟩ := mentions_of_filterMap_rule? hr ht
    exact ⟨n, mem_leaves_iff.mpr (.inr ⟨c, hc, m, hm, hn⟩), hmentions⟩
  obtain ⟨r, hr, ht⟩ := List.mem_flatMap.mp ht
  rcases List.mem_append.mp hr with hr | hr
  · rcases List.mem_append.mp hr with hr | hr
    · rw [hpositive] at hr
      obtain ⟨r', hr', rfl⟩ := List.mem_map.mp (Keyed.mem_of_mem_ofList hr)
      rw [Rule.targets_withNegative] at ht
      rcases List.mem_append.mp hr' with hr' | hr'
      · exact hdirect hr' ht
      · exact hchosen hr' ht
    · rw [hnegative] at hr
      obtain ⟨_, hforbidden, rfl⟩ := List.mem_map.mp (Keyed.mem_of_mem_ofList hr)
      obtain ⟨r', hr', rfl⟩ := List.mem_map.mp hforbidden
      rw [Rule.targets_withNegative, Rule.targets_withNegative] at ht
      exact mentions_of_filterMap_rule? hr' ht
  · rw [honeOf] at hr
    exact hchosen hr ht

/-! ### The names of shapes -/

/-- A node keeps its own name if no declaration wraps it. -/
lemma declaredName?_eq_none_iff {node : String} :
    declaredName? g.declarations node = none ↔
      ∀ d, g.hasType d (shex "ShapeDecl") = true → g.declaredNode? d ≠ some node := by
  simp only [declaredName?, List.getLast?_eq_none_iff, List.eq_nil_iff_forall_not_mem,
    mem_wrapping_iff, mem_declarations, not_and, ne_eq]

/-- Every shape of a description is among those that are read. -/
lemma exists_shape {shapes : List Shape} (h : g.shapes = .ok shapes) {node : String}
    (hnode : g.hasType node (shex "Shape") = true) :
    ∃ s ∈ shapes, g.shapeAt node (g.nameOf node) = .ok s := by
  have hmatched := shapes_eq_ok_iff.mp h
  obtain ⟨s, hs, hread⟩ := exists_of_forall₂_left hmatched (mem_nodesOfType.mpr hnode)
  exact ⟨s, hs, hread⟩

/-- The shapes of a description are those of its nodes, under their names. -/
lemma mem_shapes_iff {shapes : List Shape} (h : g.shapes = .ok shapes) {s : Shape} :
    s ∈ shapes ↔
      ∃ node, g.hasType node (shex "Shape") = true ∧ g.shapeAt node (g.nameOf node) = .ok s := by
  constructor
  · intro hs
    obtain ⟨node, hnode, hread⟩ := exists_of_forall₂_right (shapes_eq_ok_iff.mp h) hs
    exact ⟨node, mem_nodesOfType.mp hnode, hread⟩
  · rintro ⟨node, hnode, hread⟩
    obtain ⟨s', hs', hread'⟩ := exists_shape h hnode
    obtain rfl := Except.ok.inj (hread.symm.trans hread')
    exact hs'

/-- A shape that is read has the name under which it is read. -/
lemma name_of_shapeAt {node name : String} {s : Shape} (h : g.shapeAt node name = .ok s) :
    s.name = name := by
  obtain ⟨t, -, hs⟩ := shapeAt_eq_ok_iff.mp h
  exact (Shape.of_new hs).1

/-- **When references resolve.** Let a shape that is read name a node which is a shape of the same
description. The name stands in the value expression of a triple constraint of that shape, and the
node is among the shapes that are read. But it is found under its name exactly if no declaration
wraps it, or if it is itself the declaration after which a shape is named. -/
theorem reference_resolves_iff {shapes : List Shape} (h : g.shapes = .ok shapes) {s : Shape}
    (hs : s ∈ shapes) {target : String} (ht : target ∈ s.targets)
    (hshape : g.hasType target (shex "Shape") = true) :
    (∃ node t, g.shapeAt node (g.nameOf node) = .ok s ∧ g.UnfoldsAt node t ∧
      ∃ n ∈ t.leaves, g.Mentions n target) ∧
    (∃ s' ∈ shapes, g.shapeAt target (g.nameOf target) = .ok s') ∧
    ((∃ s' ∈ shapes, s'.name = target) ↔
      (∀ d, g.hasType d (shex "ShapeDecl") = true → g.declaredNode? d ≠ some target) ∨
        ∃ node, g.hasType node (shex "Shape") = true ∧
          declaredName? g.declarations node = some target) := by
  refine ⟨?_, exists_shape h hshape, ?_⟩
  · obtain ⟨node, -, hread⟩ := (mem_shapes_iff h).mp hs
    obtain ⟨t, hunfolds, hmentions⟩ := mentions_of_mem_targets hread ht
    exact ⟨node, t, hread, hunfolds, hmentions⟩
  rw [← declaredName?_eq_none_iff]
  constructor
  · rintro ⟨s', hs', rfl⟩
    obtain ⟨node, hnode, hread⟩ := (mem_shapes_iff h).mp hs'
    have hname := name_of_shapeAt hread
    rw [nameOf] at hname
    cases hdeclared : declaredName? g.declarations node with
    | none =>
        rw [hdeclared, Option.getD_none] at hname
        exact .inl (hname ▸ hdeclared)
    | some d =>
        rw [hdeclared, Option.getD_some] at hname
        exact .inr ⟨node, hnode, hname ▸ hdeclared⟩
  · rintro (hnone | ⟨node, hnode, hdeclared⟩)
    · obtain ⟨s', hs', hread⟩ := exists_shape h hshape
      exact ⟨s', hs', by rw [name_of_shapeAt hread, nameOf, hnone, Option.getD_none]⟩
    · obtain ⟨s', hs', hread⟩ := exists_shape h hnode
      exact ⟨s', hs', by rw [name_of_shapeAt hread, nameOf, hdeclared, Option.getD_some]⟩

/-- A shape with a rule whose values are of that shape, and what else is stated. -/
def selfNaming (others : List (String × String × Term)) : Graph := stating <| others ++ [
  ("S", rdfType, .named (shex "Shape")),
  ("S", shex "expression", .blank "e"),
  ("_:e", rdfType, .named (shex "TripleConstraint")),
  ("_:e", shex "predicate", .named "p"),
  ("_:e", shex "valueExpr", .named "S")]

/-- A single shape that is read, by its name and its only target. -/
lemma exists_shape_of_map (g : Graph) (name target : String)
    (h : (g.shapes.toOption.map (List.map fun s => (s.name, s.targets))) =
      some [(name, [target])]) :
    ∃ s, g.shapes = .ok [s] ∧ s.name = name ∧ s.targets = [target] := by
  obtain ⟨shapes, hshapes, hmap⟩ := Option.map_eq_some_iff.mp h
  obtain ⟨s, rfl, hs⟩ := List.map_eq_singleton_iff.mp hmap
  obtain ⟨hname, htargets⟩ := Prod.mk.inj hs
  exact ⟨s, toOption_eq_some_iff.mp hshapes, hname, htargets⟩

/-- Without a declaration the shape is found under its name. -/
theorem selfNaming_resolves : ∃ shapes s, (selfNaming []).shapes = .ok shapes ∧ s ∈ shapes ∧
    "S" ∈ s.targets ∧ (selfNaming []).hasType "S" (shex "Shape") = true ∧
    ∃ s' ∈ shapes, s'.name = "S" := by
  obtain ⟨s, hshapes, -, htargets⟩ :=
    exists_shape_of_map (selfNaming []) "S" "S" (by decide +kernel)
  have ht : "S" ∈ s.targets := htargets ▸ List.mem_singleton_self "S"
  have hshape : (selfNaming []).hasType "S" (shex "Shape") = true := by decide +kernel
  have hundeclared := declaredName?_eq_none_iff.mp
    (show declaredName? (selfNaming []).declarations "S" = none by decide +kernel)
  obtain ⟨-, -, hresolves⟩ :=
    reference_resolves_iff hshapes (List.mem_singleton_self s) ht hshape
  exact ⟨_, s, hshapes, List.mem_singleton_self s, ht, hshape, hresolves.mpr (.inl hundeclared)⟩

/-- A declaration that wraps the shape. -/
def wrapping : List (String × String × Term) :=
  [("D", rdfType, .named (shex "ShapeDecl")), ("D", shex "shapeExpr", .named "S")]

/-- With a declaration the shape is found under the name of this only, but it names itself. -/
theorem selfNaming_dangles : ∃ shapes s, (selfNaming wrapping).shapes = .ok shapes ∧ s ∈ shapes ∧
    "S" ∈ s.targets ∧ (selfNaming wrapping).hasType "S" (shex "Shape") = true ∧
    ∀ s' ∈ shapes, s'.name ≠ "S" := by
  obtain ⟨s, hshapes, hname, htargets⟩ :=
    exists_shape_of_map (selfNaming wrapping) "D" "S" (by decide +kernel)
  refine ⟨_, s, hshapes, List.mem_singleton_self s, ?_, by decide +kernel, fun s' hs' he => ?_⟩
  · rw [htargets]
    exact List.mem_singleton_self "S"
  · rw [List.mem_singleton.mp hs', hname] at he
    exact absurd he (by decide)

end Graph

end StarShapes
