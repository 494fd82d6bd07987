import Mathlib.Data.List.Nodup
import StarShapes.Proofs.Schema.Cells

/-!
Reordering: a description means the same in whatever order, and however often, its triples are
stated.

* `Graph.Functional`, `Graph.DeclaresOnce`: no node has two objects for a predicate other than its
  class, and none is wrapped by two declarations.
* `Graph.Restates`: a graph of the same triples. Everything that is read of a description is the
  same in both, so the first and the last object of a node are (`Restates.object?_eq`), the elements
  of a list (`Restates.elementsFrom_eq`) and the parts of an expression (`Restates.partsOf`).
* `shapes_perm`: the shapes of one graph are those of the other, up to their order.
-/

namespace StarShapes

/-- Lists of one and the same element give it to whatever picks an element of a list. -/
lemma pick_eq {α : Type} {pick : List α → Option α} (hmem : ∀ l a, pick l = some a → a ∈ l)
    (hnone : ∀ l, pick l = none → l = []) {l l' : List α} (hl : ∀ a, a ∈ l ↔ a ∈ l')
    (hone : ∀ a ∈ l, ∀ b ∈ l, a = b) : pick l = pick l' := by
  cases hpick : pick l with
  | none =>
      have hempty : l' = [] := List.eq_nil_iff_forall_not_mem.mpr fun a ha =>
        List.not_mem_nil (hnone l hpick ▸ (hl a).mpr ha)
      rw [hempty, ← hnone l hpick, hpick]
  | some a =>
      cases hpick' : pick l' with
      | none =>
          have ha := (hl a).mp (hmem l a hpick)
          rw [hnone l' hpick'] at ha
          cases ha
      | some b => rw [hone a (hmem l a hpick) b ((hl b).mpr (hmem l' b hpick'))]

namespace Graph

open Vocabulary

variable {g g' : Graph}

/-! ### Reading a graph -/

/-- No name of the shape expression vocabulary gives the class of a node. -/
lemma shex_ne_rdfType (name : String) : shex name ≠ rdfType := by
  intro he
  have happend : (shex name).toList = "http://www.w3.org/ns/shex#".toList ++ name.toList :=
    String.toList_append
  have hprefix : "http://www.w3.org/ns/shex#".toList <+: rdfType.toList :=
    ⟨name.toList, happend.symm.trans (congrArg String.toList he)⟩
  exact absurd hprefix (by decide +kernel)

/-! ### Graphs of the same triples -/

/-- Every node has at most one object for each predicate, classes apart. -/
def Functional (g : Graph) : Prop :=
  ∀ t ∈ g.triples, ∀ t' ∈ g.triples, t.predicate ≠ rdfType → t.subject = t'.subject →
    t.predicate = t'.predicate → t.object = t'.object

/-- No node is wrapped by two declarations. -/
def DeclaresOnce (g : Graph) : Prop :=
  ∀ d ∈ g.declarations, ∀ d' ∈ g.declarations, d.2 = d'.2 → d.1 = d'.1

/-- A graph of the same triples, in which nodes have one object for each predicate. -/
structure Restates (g g' : Graph) : Prop where
  mem_triples : ∀ t, t ∈ g.triples ↔ t ∈ g'.triples
  functional : g.Functional

namespace Restates

lemma symm (h : g.Restates g') : g'.Restates g where
  mem_triples t := (h.mem_triples t).symm
  functional t ht t' ht' :=
    h.functional t ((h.mem_triples t).mpr ht) t' ((h.mem_triples t').mpr ht')

/-! ### What is read of a node -/

lemma mem_objects_iff (h : g.Restates g') (n p : String) (o : Term) :
    o ∈ g.objects n p ↔ o ∈ g'.objects n p := by
  simp only [mem_objects, h.mem_triples]

lemma objects_unique (h : g.Restates g') {n p : String} (hp : p ≠ rdfType) :
    ∀ o ∈ g.objects n p, ∀ o' ∈ g.objects n p, o = o' := by
  intro o ho o' ho'
  obtain ⟨t, ht, hn, rfl, rfl⟩ := mem_objects.mp ho
  obtain ⟨t', ht', hn', hp', rfl⟩ := mem_objects.mp ho'
  exact h.functional t ht t' ht' hp (hn.trans hn'.symm) hp'.symm

lemma hasType_eq (h : g.Restates g') (n c : String) : g.hasType n c = g'.hasType n c := by
  rw [Bool.eq_iff_iff]
  simp only [hasType, List.any_eq_true, h.mem_objects_iff]

lemma object?_eq (h : g.Restates g') {p : String} (hp : p ≠ rdfType) (n : String) :
    g.object? n p = g'.object? n p :=
  pick_eq (fun _ _ => List.mem_of_head?) (fun _ => List.head?_eq_none_iff.mp)
    (h.mem_objects_iff n p) (h.objects_unique hp)

lemma getLast?_objects_eq (h : g.Restates g') {p : String} (hp : p ≠ rdfType) (n : String) :
    (g.objects n p).getLast? = (g'.objects n p).getLast? :=
  pick_eq (fun _ _ => List.mem_of_getLast?) (fun _ => List.getLast?_eq_none_iff.mp)
    (h.mem_objects_iff n p) (h.objects_unique hp)

lemma flag_eq (h : g.Restates g') (n name : String) :
    g.flag n (shex name) = g'.flag n (shex name) := by
  rw [flag, flag, h.object?_eq (shex_ne_rdfType name)]

lemma integerAt_eq (h : g.Restates g') (n name : String) :
    g.integerAt n (shex name) = g'.integerAt n (shex name) := by
  rw [integerAt, integerAt, h.object?_eq (shex_ne_rdfType name)]

lemma bounds_eq (h : g.Restates g') (n : String) : g.bounds n = g'.bounds n := by
  rw [bounds, bounds, h.integerAt_eq, h.integerAt_eq]

/-! ### Lists -/

lemma first?_eq (h : g.Restates g') (cell : String) : g.first? cell = g'.first? cell :=
  h.getLast?_objects_eq (by decide +kernel) cell

lemma rest?_eq (h : g.Restates g') (cell : String) : g.rest? cell = g'.rest? cell :=
  h.getLast?_objects_eq (by decide +kernel) cell

/-- A list has the same elements, and the same faults. -/
lemma elementsFrom_eq (h : g.Restates g') (passed : List String) (link : Term) :
    g.elementsFrom passed link = g'.elementsFrom passed link := by
  fun_induction g.elementsFrom passed link with
  | case1 passed link hname =>
      rw [elementsFrom, hname]
  | case2 passed link hname =>
      rw [elementsFrom, hname]
      simp only [if_true]
  | case3 passed link cell hname hnil hpassed =>
      rw [elementsFrom, hname]
      simp only [if_neg hnil, dif_pos hpassed]
  | case4 passed link cell hname hnil hpassed hfirst =>
      rw [elementsFrom_cell hname hnil hpassed, ← h.first?_eq, hfirst]
  | case5 passed link cell hname hnil hpassed e hfirst hrest =>
      simp only [elementsFrom_cell hname hnil hpassed, ← h.first?_eq, hfirst, ← h.rest?_eq, hrest]
  | case6 passed link cell hname hnil hpassed e hfirst next hrest ih =>
      simp only [elementsFrom_cell hname hnil hpassed, ← h.first?_eq, hfirst, ← h.rest?_eq, hrest,
        ih]

lemma elementsAt_eq (h : g.Restates g') (n name : String) :
    g.elementsAt n (shex name) = g'.elementsAt n (shex name) := by
  simp only [elementsAt, elements, h.object?_eq (shex_ne_rdfType name), h.elementsFrom_eq]

/-! ### Expressions -/

lemma nodeConstraint?_eq (h : g.Restates g') (n : String) :
    g.nodeConstraint? n = g'.nodeConstraint? n := by
  rw [nodeConstraint?, nodeConstraint?, h.object?_eq (shex_ne_rdfType _), h.elementsAt_eq]

lemma valueConstraint?_eq (h : g.Restates g') (expr : Term) :
    g.valueConstraint? expr = g'.valueConstraint? expr := by
  simp only [valueConstraint?, h.hasType_eq, h.nodeConstraint?_eq, h.elementsAt_eq]

lemma tripleConstraint_eq (h : g.Restates g') (n : String) :
    g.tripleConstraint n = g'.tripleConstraint n := by
  simp only [tripleConstraint, h.object?_eq (shex_ne_rdfType _), h.bounds_eq, h.flag_eq,
    h.valueConstraint?_eq]

lemma kind?_eq (h : g.Restates g') (n : String) : g.kind? n = g'.kind? n := by
  simp only [kind?, h.hasType_eq]

/-- An expression that is read has the same parts. -/
lemma partsOf (h : g.Restates g') {path : List String} {expr : Term} {parts : Parts}
    (hparts : g.partsOf path expr = .ok parts) : g'.partsOf path expr = .ok parts := by
  obtain ⟨node, hnode, hpath, hcase⟩ := partsOf_eq_ok_cases.mp hparts
  refine partsOf_eq_ok_cases.mpr ⟨node, hnode, hpath, ?_⟩
  rw [← h.kind?_eq, ← h.tripleConstraint_eq, ← h.elementsAt_eq]
  refine hcase.imp_right (Or.imp ?_ ?_)
  · rintro ⟨hkind, exprs, hexprs, members, hmembers, he⟩
    have hless := g.unvisited_cons_lt (exists_triple_of_kind? hkind) hpath
    exact ⟨hkind, exprs, hexprs, members, hmembers.imp fun _ _ hm => partsOf h hm, he⟩
  · rintro ⟨hkind, exprs, hexprs, members, hmembers, he⟩
    have hless := g.unvisited_cons_lt (exists_triple_of_kind? hkind) hpath
    exact ⟨hkind, exprs, hexprs, members, hmembers.imp fun _ _ hm => partsOf h hm, he⟩
termination_by g.unvisited rdfType path

/-! ### Shapes -/

/-- A shape that is read is the same. -/
lemma shapeAt (h : g.Restates g') {node name : String} {s : Shape}
    (hs : g.shapeAt node name = .ok s) : g'.shapeAt node name = .ok s := by
  rw [Graph.shapeAt] at hs ⊢
  rw [← h.object?_eq (shex_ne_rdfType _), ← h.flag_eq]
  split at hs
  · obtain ⟨parts, hparts, hs⟩ := bind_eq_ok_iff.mp hs
    exact bind_eq_ok_iff.mpr ⟨parts, h.partsOf hparts, hs⟩
  · exact hs

lemma nodesOfType_perm (h : g.Restates g') (c : String) :
    (g.nodesOfType c).Perm (g'.nodesOfType c) :=
  (List.perm_ext_iff_of_nodup (nodup_nodesOfType c) (nodup_nodesOfType c)).mpr
    fun n => by rw [mem_nodesOfType, mem_nodesOfType, h.hasType_eq]

lemma mem_declarations_iff (h : g.Restates g') (d node : String) :
    (d, node) ∈ g.declarations ↔ (d, node) ∈ g'.declarations := by
  rw [mem_declarations, mem_declarations, declaredNode?, declaredNode?, h.hasType_eq,
    h.object?_eq (shex_ne_rdfType _)]

/-- A node that at most one declaration wraps has the same name. -/
lemma nameOf_eq (h : g.Restates g') (honce : g.DeclaresOnce) (node : String) :
    g.nameOf node = g'.nameOf node := by
  rw [nameOf, nameOf, declaredName?, declaredName?]
  congr 1
  refine pick_eq (fun _ _ => List.mem_of_getLast?) (fun _ => List.getLast?_eq_none_iff.mp)
    (fun d => ?_) fun d hd d' hd' => ?_
  · rw [mem_wrapping_iff, mem_wrapping_iff, h.mem_declarations_iff]
  · exact honce _ (mem_wrapping_iff.mp hd) _ (mem_wrapping_iff.mp hd') rfl

/-- A description that is read has the same shapes, up to their order. -/
lemma shapes (h : g.Restates g') (honce : g.DeclaresOnce) {shapes : List Shape}
    (hs : g.shapes = .ok shapes) : ∃ shapes', g'.shapes = .ok shapes' ∧ shapes.Perm shapes' := by
  rw [shapes_eq_ok_iff] at hs
  obtain ⟨shapes', hshapes', hperm⟩ :=
    List.perm_comp_forall₂ (h.nodesOfType_perm (shex "Shape")).symm hs
  refine ⟨shapes', shapes_eq_ok_iff.mpr (hshapes'.imp fun node s hread => ?_), hperm.symm⟩
  rw [← h.nameOf_eq honce]
  exact h.shapeAt hread

lemma declaresOnce (h : g.Restates g') (honce : g.DeclaresOnce) : g'.DeclaresOnce :=
  fun d hd d' hd' => honce d ((h.mem_declarations_iff d.1 d.2).mpr hd) d'
    ((h.mem_declarations_iff d'.1 d'.2).mpr hd')

end Restates

/-- **The order of triples does not matter.** If nodes have one object for each predicate, classes
apart, and none is wrapped by two declarations, then graphs of the same triples are both read or
both not, and have the same shapes up to their order. -/
theorem shapes_perm (htriples : ∀ t, t ∈ g.triples ↔ t ∈ g'.triples)
    (hfunctional : g.Functional) (honce : g.DeclaresOnce) :
    ((∃ shapes, g.shapes = .ok shapes) ↔ ∃ shapes', g'.shapes = .ok shapes') ∧
      ∀ shapes shapes', g.shapes = .ok shapes → g'.shapes = .ok shapes' →
        shapes.Perm shapes' := by
  have h : g.Restates g' := ⟨htriples, hfunctional⟩
  refine ⟨⟨?_, ?_⟩, fun shapes shapes' hs hs' => ?_⟩
  · rintro ⟨shapes, hs⟩
    obtain ⟨shapes', hs', -⟩ := h.shapes honce hs
    exact ⟨shapes', hs'⟩
  · rintro ⟨shapes', hs'⟩
    obtain ⟨shapes, hs, -⟩ := h.symm.shapes (h.declaresOnce honce) hs'
    exact ⟨shapes, hs⟩
  · obtain ⟨shapes'', hs'', hperm⟩ := h.shapes honce hs
    rwa [Except.ok.inj (hs'.symm.trans hs'')]

/-- Two shapes, of which one is wrapped by a declaration and has a list of triple constraints. -/
def twoShapes : Graph := stating [
  ("D", rdfType, .named (shex "ShapeDecl")),
  ("D", shex "shapeExpr", .blank "s"),
  ("_:s", rdfType, .named (shex "Shape")),
  ("_:s", shex "expression", .blank "e"),
  ("_:e", rdfType, .named (shex "EachOf")),
  ("_:e", shex "expressions", .blank "1"),
  ("_:1", rdfFirst, .named "a"),
  ("_:1", rdfRest, .blank "2"),
  ("_:2", rdfFirst, .named "b"),
  ("_:2", rdfRest, .named rdfNil),
  ("a", rdfType, .named (shex "TripleConstraint")),
  ("a", shex "predicate", .named "p"),
  ("b", rdfType, .named (shex "TripleConstraint")),
  ("b", shex "predicate", .named "q"),
  ("b", shex "valueExpr", .named "U"),
  ("U", rdfType, .named (shex "Shape"))]

/-- The same triples backwards, and then once more. -/
def twoShapesTwice : Graph := ⟨twoShapes.triples.reverse ++ twoShapes.triples⟩

/-- Backwards the shapes come in the other order. -/
theorem twoShapes_perm : twoShapes.Functional ∧ twoShapes.DeclaresOnce ∧
    ∃ shapes shapes', twoShapes.shapes = .ok shapes ∧ twoShapesTwice.shapes = .ok shapes' ∧
      shapes.map Shape.name = ["D", "U"] ∧ shapes'.map Shape.name = ["U", "D"] ∧
      shapes.Perm shapes' := by
  have htriples (t : Triple) : t ∈ twoShapes.triples ↔ t ∈ twoShapesTwice.triples := by
    simp only [twoShapesTwice, List.mem_append, List.mem_reverse, or_self]
  have hfunctional : twoShapes.Functional := by
    rw [Functional]
    decide +kernel
  have honce : twoShapes.DeclaresOnce := by
    rw [DeclaresOnce]
    decide +kernel
  have hread : twoShapes.shapes.toOption.map (List.map Shape.name) = some ["D", "U"] := by
    decide +kernel
  have hread' : twoShapesTwice.shapes.toOption.map (List.map Shape.name) = some ["U", "D"] := by
    decide +kernel
  obtain ⟨shapes, hs, hnames⟩ := Option.map_eq_some_iff.mp hread
  obtain ⟨shapes', hs', hnames'⟩ := Option.map_eq_some_iff.mp hread'
  rw [toOption_eq_some_iff] at hs hs'
  obtain ⟨-, hperm⟩ := shapes_perm htriples hfunctional honce
  exact ⟨hfunctional, honce, shapes, shapes', hs, hs', hnames, hnames', hperm _ _ hs hs'⟩

end Graph

end StarShapes
