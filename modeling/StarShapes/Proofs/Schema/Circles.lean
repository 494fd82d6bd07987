import Mathlib.Logic.Relation
import StarShapes.Proofs.Schema.Cells
import StarShapes.Proofs.Shape.Declarations

/-!
Circles: expressions that are parts of themselves are refused, and no others are taken for them.

* `Graph.IsComposite`, `Graph.HasPart`: the nodes that stand for a conjunction or disjunction, and
  the nodes of their members. `Graph.Reaches` are those that the expression of a shape is made of.
* `Graph.partsWithin`: the reading of an expression that goes down only so far. It never has to go
  further down than there are classes stated (`partsWithin_eq`).
* `CircleFree`: a computation that reports no circle. Lists, triple constraints and the shape itself
  are such.
* `shapeAt_catches_circles`: a shape is not read if a part of its expression is a part of itself,
  and only such a part is reported as a circle.
-/

namespace StarShapes

/-! ### Reports of circles -/

/-- A computation that does not report an expression as a part of itself. -/
def CircleFree {α : Type} (x : Except ShapeError α) : Prop :=
  ∀ node, x ≠ .error (.cyclicExpression node)

namespace CircleFree

variable {α β : Type}

lemma ok (a : α) : CircleFree (.ok a) := by
  intro node h
  cases h

/-- Any other fault may be reported. -/
lemma error {e : ShapeError} (h : ∀ node, e ≠ .cyclicExpression node) :
    CircleFree (.error e : Except ShapeError α) :=
  fun node he => h node (Except.error.inj he)

/-- Computations one after the other report no circle if neither of them does. -/
lemma bind {x : Except ShapeError α} {f : α → Except ShapeError β} (hx : CircleFree x)
    (hf : ∀ a, CircleFree (f a)) : CircleFree (x >>= f) := by
  intro node h
  rcases bind_eq_error_iff.mp h with h | ⟨a, -, h⟩
  · exact hx node h
  · exact hf a node h

end CircleFree

/-- A shape reports only predicates that it asks for and forbids. -/
lemma circleFree_new (d : Declarations) : CircleFree (Shape.new d) := by
  intro node h
  cases (Shape.new_eq_error_iff.mp h).2

namespace Graph

open Vocabulary Relation TripleExpression

variable {g : Graph}

/-- A list reports only its own faults. -/
lemma circleFree_elementsAt (node predicate : String) :
    CircleFree (g.elementsAt node predicate) := by
  rw [elementsAt]
  split
  · intro k h
    obtain ⟨_, _, _, -, hfault⟩ := elements_eq_error_iff.mp h
    cases hfault
  · exact .ok _

lemma circleFree_integerAt (node predicate : String) :
    CircleFree (g.integerAt node predicate) := by
  rw [integerAt]
  split
  · rw [Term.integer]
    split
    · split
      · exact .ok _
      · exact .error (by simp)
    · exact .error (by simp)
  · exact .ok _

lemma circleFree_boundOf (node : String) (n : Int) : CircleFree (boundOf node n) := by
  rw [boundOf]
  split
  · exact .ok _
  · exact .error (by simp)

lemma circleFree_bounds (node : String) : CircleFree (g.bounds node) := by
  rw [bounds]
  refine .bind (circleFree_integerAt _ _) fun min => .bind (circleFree_integerAt _ _) fun max =>
    .bind (circleFree_boundOf _ _) fun least => ?_
  split
  · exact .ok _
  · exact .bind (circleFree_boundOf _ _) fun greatest => .ok _

lemma circleFree_valueConstraint? (expr : Term) : CircleFree (g.valueConstraint? expr) := by
  rw [valueConstraint?]
  split
  · exact .ok _
  · split_ifs
    · rw [nodeConstraint?]
      split
      · exact .ok _
      · exact .bind (circleFree_elementsAt _ _) fun values => .ok _
    · exact .bind (circleFree_elementsAt _ _) fun targets => .ok _
    · exact .ok _
    · exact .ok _

/-- A triple constraint reports only its own faults. -/
lemma circleFree_tripleConstraint (node : String) : CircleFree (g.tripleConstraint node) := by
  rw [tripleConstraint]
  split
  · exact .error (by simp)
  · refine .bind (circleFree_bounds node) fun bounds => .bind (fun k h => ?_) fun cardinality => ?_
    · obtain ⟨_, -, -, he⟩ := Cardinality.ofBounds_eq_error_iff.mp h
      cases he
    · split
      · exact .bind (circleFree_valueConstraint? _) fun constraint? => .ok _
      · exact .ok _

/-! ### Parts of expressions -/

/-- A node that stands for a conjunction or disjunction. -/
def IsComposite (g : Graph) (node : String) : Prop :=
  (g.hasType node (shex "EachOf") ∨ g.hasType node (shex "OneOf")) ∧
    ¬ g.hasType node (shex "TripleConstraint")

/-- The members of a conjunction or disjunction are the elements of its list. -/
structure IsMember (g : Graph) (node : String) (e : Term) : Prop where
  composite : g.IsComposite node
  mem : ∃ exprs, g.elementsAt node (shex "expressions") = .ok exprs ∧ e ∈ exprs

/-- A node has another one as its part if this is a member of it. -/
def HasPart (g : Graph) (node part : String) : Prop :=
  ∃ e, g.IsMember node e ∧ e.nodeName? = some part

/-- The expression of a shape is made of a node: it is there, or the node is a part of its parts. -/
def Reaches (g : Graph) (node part : String) : Prop :=
  ∃ expr root, g.object? node (shex "expression") = some expr ∧ expr.nodeName? = some root ∧
    ReflTransGen g.HasPart root part

lemma isComposite_iff {node : String} :
    g.IsComposite node ↔ g.kind? node = some .all ∨ g.kind? node = some .any := by
  rw [IsComposite, kind?]
  split_ifs with hconstraint hall hany
  · simp [hconstraint]
  · simp [hconstraint, hall]
  · simp [hconstraint, hany]
  · simp [hconstraint, hall, hany]

lemma IsComposite.exists_triple {node : String} (h : g.IsComposite node) :
    ∃ t ∈ g.triples, t.predicate = rdfType ∧ t.subject = node := by
  rcases isComposite_iff.mp h with h | h
  · exact exists_triple_of_kind? h
  · exact exists_triple_of_kind? h

/-- What has parts is composite. -/
lemma isComposite_of_transGen {node part : String} (h : TransGen g.HasPart node part) :
    g.IsComposite node := by
  obtain ⟨_, ⟨_, hmember, -⟩, -⟩ := TransGen.head'_iff.mp h
  exact hmember.composite

/-- Each member of an expression with a tree has a smaller tree. -/
lemma IsMember.unfolds {node : String} {e expr : Term} {t : TripleExpression}
    (h : g.IsMember node e) (hnode : expr.nodeName? = some node) (ht : g.Unfolds expr t) :
    ∃ t', g.Unfolds e t' ∧ sizeOf t' < sizeOf t := by
  obtain ⟨hcomposite, exprs, hexprs, he⟩ := h
  cases ht with
  | constraint hnode' hkind =>
      obtain rfl := Option.some.inj (hnode.symm.trans hnode')
      simp [isComposite_iff, hkind] at hcomposite
  | all hnode' _ hexprs' hmembers =>
      obtain rfl := Option.some.inj (hnode.symm.trans hnode')
      obtain rfl := Except.ok.inj (hexprs.symm.trans hexprs')
      obtain ⟨m, hm, hunfolds⟩ := exists_of_forall₂_left hmembers he
      exact ⟨m, hunfolds, sizeOf_lt_all hm⟩
  | any hnode' _ hexprs' hmembers =>
      obtain rfl := Option.some.inj (hnode.symm.trans hnode')
      obtain rfl := Except.ok.inj (hexprs.symm.trans hexprs')
      obtain ⟨m, hm, hunfolds⟩ := exists_of_forall₂_left hmembers he
      exact ⟨m, hunfolds, sizeOf_lt_any hm⟩

/-- A node stands for an expression with the given tree. -/
def Spells (g : Graph) (node : String) (t : TripleExpression) : Prop :=
  ∃ expr : Term, expr.nodeName? = some node ∧ g.Unfolds expr t

lemma HasPart.spells {node part : String} {t : TripleExpression} (h : g.HasPart node part)
    (ht : g.Spells node t) : ∃ t', g.Spells part t' ∧ sizeOf t' < sizeOf t := by
  obtain ⟨e, hmember, he⟩ := h
  obtain ⟨expr, hnode, ht⟩ := ht
  obtain ⟨t', ht', hless⟩ := hmember.unfolds hnode ht
  exact ⟨t', ⟨e, he, ht'⟩, hless⟩

/-- The parts of parts have smaller trees, too. -/
lemma spells_of_transGen {node part : String} {t : TripleExpression}
    (h : TransGen g.HasPart node part) (ht : g.Spells node t) :
    ∃ t', g.Spells part t' ∧ sizeOf t' < sizeOf t := by
  induction h with
  | single h => exact h.spells ht
  | tail _ h ih =>
      obtain ⟨t', ht', hless⟩ := ih
      obtain ⟨t'', ht'', hless'⟩ := h.spells ht'
      exact ⟨t'', ht'', hless'.trans hless⟩

/-- What has a tree is no part of itself. -/
lemma Spells.not_transGen {node : String} {t : TripleExpression} (h : g.Spells node t) :
    ¬ TransGen g.HasPart node node := by
  intro hcircle
  obtain ⟨t', ⟨expr', hnode', ht'⟩, hless⟩ := spells_of_transGen hcircle h
  obtain ⟨expr, hnode, ht⟩ := h
  rw [ht.unique ht' (hnode.trans hnode'.symm)] at hless
  exact Nat.lt_irrefl _ hless

/-- A shape whose expression is made of a part of itself is not read. -/
lemma shapeAt_ne_ok {node name part : String} (hreaches : g.Reaches node part)
    (hcircle : TransGen g.HasPart part part) (s : Shape) : g.shapeAt node name ≠ .ok s := by
  intro hs
  obtain ⟨expr, root, hexpr, hroot, hreaches⟩ := hreaches
  obtain ⟨t, ⟨ht, -⟩, -⟩ := shapeAt_eq_ok_iff.mp hs
  have hspells : g.Spells root t := ⟨expr, hroot, (unfoldsAt_of_some hexpr).mp ht⟩
  rcases reflTransGen_iff_eq_or_transGen.mp hreaches with rfl | hreaches
  · exact hspells.not_transGen hcircle
  · obtain ⟨t', hspells', -⟩ := spells_of_transGen hreaches hspells
    exact hspells'.not_transGen hcircle

/-! ### Reading parts -/

/-- An expression is read by its kind. -/
lemma partsOf_eq (path : List String) (expr : Term) :
    g.partsOf path expr =
      match expr.nodeName? with
      | none => .error (.unsupportedExpression expr.text "literal")
      | some node =>
        if node ∈ path then .error (.cyclicExpression node)
        else
          match g.kind? node with
          | some .constraint => (g.tripleConstraint node).map Parts.ofRule
          | some .all => do
            let members ← g.elementsAt node (shex "expressions")
            let parts ← members.mapM (g.partsOf (node :: path))
            .ok (Parts.all parts)
          | some .any => do
            let members ← g.elementsAt node (shex "expressions")
            let parts ← members.mapM (g.partsOf (node :: path))
            .ok (Parts.any parts)
          | none => .error (.unsupportedExpression node (g.typesText node)) := by
  rw [partsOf]
  cases expr.nodeName? with
  | none => rfl
  | some node =>
      by_cases hpath : node ∈ path
      · simp only [dif_pos hpath, if_pos hpath]
      simp only [dif_neg hpath, if_neg hpath, kind?]
      split_ifs <;> rfl

/-- A conjunction or disjunction that reports a circle has a member that reports it. -/
lemma IsComposite.exists_isMember {path : List String} {node k : String}
    {join : List Parts → Parts} (hcomposite : g.IsComposite node)
    (h : (g.elementsAt node (shex "expressions") >>= fun members =>
      members.mapM (g.partsOf path) >>= fun parts => .ok (join parts)) =
        .error (.cyclicExpression k)) :
    ∃ e, g.IsMember node e ∧ g.partsOf path e = .error (.cyclicExpression k) := by
  obtain h | ⟨exprs, hexprs, h⟩ := bind_eq_error_iff.mp h
  · exact absurd h (circleFree_elementsAt _ _ k)
  obtain h | ⟨_, -, h⟩ := bind_eq_error_iff.mp h
  · obtain ⟨e, he, h⟩ := exists_of_mapM_eq_error h
    exact ⟨e, ⟨hcomposite, exprs, hexprs, he⟩, h⟩
  · cases h

/-- An expression that reports a circle closes it or has a member that reports it. -/
lemma exists_isMember {path : List String} {expr : Term} {k : String}
    (h : g.partsOf path expr = .error (.cyclicExpression k)) :
    ∃ node, expr.nodeName? = some node ∧ ((node ∈ path ∧ node = k) ∨
      node ∉ path ∧ ∃ e, g.IsMember node e ∧
        g.partsOf (node :: path) e = .error (.cyclicExpression k)) := by
  rw [partsOf_eq] at h
  cases hnode : expr.nodeName? with
  | none =>
      rw [hnode] at h
      cases h
  | some node =>
      simp only [hnode] at h
      refine ⟨node, rfl, ?_⟩
      split at h
      · rename_i hpath
        cases h
        exact .inl ⟨hpath, rfl⟩
      · rename_i hpath
        refine .inr ⟨hpath, ?_⟩
        split at h
        · exact absurd (map_eq_error_iff.mp h) (circleFree_tripleConstraint node k)
        · rename_i hkind
          exact (isComposite_iff.mpr (.inl hkind)).exists_isMember h
        · rename_i hkind
          exact (isComposite_iff.mpr (.inr hkind)).exists_isMember h
        · cases h

/-- Only a part of itself is reported as a circle, as every expression is a part of those that it
is read below. -/
lemma circle_of_partsOf {path : List String} {expr : Term} {k : String}
    (h : g.partsOf path expr = .error (.cyclicExpression k))
    (hpath : ∀ n ∈ path, ∀ node, expr.nodeName? = some node → TransGen g.HasPart n node) :
    ∃ root, expr.nodeName? = some root ∧ ReflTransGen g.HasPart root k ∧
      TransGen g.HasPart k k := by
  obtain ⟨node, hnode, ⟨hmem, rfl⟩ | ⟨hnew, e, hmember, he⟩⟩ := exists_isMember h
  · exact ⟨node, hnode, .refl, hpath node hmem node hnode⟩
  · have hless := g.unvisited_cons_lt hmember.composite.exists_triple hnew
    have hbelow : ∀ n ∈ node :: path, ∀ m, e.nodeName? = some m → TransGen g.HasPart n m := by
      intro n hn m hm
      rcases List.mem_cons.mp hn with rfl | hn
      · exact .single ⟨e, hmember, hm⟩
      · exact (hpath n hn node hnode).tail ⟨e, hmember, hm⟩
    obtain ⟨m, hm, hreaches, hcircle⟩ := circle_of_partsOf he hbelow
    exact ⟨node, hnode, .head ⟨e, hmember, hm⟩ hreaches, hcircle⟩
termination_by g.unvisited rdfType path

/-- A shape reports a circle only of the parts of its expression. -/
lemma circle_of_shapeAt {node name k : String}
    (h : g.shapeAt node name = .error (.cyclicExpression k)) :
    g.Reaches node k ∧ TransGen g.HasPart k k := by
  rw [shapeAt] at h
  split at h
  · rename_i expr hexpr
    obtain h | ⟨_, -, h⟩ := bind_eq_error_iff.mp h
    · obtain ⟨root, hroot, hreaches, hcircle⟩ :=
        circle_of_partsOf h fun n hn => absurd hn List.not_mem_nil
      exact ⟨⟨expr, root, hexpr, hroot, hreaches⟩, hcircle⟩
    · exact absurd h (circleFree_new _ k)
  · exact absurd h (CircleFree.bind (.ok _) (fun _ => circleFree_new _) k)

/-! ### How far down the reading goes -/

/-- The parts of an expression, where the reading may go down the given number of levels; none if
this is not enough. -/
def partsWithin (g : Graph) : Nat → List String → Term → ExceptT ShapeError Option Parts
  | 0, _, _ => .mk none
  | depth + 1, path, expr =>
    match expr.nodeName? with
    | none => .mk (some (.error (.unsupportedExpression expr.text "literal")))
    | some node =>
      if node ∈ path then .mk (some (.error (.cyclicExpression node)))
      else
        match g.kind? node with
        | some .constraint => .mk (some ((g.tripleConstraint node).map Parts.ofRule))
        | some .all => do
          let members ← .mk (some (g.elementsAt node (shex "expressions")))
          let parts ← members.mapM (g.partsWithin depth (node :: path))
          .mk (some (.ok (Parts.all parts)))
        | some .any => do
          let members ← .mk (some (g.elementsAt node (shex "expressions")))
          let parts ← members.mapM (g.partsWithin depth (node :: path))
          .mk (some (.ok (Parts.any parts)))
        | none => .mk (some (.error (.unsupportedExpression node (g.typesText node))))

/-- The reading never goes further down than there are classes stated of nodes that it did not come
by, as it goes down at new nodes with a class only. -/
lemma partsWithin_eq {depth : Nat} {path : List String} {expr : Term}
    (h : g.unvisited rdfType path < depth) :
    g.partsWithin depth path expr = .mk (some (g.partsOf path expr)) := by
  induction depth generalizing path expr with
  | zero => omega
  | succ depth ih =>
      rw [partsWithin, partsOf_eq]
      cases expr.nodeName? with
      | none => rfl
      | some node =>
          by_cases hpath : node ∈ path
          · simp only [if_pos hpath]
          simp only [if_neg hpath]
          have hmembers (k : ExpressionKind) (hkind : g.kind? node = some k) :
              g.partsWithin depth (node :: path) =
                fun e => .mk (some (g.partsOf (node :: path) e)) := by
            have hless := g.unvisited_cons_lt (exists_triple_of_kind? hkind) hpath
            exact funext fun e => ih (Nat.lt_of_lt_of_le hless (Nat.le_of_lt_succ h))
          cases hkind : g.kind? node with
          | none => rfl
          | some k =>
              cases k with
              | constraint => rfl
              | all => simp only [hmembers _ hkind, mk_some_bind, mapM_mk_some]
              | any => simp only [hmembers _ hkind, mk_some_bind, mapM_mk_some]

/-- An expression is read within one level more than there are classes stated. -/
lemma partsWithin_start {depth : Nat} {expr : Term}
    (h : (g.triples.filter fun t => t.predicate = rdfType).length < depth) :
    (g.partsWithin depth [] expr).run = some (g.partsOf [] expr) := by
  have hunvisited : g.unvisited rdfType [] < depth := by
    simpa only [unvisited, List.not_mem_nil, not_false_eq_true, and_true] using h
  rw [partsWithin_eq hunvisited, ExceptT.run, ExceptT.mk]

/-- **Circles are caught, and sharing is not taken for one.** The reading of an expression goes down
no further than there are classes stated. A shape is not read if its expression is made of a
conjunction or disjunction that is a part of itself, and only such a node is reported as a circle,
however many others have it as their part, and however often. -/
theorem shapeAt_catches_circles (g : Graph) (node name : String) :
    (∀ expr depth, (g.triples.filter fun t => t.predicate = rdfType).length < depth →
      (g.partsWithin depth [] expr).run = some (g.partsOf [] expr)) ∧
    (∀ part, g.Reaches node part → TransGen g.HasPart part part →
      ∀ s, g.shapeAt node name ≠ .ok s) ∧
    ∀ part, g.shapeAt node name = .error (.cyclicExpression part) →
      g.IsComposite part ∧ g.Reaches node part ∧ TransGen g.HasPart part part := by
  refine ⟨fun _ _ => partsWithin_start, fun _ => shapeAt_ne_ok, fun part h => ?_⟩
  obtain ⟨hreaches, hcircle⟩ := circle_of_shapeAt h
  exact ⟨isComposite_of_transGen hcircle, hreaches, hcircle⟩

/-- A shape whose conjunction is a member of its own disjunction, and one whose conjunction has the
same disjunction twice. -/
def circleAndPair : Graph := stating [
  ("C", rdfType, .named (shex "Shape")),
  ("C", shex "expression", .blank "a"),
  ("_:a", rdfType, .named (shex "EachOf")),
  ("_:a", shex "expressions", .blank "1"),
  ("_:1", rdfFirst, .named "p"),
  ("_:1", rdfRest, .blank "2"),
  ("_:2", rdfFirst, .blank "b"),
  ("_:2", rdfRest, .named rdfNil),
  ("_:b", rdfType, .named (shex "OneOf")),
  ("_:b", shex "expressions", .blank "3"),
  ("_:3", rdfFirst, .blank "a"),
  ("_:3", rdfRest, .named rdfNil),
  ("P", rdfType, .named (shex "Shape")),
  ("P", shex "expression", .blank "c"),
  ("_:c", rdfType, .named (shex "EachOf")),
  ("_:c", shex "expressions", .blank "4"),
  ("_:4", rdfFirst, .blank "d"),
  ("_:4", rdfRest, .blank "5"),
  ("_:5", rdfFirst, .blank "d"),
  ("_:5", rdfRest, .named rdfNil),
  ("_:d", rdfType, .named (shex "OneOf")),
  ("_:d", shex "expressions", .blank "6"),
  ("_:6", rdfFirst, .named "p"),
  ("_:6", rdfRest, .named rdfNil),
  ("p", rdfType, .named (shex "TripleConstraint")),
  ("p", shex "predicate", .named "q")]

/-- The circle is reported where it is closed; the pair is read, so there is no circle in it. -/
theorem circleAndPair_caught :
    (circleAndPair.triples.filter fun t => t.predicate = rdfType).length < 8 ∧
    circleAndPair.shapeAt "C" "C" = .error (.cyclicExpression "_:a") ∧
    TransGen circleAndPair.HasPart "_:a" "_:a" ∧
    (circleAndPair.partsWithin 8 [] (.blank "a")).run = some (.error (.cyclicExpression "_:a")) ∧
    (∃ s, circleAndPair.shapeAt "P" "P" = .ok s) ∧
    ∀ part, circleAndPair.Reaches "P" part → ¬ TransGen circleAndPair.HasPart part part := by
  have hdepth : (circleAndPair.triples.filter fun t => t.predicate = rdfType).length < 8 := by
    decide +kernel
  obtain ⟨hwithin, -, hcircle⟩ := shapeAt_catches_circles circleAndPair "C" "C"
  obtain ⟨-, hpair, -⟩ := shapeAt_catches_circles circleAndPair "P" "P"
  have hparts : circleAndPair.partsOf [] (.blank "a") = .error (.cyclicExpression "_:a") := by
    refine (map_eq_error_iff (f := fun _ => ())).mp ?_
    decide +kernel
  have hrefused : circleAndPair.shapeAt "C" "C" = .error (.cyclicExpression "_:a") := by
    have hexpr : circleAndPair.object? "C" (shex "expression") = some (.blank "a") := by
      decide +kernel
    rw [shapeAt, hexpr]
    simp only [hparts, bind, Except.bind]
  have hread : ∃ s, circleAndPair.shapeAt "P" "P" = .ok s := by
    rw [exists_ok_iff]
    decide +kernel
  obtain ⟨s, hs⟩ := hread
  exact ⟨hdepth, hrefused, (hcircle _ hrefused).2.2, by rw [hwithin _ 8 hdepth, hparts], ⟨s, hs⟩,
    fun part hreaches h => hpair part hreaches h s hs⟩

end Graph

end StarShapes
