import StarShapes.Schema.Basic
import StarShapes.Proofs.Collection.Matching

/-!
Unfolding: the tree that a description spells out for a triple expression.

* `TripleExpression`: a triple expression as a tree, with its triple constraints as leaves.
  `leaves` are all of them, `direct` those under no disjunction, and `choices` are the disjunctions
  with the direct leaves of their members (`TripleExpression.mem_leaves_iff`).
* `Graph.Unfolds`: the tree of an expression in a graph, which has one at most (`Unfolds.unique`).
* `Graph.forbids`, `Graph.collect`: the rules of the leaves of a tree, sorted into those asked for,
  those forbidden and the alternatives.
* `partsOf_eq_ok_iff`: an expression is read exactly if it has a tree whose leaves are read. An
  expression that is a part of itself has no tree.
* `shapeAt_eq_ok_iff`, `shapes_eq_ok_iff`: so are a shape and a description. `nameOf` is the name
  that a description gives to the shape at a node.
-/

namespace StarShapes

/-- A triple expression as a tree: triple constraints, given by their nodes, put together by
conjunction and disjunction. -/
inductive TripleExpression where
  /-- A triple constraint. -/
  | constraint (node : String)
  /-- A conjunction. -/
  | all (members : List TripleExpression)
  /-- A disjunction. -/
  | any (members : List TripleExpression)

namespace TripleExpression

/-- The induction principle of the nested inductive: a property holds of every tree once it is
inherited from the members. -/
@[elab_as_elim]
theorem ind {P : TripleExpression → Prop} (constraint : ∀ node, P (.constraint node))
    (all : ∀ members, (∀ m ∈ members, P m) → P (.all members))
    (any : ∀ members, (∀ m ∈ members, P m) → P (.any members)) (t : TripleExpression) : P t :=
  @TripleExpression.rec P (fun ms => ∀ m ∈ ms, P m)
    constraint all any
    (fun m hm => absurd hm List.not_mem_nil)
    (fun _ _ ihm ihms m hm => by
      rcases List.mem_cons.mp hm with rfl | hm
      · exact ihm
      · exact ihms m hm)
    t

/-- The triple constraints, from left to right, as often as they occur. -/
def leaves : TripleExpression → List String
  | constraint node => [node]
  | all members => members.flatMap leaves
  | any members => members.flatMap leaves

/-- The triple constraints under no disjunction, from left to right. -/
def direct : TripleExpression → List String
  | constraint node => [node]
  | all members => members.flatMap direct
  | any _ => []

/-- The disjunctions, those inside of one before it. Each has for every member the triple
constraints that are under no further disjunction. -/
def choices : TripleExpression → List (List (List String))
  | constraint _ => []
  | all members => members.flatMap choices
  | any members => members.flatMap choices ++ [members.map direct]

/-- A triple constraint is under no disjunction, or it belongs to the innermost one that it is
under. -/
lemma mem_leaves_iff {t : TripleExpression} {node : String} :
    node ∈ t.leaves ↔ node ∈ t.direct ∨ ∃ c ∈ t.choices, ∃ m ∈ c, node ∈ m := by
  induction t using ind with
  | constraint n => simp [leaves, direct, choices]
  | all members ih =>
      simp only [leaves, direct, choices, List.mem_flatMap]
      constructor
      · rintro ⟨m, hm, hnode⟩
        rcases (ih m hm).mp hnode with h | ⟨c, hc, h⟩
        · exact .inl ⟨m, hm, h⟩
        · exact .inr ⟨c, ⟨m, hm, hc⟩, h⟩
      · rintro (⟨m, hm, h⟩ | ⟨c, ⟨m, hm, hc⟩, h⟩)
        · exact ⟨m, hm, (ih m hm).mpr (.inl h)⟩
        · exact ⟨m, hm, (ih m hm).mpr (.inr ⟨c, hc, h⟩)⟩
  | any members ih =>
      simp only [leaves, direct, choices, List.mem_flatMap, List.mem_append, List.mem_singleton,
        List.not_mem_nil, false_or]
      constructor
      · rintro ⟨m, hm, hnode⟩
        rcases (ih m hm).mp hnode with h | ⟨c, hc, h⟩
        · exact ⟨_, .inr rfl, m.direct, List.mem_map_of_mem hm, h⟩
        · exact ⟨c, .inl ⟨m, hm, hc⟩, h⟩
      · rintro ⟨c, ⟨m, hm, hc⟩ | rfl, h⟩
        · exact ⟨m, hm, (ih m hm).mpr (.inr ⟨c, hc, h⟩)⟩
        · obtain ⟨_, hmember, hnode⟩ := h
          obtain ⟨m, hm, rfl⟩ := List.mem_map.mp hmember
          exact ⟨m, hm, (ih m hm).mpr (.inl hnode)⟩

lemma sizeOf_lt_all {members : List TripleExpression} {m : TripleExpression} (hm : m ∈ members) :
    sizeOf m < sizeOf (all members) := by
  have := List.sizeOf_lt_of_mem hm
  rw [all.sizeOf_spec]
  omega

lemma sizeOf_lt_any {members : List TripleExpression} {m : TripleExpression} (hm : m ∈ members) :
    sizeOf m < sizeOf (any members) := by
  have := List.sizeOf_lt_of_mem hm
  rw [any.sizeOf_spec]
  omega

end TripleExpression

/-- What a node of a description can be in a triple expression. -/
inductive ExpressionKind where
  /-- A triple constraint. -/
  | constraint
  /-- A conjunction. -/
  | all
  /-- A disjunction. -/
  | any
  deriving DecidableEq

namespace Graph

open Vocabulary TripleExpression

variable {g : Graph}

/-- The graph of the given statements. -/
def stating (statements : List (String × String × Term)) : Graph where
  triples := statements.map fun s => ⟨s.1, s.2.1, s.2.2, false⟩

/-! ### The tree of an expression -/

/-- What a node is, by its classes; a triple constraint has no members, whatever else it is. -/
def kind? (g : Graph) (node : String) : Option ExpressionKind :=
  if g.hasType node (shex "TripleConstraint") then some .constraint
  else if g.hasType node (shex "EachOf") then some .all
  else if g.hasType node (shex "OneOf") then some .any
  else none

/-- What is of some kind has a class. -/
lemma exists_triple_of_kind? {node : String} {k : ExpressionKind} (h : g.kind? node = some k) :
    ∃ t ∈ g.triples, t.predicate = rdfType ∧ t.subject = node := by
  rw [kind?] at h
  split_ifs at h with hconstraint hall hany
  · exact exists_triple_of_hasType hconstraint
  · exact exists_triple_of_hasType hall
  · exact exists_triple_of_hasType hany

/-- The tree that a graph spells out for an expression. -/
inductive Unfolds (g : Graph) : Term → TripleExpression → Prop
  | constraint {expr : Term} {node : String} (hnode : expr.nodeName? = some node)
      (hkind : g.kind? node = some .constraint) : Unfolds g expr (.constraint node)
  | all {expr : Term} {node : String} {exprs : List Term} {members : List TripleExpression}
      (hnode : expr.nodeName? = some node) (hkind : g.kind? node = some .all)
      (hexprs : g.elementsAt node (shex "expressions") = .ok exprs)
      (hmembers : List.Forall₂ (Unfolds g) exprs members) : Unfolds g expr (.all members)
  | any {expr : Term} {node : String} {exprs : List Term} {members : List TripleExpression}
      (hnode : expr.nodeName? = some node) (hkind : g.kind? node = some .any)
      (hexprs : g.elementsAt node (shex "expressions") = .ok exprs)
      (hmembers : List.Forall₂ (Unfolds g) exprs members) : Unfolds g expr (.any members)

/-- Expressions of which one node is known have one kind. -/
lemma kind_unique {e e' : Term} {n n' : String} {k k' : ExpressionKind}
    (he : e.nodeName? = e'.nodeName?) (hn : e.nodeName? = some n) (hn' : e'.nodeName? = some n')
    (hk : g.kind? n = some k) (hk' : g.kind? n' = some k') : n = n' ∧ k = k' := by
  obtain rfl : n = n' := Option.some.inj (hn.symm.trans (he.trans hn'))
  exact ⟨rfl, Option.some.inj (hk.symm.trans hk')⟩

/-- Expressions at the same node have the same tree. -/
lemma Unfolds.unique {t t' : TripleExpression} {e e' : Term} (h : g.Unfolds e t)
    (h' : g.Unfolds e' t') (he : e.nodeName? = e'.nodeName?) : t = t' := by
  induction t using ind generalizing t' e e' with
  | constraint node =>
      cases h with
      | constraint hnode hkind =>
          cases h' with
          | constraint hnode' hkind' => rw [(kind_unique he hnode hnode' hkind hkind').1]
          | all hnode' hkind' _ _ => cases (kind_unique he hnode hnode' hkind hkind').2
          | any hnode' hkind' _ _ => cases (kind_unique he hnode hnode' hkind hkind').2
  | all members ih =>
      cases h with
      | all hnode hkind hexprs hmembers =>
          cases h' with
          | constraint hnode' hkind' => cases (kind_unique he hnode hnode' hkind hkind').2
          | all hnode' hkind' hexprs' hmembers' =>
              obtain ⟨rfl, -⟩ := kind_unique he hnode hnode' hkind hkind'
              obtain rfl := Except.ok.inj (hexprs.symm.trans hexprs')
              rw [eq_of_forall₂ hmembers hmembers' fun m hm _ _ h h' => ih m hm h h' rfl]
          | any hnode' hkind' _ _ => cases (kind_unique he hnode hnode' hkind hkind').2
  | any members ih =>
      cases h with
      | any hnode hkind hexprs hmembers =>
          cases h' with
          | constraint hnode' hkind' => cases (kind_unique he hnode hnode' hkind hkind').2
          | all hnode' hkind' _ _ => cases (kind_unique he hnode hnode' hkind hkind').2
          | any hnode' hkind' hexprs' hmembers' =>
              obtain ⟨rfl, -⟩ := kind_unique he hnode hnode' hkind hkind'
              obtain rfl := Except.ok.inj (hexprs.symm.trans hexprs')
              rw [eq_of_forall₂ hmembers hmembers' fun m hm _ _ h h' => ih m hm h h' rfl]

/-! ### The rules of a tree -/

/-- The predicate that a triple constraint names. -/
def predicate? (g : Graph) (node : String) : Option String :=
  (g.object? node (shex "predicate")).bind Term.iri?

/-- Whether a triple constraint forbids its predicate: it is negated, or the predicate may have at
most zero values. -/
def forbids (g : Graph) (node : String) : Bool :=
  g.flag node (shex "negated") || decide (g.integerAt node (shex "max") = .ok 0)

/-- The rule of a triple constraint, if it is read. -/
def rule? (g : Graph) (node : String) : Option Rule := (g.tripleConstraint node).toOption

/-- The rules of those triple constraints that ask for their predicates, in order. -/
def asked (g : Graph) (nodes : List String) : List Rule :=
  (nodes.filter fun n => !g.forbids n).filterMap g.rule?

/-- The rules of those triple constraints that forbid their predicates, in order. -/
def forbidden (g : Graph) (nodes : List String) : List Rule :=
  ((nodes.filter g.forbids).filterMap g.rule?).map (Rule.withNegative false)

/-- The rules of a tree: what its direct leaves ask for, what any leaf forbids, and for each
disjunction what the direct leaves of its members ask for. -/
def collect (g : Graph) (t : TripleExpression) : Parts where
  positive := g.asked t.direct
  negative := g.forbidden t.leaves
  oneOf := t.choices.map (List.map g.asked)

/-- The bounds of a triple constraint have zero at the top if its greatest number is zero. -/
lemma bounds_eq_zero_iff {node : String} {min : Nat} {max? : Option Nat}
    (h : g.bounds node = .ok (min, max?)) :
    max? = some 0 ↔ g.integerAt node (shex "max") = .ok 0 := by
  rw [bounds] at h
  simp only [bind_eq_ok_iff] at h
  obtain ⟨_, -, max, hmax, least, -, h⟩ := h
  rw [hmax]
  split at h
  · rename_i hneg
    obtain ⟨rfl, rfl⟩ := Prod.mk.inj (Except.ok.inj h)
    simp only [Except.ok.injEq, reduceCtorEq, false_iff]
    omega
  · rename_i hneg
    obtain ⟨greatest, hgreatest, h⟩ := bind_eq_ok_iff.mp h
    obtain ⟨rfl, rfl⟩ := Prod.mk.inj (Except.ok.inj h)
    rw [boundOf] at hgreatest
    split at hgreatest
    · obtain rfl := Except.ok.inj hgreatest
      simp only [Option.some.injEq, Except.ok.injEq]
      omega
    · cases hgreatest

/-- The rule of a triple constraint is about its predicate, and negative if it forbids this. -/
lemma of_tripleConstraint {node : String} {r : Rule} (h : g.tripleConstraint node = .ok r) :
    g.predicate? node = some r.predicate ∧ r.isNegative = g.forbids node := by
  rw [tripleConstraint] at h
  split at h
  · cases h
  · rename_i predicate hpredicate
    obtain ⟨⟨min, max?⟩, hbounds, h⟩ := bind_eq_ok_iff.mp h
    obtain ⟨cardinality, -, h⟩ := bind_eq_ok_iff.mp h
    have hresult : r.predicate = predicate ∧
        r.isNegative = (g.flag node (shex "negated") || max? = some 0) := by
      split at h
      all_goals
        obtain ⟨constraint?, -, h⟩ := bind_eq_ok_iff.mp h
        obtain rfl := Except.ok.inj h
        exact ⟨rfl, rfl⟩
    obtain ⟨rfl, hnegative⟩ := hresult
    exact ⟨hpredicate, by simp only [hnegative, forbids, bounds_eq_zero_iff hbounds]⟩

/-- A rule that is read belongs to its triple constraint. -/
lemma rule?_eq_some {node : String} {r : Rule} (h : g.tripleConstraint node = .ok r) :
    g.rule? node = some r := toOption_eq_some_iff.mpr h

lemma asked_flatMap {α : Type} (f : α → List String) (l : List α) :
    g.asked (l.flatMap f) = l.flatMap fun a => g.asked (f a) := by
  simp only [asked, List.filter_flatMap, List.filterMap_flatMap]

lemma forbidden_flatMap {α : Type} (f : α → List String) (l : List α) :
    g.forbidden (l.flatMap f) = l.flatMap fun a => g.forbidden (f a) := by
  simp only [forbidden, List.filter_flatMap, List.filterMap_flatMap, List.map_flatMap]

/-- A triple constraint contributes its rule. -/
lemma collect_constraint {node : String} {r : Rule} (h : g.tripleConstraint node = .ok r) :
    g.collect (.constraint node) = Parts.ofRule r := by
  have hnegative := (of_tripleConstraint h).2
  have hrule := rule?_eq_some h
  rw [Parts.ofRule, hnegative]
  cases hforbids : g.forbids node with
  | true =>
      simp [collect, asked, forbidden, direct, leaves, choices, hforbids, hrule]
  | false =>
      simp [collect, asked, forbidden, direct, leaves, choices, hforbids, hrule]

/-- A conjunction contributes what its members do. -/
lemma collect_all (members : List TripleExpression) :
    g.collect (.all members) = Parts.all (members.map g.collect) := by
  simp only [collect, Parts.all, direct, leaves, choices, asked_flatMap, forbidden_flatMap,
    List.map_flatMap, List.flatMap_map]

/-- A disjunction contributes what its members forbid, their alternatives and one of its own. -/
lemma collect_any (members : List TripleExpression) :
    g.collect (.any members) = Parts.any (members.map g.collect) := by
  simp only [collect, Parts.any, direct, leaves, choices, forbidden_flatMap, List.map_flatMap,
    List.flatMap_map, List.map_append, List.map_cons, List.map_nil, List.map_map,
    Function.comp_def, asked, List.filter_nil, List.filterMap_nil]

/-! ### Reading an expression -/

/-- Every triple constraint of a tree is read. -/
def Reads (g : Graph) (t : TripleExpression) : Prop :=
  ∀ node ∈ t.leaves, ∃ r, g.tripleConstraint node = .ok r

lemma reads_constraint {node : String} :
    g.Reads (.constraint node) ↔ ∃ r, g.tripleConstraint node = .ok r := by
  simp only [Reads, leaves, List.mem_singleton, forall_eq]

/-- The triple constraints of a group are read if those of its members are. -/
lemma reads_iff_members {t : TripleExpression} {members : List TripleExpression}
    (h : t.leaves = members.flatMap leaves) : g.Reads t ↔ ∀ m ∈ members, g.Reads m := by
  simp only [Reads, h, List.mem_flatMap]
  exact ⟨fun h m hm node hnode => h node ⟨m, hm, hnode⟩,
    fun h node ⟨m, hm, hnode⟩ => h m hm node hnode⟩

lemma reads_all {members : List TripleExpression} :
    g.Reads (.all members) ↔ ∀ m ∈ members, g.Reads m :=
  reads_iff_members (by rw [leaves])

lemma reads_any {members : List TripleExpression} :
    g.Reads (.any members) ↔ ∀ m ∈ members, g.Reads m :=
  reads_iff_members (by rw [leaves])

/-- An expression that is read below others is at none of them, and it is read by its kind. -/
lemma partsOf_eq_ok_cases {path : List String} {expr : Term} {parts : Parts} :
    g.partsOf path expr = .ok parts ↔ ∃ node, expr.nodeName? = some node ∧ node ∉ path ∧
      ((g.kind? node = some .constraint ∧
          ∃ r, g.tripleConstraint node = .ok r ∧ Parts.ofRule r = parts) ∨
        (g.kind? node = some .all ∧ ∃ exprs, g.elementsAt node (shex "expressions") = .ok exprs ∧
          ∃ members, List.Forall₂ (fun e p => g.partsOf (node :: path) e = .ok p) exprs members ∧
            Parts.all members = parts) ∨
        (g.kind? node = some .any ∧ ∃ exprs, g.elementsAt node (shex "expressions") = .ok exprs ∧
          ∃ members, List.Forall₂ (fun e p => g.partsOf (node :: path) e = .ok p) exprs members ∧
            Parts.any members = parts)) := by
  rw [partsOf]
  cases hnode : expr.nodeName? with
  | none => simp
  | some node =>
      by_cases hpath : node ∈ path
      · simp [hpath]
      simp only [hpath, kind?, Option.some.injEq, exists_eq_left', not_false_eq_true, true_and,
        dite_false]
      split_ifs <;> simp [map_eq_ok_iff, bind_eq_ok_iff, mapM_eq_ok_iff]

/-- Members that are read have trees if each of them does. -/
lemma exists_members {path : List String} {exprs : List Term} {parts : List Parts}
    (hparts : List.Forall₂ (fun e p => g.partsOf path e = .ok p) exprs parts)
    (htree : ∀ e p, g.partsOf path e = .ok p → ∃ t, (g.Unfolds e t ∧ g.Reads t) ∧ g.collect t = p) :
    ∃ members, List.Forall₂ (Unfolds g) exprs members ∧ (∀ m ∈ members, g.Reads m) ∧
      members.map g.collect = parts := by
  obtain ⟨members, hmembers, hcollect⟩ := exists_forall₂_map hparts fun e _ p hp => htree e p hp
  refine ⟨members, hmembers.imp fun _ _ h => h.1, fun m hm => ?_, hcollect⟩
  obtain ⟨_, -, -, hreads⟩ := exists_of_forall₂_right hmembers hm
  exact hreads

/-- An expression that is read has a tree whose triple constraints are read, and its parts are those
of the tree. The descent ends as no node comes below itself. -/
lemma exists_unfolds {path : List String} {expr : Term} {parts : Parts}
    (h : g.partsOf path expr = .ok parts) :
    ∃ t, (g.Unfolds expr t ∧ g.Reads t) ∧ g.collect t = parts := by
  obtain ⟨node, hnode, hpath, hcase⟩ := partsOf_eq_ok_cases.mp h
  rcases hcase with ⟨hkind, r, hr, rfl⟩ | ⟨hkind, exprs, hexprs, ps, hps, rfl⟩ |
    ⟨hkind, exprs, hexprs, ps, hps, rfl⟩
  · exact ⟨.constraint node, ⟨.constraint hnode hkind, reads_constraint.mpr ⟨r, hr⟩⟩,
      collect_constraint hr⟩
  · have hless := g.unvisited_cons_lt (exists_triple_of_kind? hkind) hpath
    obtain ⟨members, hmembers, hreads, rfl⟩ := exists_members hps fun e p hp => exists_unfolds hp
    exact ⟨.all members, ⟨.all hnode hkind hexprs hmembers, reads_all.mpr hreads⟩,
      collect_all members⟩
  · have hless := g.unvisited_cons_lt (exists_triple_of_kind? hkind) hpath
    obtain ⟨members, hmembers, hreads, rfl⟩ := exists_members hps fun e p hp => exists_unfolds hp
    exact ⟨.any members, ⟨.any hnode hkind hexprs hmembers, reads_any.mpr hreads⟩,
      collect_any members⟩
termination_by g.unvisited rdfType path

/-- A tree is smaller than those of the expressions that it stands below. -/
def Below (g : Graph) (path : List String) (t : TripleExpression) : Prop :=
  ∀ n ∈ path, ∀ e' t', e'.nodeName? = some n → g.Unfolds e' t' → sizeOf t < sizeOf t'

/-- No expression stands below itself. -/
lemma Below.notMem {path : List String} {t : TripleExpression} {expr : Term} {node : String}
    (hbelow : g.Below path t) (hnode : expr.nodeName? = some node) (h : g.Unfolds expr t) :
    node ∉ path := fun hn => Nat.lt_irrefl _ (hbelow node hn expr t hnode h)

/-- The members of an expression stand below it and whatever it stands below. -/
lemma Below.cons {path : List String} {t m : TripleExpression} {expr : Term} {node : String}
    (hbelow : g.Below path t) (hnode : expr.nodeName? = some node) (h : g.Unfolds expr t)
    (hm : sizeOf m < sizeOf t) : g.Below (node :: path) m := by
  intro n hn e' t' hn' h'
  rcases List.mem_cons.mp hn with rfl | hn
  · rwa [← h.unique h' (hnode.trans hn'.symm)]
  · exact Nat.lt_trans hm (hbelow n hn e' t' hn' h')

/-- The members of an expression are read if each of them would be. -/
lemma forall₂_partsOf {path : List String} {exprs : List Term} {members : List TripleExpression}
    (hmembers : List.Forall₂ (Unfolds g) exprs members)
    (hread : ∀ m ∈ members, ∀ e, g.Unfolds e m → g.partsOf path e = .ok (g.collect m)) :
    List.Forall₂ (fun e p => g.partsOf path e = .ok p) exprs (members.map g.collect) := by
  rw [List.forall₂_map_right_iff]
  induction hmembers with
  | nil => exact .nil
  | cons h _ ih =>
      exact .cons (hread _ List.mem_cons_self _ h)
        (ih fun m hm => hread m (List.mem_cons_of_mem _ hm))

/-- An expression with a tree whose triple constraints are read is read below larger ones. -/
lemma Unfolds.partsOf {t : TripleExpression} {path : List String} {expr : Term}
    (h : g.Unfolds expr t) (hreads : g.Reads t) (hbelow : g.Below path t) :
    g.partsOf path expr = .ok (g.collect t) := by
  induction t using ind generalizing path expr with
  | constraint node =>
      cases h with
      | constraint hnode hkind =>
          obtain ⟨r, hr⟩ := reads_constraint.mp hreads
          exact partsOf_eq_ok_cases.mpr ⟨node, hnode, hbelow.notMem hnode (.constraint hnode hkind),
            .inl ⟨hkind, r, hr, (collect_constraint hr).symm⟩⟩
  | all members ih =>
      cases h with
      | @all _ node _ _ hnode hkind hexprs hmembers =>
          have h : g.Unfolds expr (.all members) := .all hnode hkind hexprs hmembers
          -- The members go below this node, which has a larger tree than any of them.
          have hparts := forall₂_partsOf hmembers fun m hm e he =>
            ih m hm he (reads_all.mp hreads m hm) (hbelow.cons hnode h (sizeOf_lt_all hm))
          exact partsOf_eq_ok_cases.mpr ⟨node, hnode, hbelow.notMem hnode h,
            .inr (.inl ⟨hkind, _, hexprs, _, hparts, (collect_all members).symm⟩)⟩
  | any members ih =>
      cases h with
      | @any _ node _ _ hnode hkind hexprs hmembers =>
          have h : g.Unfolds expr (.any members) := .any hnode hkind hexprs hmembers
          have hparts := forall₂_partsOf hmembers fun m hm e he =>
            ih m hm he (reads_any.mp hreads m hm) (hbelow.cons hnode h (sizeOf_lt_any hm))
          exact partsOf_eq_ok_cases.mpr ⟨node, hnode, hbelow.notMem hnode h,
            .inr (.inr ⟨hkind, _, hexprs, _, hparts, (collect_any members).symm⟩)⟩

/-- An expression is read exactly if it has a tree whose triple constraints are read; its parts are
those of the tree. -/
theorem partsOf_eq_ok_iff {expr : Term} {parts : Parts} :
    g.partsOf [] expr = .ok parts ↔
      ∃ t, (g.Unfolds expr t ∧ g.Reads t) ∧ g.collect t = parts := by
  constructor
  · exact exists_unfolds
  · rintro ⟨t, ⟨h, hreads⟩, rfl⟩
    exact h.partsOf hreads fun n hn => absurd hn List.not_mem_nil

/-! ### Reading a shape -/

/-- The tree of the expression of a node; a node without expression has the empty conjunction. -/
def UnfoldsAt (g : Graph) (node : String) (t : TripleExpression) : Prop :=
  match g.object? node (shex "expression") with
  | some expr => g.Unfolds expr t
  | none => t = .all []

lemma unfoldsAt_of_some {node : String} {expr : Term} {t : TripleExpression}
    (h : g.object? node (shex "expression") = some expr) :
    g.UnfoldsAt node t ↔ g.Unfolds expr t := by
  rw [UnfoldsAt, h]

lemma unfoldsAt_of_none {node : String} {t : TripleExpression}
    (h : g.object? node (shex "expression") = none) : g.UnfoldsAt node t ↔ t = .all [] := by
  rw [UnfoldsAt, h]

lemma UnfoldsAt.unique {node : String} {t t' : TripleExpression} (h : g.UnfoldsAt node t)
    (h' : g.UnfoldsAt node t') : t = t' := by
  cases hexpr : g.object? node (shex "expression") with
  | some expr =>
      exact ((unfoldsAt_of_some hexpr).mp h).unique ((unfoldsAt_of_some hexpr).mp h') rfl
  | none => rw [(unfoldsAt_of_none hexpr).mp h, (unfoldsAt_of_none hexpr).mp h']

/-- What a node with the given tree is declared to be, under a name. -/
def declarationsAt (g : Graph) (node name : String) (t : TripleExpression) : Declarations where
  name := name
  closed := g.flag node (shex "closed")
  positive := (g.collect t).positive
  negative := (g.collect t).negative
  oneOf := (g.collect t).oneOf

/-- A shape is read exactly if its node has a tree whose triple constraints are read, and no
predicate is both asked for and forbidden. -/
theorem shapeAt_eq_ok_iff {node name : String} {s : Shape} :
    g.shapeAt node name = .ok s ↔
      ∃ t, (g.UnfoldsAt node t ∧ g.Reads t) ∧ Shape.new (g.declarationsAt node name t) = .ok s := by
  cases hexpr : g.object? node (shex "expression") with
  | some expr =>
      simp only [shapeAt, hexpr, unfoldsAt_of_some hexpr, bind_eq_ok_iff, partsOf_eq_ok_iff]
      constructor
      · rintro ⟨_, ⟨t, ht, rfl⟩, hs⟩
        exact ⟨t, ht, hs⟩
      · rintro ⟨t, ht, hs⟩
        exact ⟨_, ⟨t, ht, rfl⟩, hs⟩
  | none =>
      have hcollect : g.collect (.all []) = ⟨[], [], []⟩ := collect_all []
      simp only [shapeAt, hexpr, unfoldsAt_of_none hexpr, bind_eq_ok_iff]
      constructor
      · rintro ⟨_, ⟨⟩, hs⟩
        exact ⟨_, ⟨rfl, reads_all.mpr (by simp)⟩, by rwa [declarationsAt, hcollect]⟩
      · rintro ⟨_, ⟨rfl, -⟩, hs⟩
        exact ⟨_, rfl, by rwa [declarationsAt, hcollect] at hs⟩

/-! ### Reading a description -/

lemma nodup_nodesOfType (c : String) : (g.nodesOfType c).Nodup :=
  (nodup_distinct _).filter _

/-- The name that a description gives to the shape at a node. -/
def nameOf (g : Graph) (node : String) : String :=
  (declaredName? g.declarations node).getD node

lemma mem_declarations {d node : String} :
    (d, node) ∈ g.declarations ↔
      g.hasType d (shex "ShapeDecl") = true ∧ g.declaredNode? d = some node := by
  simp only [declarations, List.mem_filterMap, mem_nodesOfType, Option.map_eq_some_iff]
  constructor
  · rintro ⟨_, hd, _, hnode, he⟩
    obtain ⟨rfl, rfl⟩ := Prod.mk.inj he
    exact ⟨hd, hnode⟩
  · rintro ⟨hd, hnode⟩
    exact ⟨d, hd, node, hnode, rfl⟩

/-- The declarations that wrap a node. -/
lemma mem_wrapping_iff {d node : String} :
    d ∈ (g.declarations.filter fun x => x.2 = node).map Prod.fst ↔ (d, node) ∈ g.declarations := by
  simp only [List.mem_map, List.mem_filter, decide_eq_true_eq]
  constructor
  · rintro ⟨_, ⟨hmem, rfl⟩, rfl⟩
    exact hmem
  · exact fun hmem => ⟨_, ⟨hmem, rfl⟩, rfl⟩

/-- A description is read if each of its shapes is, under its name. -/
lemma shapes_eq_ok_iff {shapes : List Shape} :
    g.shapes = .ok shapes ↔
      List.Forall₂ (fun node s => g.shapeAt node (g.nameOf node) = .ok s)
        (g.nodesOfType (shex "Shape")) shapes := mapM_eq_ok_iff

end Graph

end StarShapes
