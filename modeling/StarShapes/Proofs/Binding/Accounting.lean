import StarShapes.Proofs.Binding.Calls
import StarShapes.Proofs.Collection.Distinct

/-!
Accounting: what becomes of the triples of a star that is matched against a shape.

* `Shape.declared`: the predicates that a shape has rules for, each once
  (`Shape.nodup_declared`).
* `Bindings.Accounts`: bindings have a slot for every declared predicate and, for an open shape, one
  for every other of the star. Each triple of the star is bound in its slot or refused.
* `accounts_tally`: the tally of a star does so, whatever was found at the other ends of its rays.
* `accounts_bindAll`: so does the answer to every call, for a candidate of the star that was asked
  for.
-/

namespace StarShapes

/-! ### The predicates of a shape -/

namespace Shape

variable {shape : Shape} {p : String}

/-- The predicates that a shape has rules for, those asked for first. -/
def declared (shape : Shape) : List String := shape.rules.map Rule.predicate

lemma declared_eq (shape : Shape) :
    shape.declared = shape.positive.keys ++ shape.negative.keys := List.map_append

lemma nodup_declared (shape : Shape) : shape.declared.Nodup := by
  rw [declared_eq, List.nodup_append]
  refine ⟨shape.positive.nodup_keys, shape.negative.nodup_keys, ?_⟩
  rintro p hp q hq rfl
  exact shape.disjoint p hp hq

lemma get?_eq_none_iff : shape.get? p = none ↔ p ∉ shape.declared := by
  rw [get?, Option.or_eq_none_iff, Keyed.get?_eq_none_iff, Keyed.get?_eq_none_iff, declared_eq,
    List.mem_append, not_or]

/-- A predicate that is forbidden has a rule. -/
lemma mem_declared_of_isNegative (h : shape.isNegative p = true) : p ∈ shape.declared := by
  rw [declared_eq]
  exact List.mem_append_right _ (isNegative_iff.mp h)

/-- A closed shape refuses what it forbids. -/
lemma demand_of_isNegative {ray : Ray} (h : shape.isNegative ray.predicate = true) :
    shape.demand ray = .settled false := by
  obtain ⟨rule, hrule, hnegative⟩ := (Option.any_eq_true _ _).mp h
  rw [demand, hrule]
  exact if_pos hnegative

end Shape

/-! ### Bindings that account for a star -/

/-- The bindings account for every triple of a star against a shape. -/
structure Bindings.Accounts (b : Bindings) (shape : Shape) (star : Star) : Prop where
  /-- The triples bound and those refused are the triples of the star. -/
  perm : (b.bound ++ b.unbound).Perm star.triples
  /-- None of them occurs twice. -/
  nodup : (b.bound ++ b.unbound).Nodup
  /-- Those refused stand in the order of the star. -/
  sublist : b.unbound.Sublist star.triples
  /-- There is a slot for every predicate with a rule, in the order of the rules, and if the shape
  is open, then one for every other predicate of the star. -/
  keys : b.slots.keys = shape.declared ++
    if shape.closed then [] else star.rays.keys.filter (· ∉ shape.declared)
  /-- What is bound to a predicate is the triple of the star for it. -/
  bound : ∀ p t, b.slots.find? p = some (some t) → (star.get? p).map Ray.triple = some t
  /-- A closed shape binds nothing to what it forbids. -/
  negative : shape.closed = true → ∀ p, shape.isNegative p = true → b.slots.find? p = some none
  /-- The star is bound in full if it has triples and none is refused. -/
  full : b.full = true ↔ b.unbound = [] ∧ star.triples ≠ []

namespace Scene

variable {scene : Scene} {shape : Shape} {reply : Ray → Option Bindings} {star : Star}
  {roots A : Set Task} {t : Task} {b : Bindings}

/-- The triples of a star are told apart by their predicates. -/
lemma nodup_triples (star : Star) : star.triples.Nodup :=
  .of_map Triple.predicate (by rw [Star.triples, List.map_map]; exact star.rays.nodup)

/-- The triples bound and those refused are the triples of the star. -/
lemma bound_append_unbound_perm (star : Star) :
    ((scene.tally shape reply star).bound ++ (scene.tally shape reply star).unbound).Perm
      star.triples := by
  rw [unbound_tally]
  have hsplit := List.filter_append_perm (scene.binds shape reply) star.rays.toList
  have hmap := hsplit.map Ray.triple
  rw [List.map_append] at hmap
  exact ((bound_tally_perm star).append_right _).trans hmap

/-- A closed shape binds rays with a rule alone. -/
lemma mem_declared_of_binds (hc : shape.closed = true) {ray : Ray}
    (h : scene.binds shape reply ray = true) : ray.predicate ∈ shape.declared := by
  by_contra hp
  have hd : shape.demand ray = .settled false := by
    rw [Shape.demand, Shape.get?_eq_none_iff.mpr hp]
  rw [binds, hc, hd] at h
  cases h

lemma keys_slots_start (shape : Shape) (name : String) :
    (Bindings.start shape name).slots.keys = shape.declared := by
  have hkeys : (shape.rules.map fun r => (r.predicate, (none : Option Triple))).map Prod.fst =
      shape.declared := by
    rw [List.map_map]
    rfl
  rw [Keyed.keys, Bindings.start, Keyed.toList_ofList (hkeys ▸ shape.nodup_declared), hkeys]

/-- The slots of a tally are those of the rules and, if the shape is open, those of the other
predicates of the star. -/
lemma keys_slots_tally (star : Star) :
    (scene.tally shape reply star).slots.keys = shape.declared ++
      if shape.closed then [] else star.rays.keys.filter (· ∉ shape.declared) := by
  have hnodup : ((star.rays.toList.filter (scene.binds shape reply)).map Ray.predicate).Nodup :=
    star.rays.nodup.sublist (List.filter_sublist.map _)
  rw [slots_tally, Dict.keys_foldl_set Ray.predicate (fun r : Ray => some r.triple),
    pushAllNew_of_nodup _ hnodup, keys_slots_start]
  congr 1
  cases hc : shape.closed with
  | true =>
      refine List.filter_eq_nil_iff.mpr fun p hp => ?_
      obtain ⟨ray, hray, rfl⟩ := List.mem_map.mp hp
      simpa using mem_declared_of_binds hc (List.mem_filter.mp hray).2
  | false =>
      have hall : star.rays.toList.filter (scene.binds shape reply) = star.rays.toList :=
        List.filter_eq_self.mpr fun ray _ => binds_of_open hc ray
      rw [hall]
      rfl

/-- A slot is filled with the triple of the ray that is bound to it. -/
lemma find?_slots_tally_iff {p : String} {t : Triple} :
    (scene.tally shape reply star).slots.find? p = some (some t) ↔
      ∃ ray ∈ star.rays.toList, scene.binds shape reply ray = true ∧ ray.predicate = p ∧
        ray.triple = t := by
  have hfilled : ∀ {q : String} {u : Triple},
      (q, some u) ∈ (scene.tally shape reply star).slots.toList →
        ∃ ray ∈ star.rays.toList, scene.binds shape reply ray = true ∧ ray.predicate = q ∧
          ray.triple = u := by
    intro q u h
    rw [slots_tally] at h
    rcases Dict.mem_of_mem_foldl_set (f := Ray.predicate) (g := fun r : Ray => some r.triple) h with
      h | ⟨ray, hray, he⟩
    · exact absurd h (notMem_slots_start shape star.name q u)
    · obtain ⟨hmem, hbinds⟩ := List.mem_filter.mp hray
      obtain ⟨rfl, hu⟩ := Prod.mk.inj he
      exact ⟨ray, hmem, hbinds, rfl, (Option.some.inj hu).symm⟩
  rw [Dict.find?_eq_some_iff]
  refine ⟨hfilled, ?_⟩
  rintro ⟨ray, hray, hbinds, rfl, rfl⟩
  -- the triple is bound in some slot, which is that of its predicate
  have hbound : ray.triple ∈ (scene.tally shape reply star).bound :=
    (bound_tally_perm star).mem_iff.mpr
      (List.mem_map_of_mem (List.mem_filter.mpr ⟨hray, hbinds⟩))
  obtain ⟨t?, ht, rfl⟩ := List.mem_filterMap.mp hbound
  obtain ⟨⟨q, _⟩, hmem, rfl⟩ := List.mem_map.mp ht
  obtain ⟨ray', -, -, rfl, he⟩ := hfilled hmem
  have hpredicate : ray'.predicate = ray.predicate := congrArg Triple.predicate he
  exact hpredicate ▸ hmem

/-- The tally of a star accounts for it, whatever was found at the other ends of its rays. -/
lemma accounts_tally (star : Star) : (scene.tally shape reply star).Accounts shape star where
  perm := bound_append_unbound_perm star
  nodup := (bound_append_unbound_perm star).nodup_iff.mpr (nodup_triples star)
  sublist := by
    rw [unbound_tally]
    exact List.filter_sublist.map _
  keys := keys_slots_tally star
  bound := by
    intro p t h
    obtain ⟨ray, hray, -, rfl, rfl⟩ := find?_slots_tally_iff.mp h
    rw [Star.get?, Keyed.get?_eq_some_iff.mpr ⟨hray, rfl⟩]
    rfl
  negative := by
    intro hc p hp
    have hmem : p ∈ (scene.tally shape reply star).slots.keys := by
      rw [keys_slots_tally]
      exact List.mem_append_left _ (Shape.mem_declared_of_isNegative hp)
    obtain ⟨t?, ht⟩ := Dict.exists_find?_of_mem_keys hmem
    cases t? with
    | none => exact ht
    | some t =>
        -- the ray would have been bound against the prohibition
        obtain ⟨ray, -, hbinds, rfl, -⟩ := find?_slots_tally_iff.mp ht
        rw [binds, hc, Shape.demand_of_isNegative hp] at hbinds
        cases hbinds
  full := by
    have hrefused : (scene.tally shape reply star).unbound = [] ↔
        ∀ ray ∈ star.rays.toList, scene.binds shape reply ray = true := by
      rw [unbound_tally, List.map_eq_nil_iff, List.filter_eq_nil_iff]
      simp
    have hempty : star.triples ≠ [] ↔ star.rays.toList ≠ [] := not_congr List.map_eq_nil_iff
    rw [full_tally_iff, hrefused, hempty, and_comm]

/-- What is found for a task accounts for one of its candidates. -/
lemma Finds.exists_accounts (h : scene.Finds roots A t b) :
    ∃ c ∈ scene.query.candidates t.star, b.Accounts t.shape c := by
  obtain ⟨c, hc, reply, rfl⟩ := h.exists_tally
  exact ⟨c, hc, accounts_tally c⟩

/-- **Bindings account for every triple once**, whatever the memory was asked before: a call on a
star of the query is answered, and every answer accounts for a candidate of its star. Shapes are
told apart by their names. -/
theorem accounts_bindAll (scene : Scene) (calls : List Task)
    (hnames : Set.InjOn Shape.name {s | s ∈ scene.shapes.toList ∨ ∃ t ∈ calls, t.shape = s}) :
    List.Forall₂ (fun t b? => (t.star ∈ scene.query.names → ∃ b, b? = some b) ∧
      ∀ b, b? = some b → ∃ c ∈ scene.query.candidates t.star, b.Accounts t.shape c)
        calls (Memory.empty.bindAll scene calls).1 := by
  refine (finds_calls hnames).imp ?_
  intro t b? hanswer
  exact ⟨hanswer.2, fun b hb => (hanswer.1 b hb).exists_accounts⟩

/-- A star with two rays, and an alternative that replaces one of them and adds another, against an
open shape and a closed one. -/
def mixed : Scene where
  query := (Query.ofStars [.ofPairs "b" [("p", .var "x"), ("q", .var "y")]]).withUnion
    [[.ofPairs "b" [("q", .var "z"), ("r", .var "w")]]]
  shapes := .ofList [{ Shape.asking "O" [("q", none)] with closed := false },
    .asking "S" [("q", none), ("r", none), ("s", none)]]

/-- Calls on the star of the mixed scene, and one on a star that is not there. -/
def mixedCalls : List Task :=
  [⟨{ Shape.asking "O" [("q", none)] with closed := false }, "b"⟩,
    ⟨.asking "S" [("q", none), ("r", none), ("s", none)], "b"⟩,
    ⟨.asking "S" [("q", none), ("r", none), ("s", none)], "c"⟩]

/-- The closed shape is answered by bindings for the star with its alternative: they account for
its three triples, of which they refuse one, and leave a slot empty. -/
theorem mixed_accounts : ∃ b c, (Memory.empty.bindAll mixed mixedCalls).1[1]? = some (some b) ∧
    c ∈ mixed.query.candidates "b" ∧
    b.Accounts (.asking "S" [("q", none), ("r", none), ("s", none)]) c ∧
    b.bound.map Triple.object = [.var "z", .var "w"] ∧
    b.unbound.map Triple.object = [.var "x"] ∧ b.slots.find? "s" = some none := by
  have hcalls : ∀ t ∈ mixedCalls, t.shape ∈ mixed.shapes.toList := by decide +kernel
  have hanswers := accounts_bindAll mixed mixedCalls (injOn_of_loaded hcalls)
  have hreport : (Memory.empty.bindAll mixed mixedCalls).1[1]?.map (Option.map fun b =>
      (b.bound.map Triple.object, b.unbound.map Triple.object, b.slots.find? "s")) =
        some (some ([.var "z", .var "w"], [.var "x"], some none)) := by decide +kernel
  generalize (Memory.empty.bindAll mixed mixedCalls).1 = answers at hanswers hreport ⊢
  rcases hanswers with _ | ⟨-, _ | ⟨hclosed, -⟩⟩
  simp only [List.getElem?_cons_succ, List.getElem?_cons_zero, Option.map_some,
    Option.some.injEq, Option.map_eq_some_iff, Prod.mk.injEq] at hreport
  obtain ⟨b, rfl, hbound, hunbound, hslot⟩ := hreport
  obtain ⟨c, hc, haccounts⟩ := hclosed.2 b rfl
  exact ⟨b, c, rfl, hc, haccounts, hbound, hunbound, hslot⟩

end Scene

end StarShapes
