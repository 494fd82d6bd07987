import StarShapes.Proofs.Binding.Delivery
import StarShapes.Proofs.Containment.Classification

/-!
Links: which named nodes are left to look up directly.

* `Solution.Holds`, `Solution.AccountsFor`: the bindings that are reported, and the triples that one
  of them binds, in its own star or elsewhere.
* `Solution.pending`: the named nodes at the objects of the triples of a star that are not accounted
  for.
* `links_exact`: the links are the pending nodes, star by star, and a star without alternatives has
  none if it is contained.
* `links_of_open`: with an open shape, links come from alternatives of stars that have triples
  already.
-/

namespace StarShapes

namespace Solution

variable {x : Solution} {triple : Triple}

/-- Bindings of some star against some shape are reported. -/
inductive Holds (x : Solution) : Bindings → Prop
  | entry {n s : String} {c : Containment} {b : Bindings} (hc : (n, c) ∈ x.containments)
      (hb : (s, b) ∈ c.bindings.toList) : Holds x b

/-- Some reported bindings bind a triple, in their own star or in one that they bind in full through
a ray. -/
def AccountsFor (x : Solution) (triple : Triple) : Prop :=
  ∃ b, x.Holds b ∧ (triple ∈ b.bound ∨ triple ∈ b.nestedBound)

/-- The triples accounted for are those that count as consumed. -/
lemma mem_consumed_iff : triple ∈ Problem.consumed x.containments ↔ x.AccountsFor triple := by
  simp only [Problem.consumed, List.mem_flatMap, List.mem_append]
  constructor
  · rintro ⟨_, ⟨⟨n, c⟩, hc, hb⟩, htriple⟩
    obtain ⟨⟨s, b⟩, hmem, rfl⟩ := List.mem_map.mp hb
    exact ⟨b, .entry hc hmem, htriple⟩
  · rintro ⟨b, ⟨hc, hb⟩, htriple⟩
    exact ⟨b, ⟨_, hc, List.mem_map_of_mem hb⟩, htriple⟩

instance (x : Solution) (triple : Triple) : Decidable (x.AccountsFor triple) :=
  decidable_of_iff _ mem_consumed_iff

/-- The named nodes at the objects of the triples of a star that are not accounted for. -/
def pending (x : Solution) (q : Query) (n : String) : List String :=
  ((q.triplesOf n).filter fun triple => ¬ x.AccountsFor triple).filterMap fun triple =>
    triple.object.iri?

lemma mem_pending_iff {q : Query} {n iri : String} : iri ∈ x.pending q n ↔
    ∃ triple ∈ q.triplesOf n, triple.object = .named iri ∧ ¬ x.AccountsFor triple := by
  have hnamed : ∀ t : Term, t.iri? = some iri ↔ t = .named iri := fun t => by
    cases t <;> simp [Term.iri?]
  simp only [pending, List.mem_filterMap, List.mem_filter, decide_eq_true_eq, hnamed, and_assoc]
  exact exists_congr fun triple => and_congr_right fun _ => and_comm

end Solution

namespace Problem

variable {p : Problem} {n : String} {b : Bindings} {triple : Triple}

/-! ### The bindings that are reported -/

/-- The bindings reported are those of the table. -/
lemma holds_solve_iff : p.solve.Holds b ↔ ∃ n row, (n, row) ∈ p.table ∧ b ∈ row := by
  constructor
  · rintro ⟨hc, hb⟩
    obtain ⟨row, hmem, rfl⟩ := mem_containments.mp hc
    exact ⟨_, row, hmem, ((mem_toList_reported hmem).mp hb).1⟩
  · rintro ⟨n, row, hmem, hb⟩
    exact .entry (mem_containments.mpr ⟨row, hmem, rfl⟩) ((mem_toList_reported hmem).mpr ⟨hb, rfl⟩)

/-- What is reported can be found for a task. -/
lemma exists_task_of_holds (h : p.solve.Holds b) :
    ∃ t ∈ p.tasks, p.scene.Finds p.tasks ∅ t b := by
  obtain ⟨n, row, hmem, hb⟩ := holds_solve_iff.mp h
  obtain ⟨t, ht, -, hfinds⟩ := p.tabulates.found n row b hmem hb
  exact ⟨t, ht, hfinds⟩

/-- For every task something that can be found is reported. -/
lemma exists_holds_of_task {t : Task} (ht : t ∈ p.tasks) :
    ∃ b, p.solve.Holds b ∧ p.scene.Finds p.tasks ∅ t b := by
  obtain ⟨row, b, hmem, hb, hfinds⟩ := p.tabulates.complete t ht
  exact ⟨b, holds_solve_iff.mpr ⟨t.star, row, hmem, hb⟩, hfinds⟩

/-- A star without alternatives that is contained, possibly in part, is accounted for. -/
lemma accountsFor_of_contained {c : Containment} (hc : (n, c) ∈ p.solve.containments)
    (halternatives : p.query.alternatives n = [])
    (hcontained : c.verdict.result = .contained ∨ c.verdict.result = .partlyContained)
    (htriple : triple ∈ p.query.triplesOf n) : p.solve.AccountsFor triple := by
  obtain ⟨row, hmem, rfl⟩ := mem_containments.mp hc
  obtain ⟨s, hs⟩ := List.exists_mem_of_ne_nil _ (full_ne_nil_of_contained hmem hcontained)
  obtain ⟨b, hb, hfull, -⟩ := Verdict.mem_shapesOf.mp hs
  obtain ⟨t, -, rfl, hfinds⟩ := p.tabulates.found n row b hmem hb
  exact ⟨b, holds_solve_iff.mpr ⟨t.star, row, hmem, hb⟩,
    Or.inl (hfinds.bound_of_full hfull halternatives htriple)⟩

/-! ### Links -/

/-- The links are the nodes that are pending, star by star. -/
lemma links_eq (hp : p.shapes ≠ []) : p.solve.links = p.query.names.flatMap fun n =>
    (distinct (p.solve.pending p.query n)).map fun iri => ⟨iri, n⟩ := by
  have hlinks : p.solve.links = conditionalLinks p.query (consumed p.solve.containments) :=
    if_neg (by simpa using hp)
  have hfilter : ∀ triples : List Triple,
      triples.filter (fun triple => !(consumed p.solve.containments).contains triple) =
        triples.filter fun triple => ¬ p.solve.AccountsFor triple := fun triples =>
    List.filter_congr fun triple _ => by simp [← Solution.mem_consumed_iff]
  have hstar : ∀ n, ((p.query.triplesOf n).filter fun triple =>
      !(consumed p.solve.containments).contains triple).filterMap (fun triple =>
        triple.object.iri?.map fun iri => (⟨iri, n⟩ : ConditionalLink)) =
          (p.solve.pending p.query n).map fun iri => ⟨iri, n⟩ := fun n => by
    rw [hfilter, Solution.pending, List.map_filterMap]
  have hapart : p.query.names.Pairwise fun n k =>
      ((p.solve.pending p.query n).map fun iri => (⟨iri, n⟩ : ConditionalLink)).Disjoint
        ((p.solve.pending p.query k).map fun iri => ⟨iri, k⟩) := by
    refine p.query.nodup_names.imp fun {n k} hne link hn hk => ?_
    obtain ⟨_, -, rfl⟩ := List.mem_map.mp hn
    obtain ⟨_, -, he⟩ := List.mem_map.mp hk
    exact hne (congrArg ConditionalLink.star he).symm
  have hinj : ∀ n, Function.Injective fun iri : String => (⟨iri, n⟩ : ConditionalLink) :=
    fun n iri iri' he => congrArg ConditionalLink.iri he
  rw [hlinks, conditionalLinks, Query.triplesBySubject, List.flatMap_map]
  simp only [hstar]
  rw [distinct_flatMap hapart]
  exact List.flatMap_congr fun n _ => (map_distinct (hinj n).injOn).symm

/-- A link is a pending node of its star. -/
lemma mem_links_iff (hp : p.shapes ≠ []) {iri : String} : ⟨iri, n⟩ ∈ p.solve.links ↔
    ∃ triple ∈ p.query.triplesOf n, triple.object = .named iri ∧ ¬ p.solve.AccountsFor triple := by
  rw [links_eq hp, List.mem_flatMap, ← Solution.mem_pending_iff]
  constructor
  · rintro ⟨k, -, hlink⟩
    obtain ⟨_, hiri, he⟩ := List.mem_map.mp hlink
    obtain ⟨rfl, rfl⟩ := ConditionalLink.mk.inj he
    exact mem_distinct.mp hiri
  · intro hiri
    obtain ⟨triple, htriple, -⟩ := Solution.mem_pending_iff.mp hiri
    exact ⟨n, Query.mem_names_of_mem_triplesOf htriple,
      List.mem_map_of_mem (mem_distinct.mpr hiri)⟩

/-- **Links are complete and free of repetition.** With at least one shape, the links of a star are
the named nodes at the objects of those of its triples, in its main pattern or an alternative, that
no reported bindings account for. Each comes once, in the order of the stars and then of their
triples. A star without alternatives has none if it is contained, possibly in part. -/
theorem links_exact (p : Problem) (hp : p.shapes ≠ []) :
    (∀ iri n, ⟨iri, n⟩ ∈ p.solve.links ↔
      ∃ s, (p.query.main? n = some s ∨ s ∈ p.query.alternatives n) ∧
        ∃ triple ∈ s.triples, triple.object = .named iri ∧ ¬ p.solve.AccountsFor triple) ∧
      p.solve.links.Nodup ∧
      p.solve.links = p.query.names.flatMap (fun n =>
        (distinct (p.solve.pending p.query n)).map fun iri => ⟨iri, n⟩) ∧
      ∀ n c, (n, c) ∈ p.solve.containments → p.query.alternatives n = [] →
        (c.verdict.result = .contained ∨ c.verdict.result = .partlyContained) →
          ∀ iri, ⟨iri, n⟩ ∉ p.solve.links := by
  refine ⟨fun iri n => ?_, ?_, links_eq hp, fun n c hc halternatives hcontained iri hlink => ?_⟩
  · rw [mem_links_iff hp]
    constructor
    · rintro ⟨triple, htriple, hnamed, hopen⟩
      obtain ⟨s, hs, htriple⟩ := Query.mem_triplesOf_iff.mp htriple
      exact ⟨s, hs, triple, htriple, hnamed, hopen⟩
    · rintro ⟨s, hs, triple, htriple, hnamed, hopen⟩
      exact ⟨triple, Query.mem_triplesOf_iff.mpr ⟨s, hs, htriple⟩, hnamed, hopen⟩
  · rw [solve]
    dsimp only
    split
    · exact List.nodup_nil
    · exact nodup_distinct _
  · obtain ⟨triple, htriple, -, hopen⟩ := (mem_links_iff hp).mp hlink
    exact hopen (accountsFor_of_contained hc halternatives hcontained htriple)

/-- A star that fits a shape in part, with an alternative that does not fit at all, and one that
fits as a whole. -/
def partlyFit : Problem where
  query := (Query.ofStars [.ofPairs "b" [("p", .var "x"), ("q", .named "i")],
    .ofPairs "c" [("p", .named "k")]]).withUnion [[.ofPairs "b" [("r", .named "j")]]]
  shapes := [.asking "S" [("p", none)]]
  dependent := []
  deciding? := none

/-- The nodes of the first star are left, that of its alternative included; that of the second is
not. -/
theorem partlyFit_links : partlyFit.shapes ≠ [] ∧
    partlyFit.solve.links = [⟨"i", "b"⟩, ⟨"j", "b"⟩] ∧
      ∀ iri, ⟨iri, "c"⟩ ∉ partlyFit.solve.links := by
  have hp : partlyFit.shapes ≠ [] := by simp [partlyFit]
  obtain ⟨-, -, hlinks, hcontained⟩ := links_exact partlyFit hp
  have hc : ∃ y ∈ partlyFit.solve.containments, y.1 = "c" ∧ y.2.verdict.result = .contained := by
    decide +kernel
  obtain ⟨⟨_, c⟩, hmem, rfl, hresult⟩ := hc
  refine ⟨hp, ?_, hcontained _ c hmem (by decide +kernel) (Or.inl hresult)⟩
  rw [hlinks]
  decide +kernel

/-! ### Open shapes -/

/-- With an open shape, the triples of the first star of a name that has any are accounted for. -/
lemma accountsFor_of_open {s : Shape} (hs : s ∈ p.shapes) (hopen : s.closed = false)
    (hname : ∀ s' ∈ p.shapes, s'.name = s.name → s' = s) {first : Star}
    (hfirst : p.query.first? n = some first) (htriple : triple ∈ first.triples) :
    p.solve.AccountsFor triple := by
  obtain ⟨own, hmem, hown⟩ := own?_of_mem hs
  obtain rfl : own = s := hname own hmem (mem_of_own? hown).2
  obtain ⟨c, hc, hrays⟩ := Query.exists_candidate_of_first? hfirst
  have hn : n ∈ p.query.names :=
    Query.candidates_ne_nil_iff.mp (List.ne_nil_of_mem (List.mem_of_find?_eq_some hc))
  obtain ⟨b, hb, hfinds⟩ := exists_holds_of_task (p := p) (t := ⟨own, n⟩) ⟨hmem, hown, hn⟩
  refine ⟨b, hb, Or.inl ?_⟩
  rw [(hfinds.bound_perm_of_open hopen hc).mem_iff, hrays]
  exact htriple

/-- **Links past an open shape.** With an open shape, whose name is no other's, a link comes from a
triple of an alternative that is not a triple of the first star of its name that has any. Without
UNION there are none. -/
theorem links_of_open {s : Shape} (hs : s ∈ p.shapes) (hopen : s.closed = false)
    (hname : ∀ s' ∈ p.shapes, s'.name = s.name → s' = s) :
    (∀ link ∈ p.solve.links, ∃ first, p.query.first? link.star = some first ∧
      ∃ a ∈ p.query.alternatives link.star, ∃ triple ∈ a.triples,
        triple.object = .named link.iri ∧ triple ∉ first.triples) ∧
      (p.query.unions = [] → p.solve.links = []) := by
  have halternative : ∀ link ∈ p.solve.links, ∃ first, p.query.first? link.star = some first ∧
      ∃ a ∈ p.query.alternatives link.star, ∃ triple ∈ a.triples,
        triple.object = .named link.iri ∧ triple ∉ first.triples := by
    intro link hlink
    obtain ⟨triple, htriple, hnamed, hleft⟩ := (mem_links_iff (List.ne_nil_of_mem hs)).mp hlink
    obtain ⟨first, hfirst, hwhere⟩ := Query.exists_first?_of_mem_triplesOf htriple
    have hnot : triple ∉ first.triples := fun hmem =>
      hleft (accountsFor_of_open hs hopen hname hfirst hmem)
    obtain ⟨a, ha, htriple⟩ := hwhere.resolve_left hnot
    exact ⟨first, hfirst, a, ha, triple, htriple, hnamed, hnot⟩
  refine ⟨halternative, fun hq => List.eq_nil_iff_forall_not_mem.mpr fun link hlink => ?_⟩
  obtain ⟨-, -, a, ha, -⟩ := halternative link hlink
  rw [Query.alternatives_eq_nil hq] at ha
  cases ha

/-- A star with another triple in an alternative, against an open shape. -/
def openToAll : Problem where
  query := (Query.ofStars [.ofPairs "b" [("p", .var "x")]]).withUnion
    [[.ofPairs "b" [("q", .named "i")]]]
  shapes := [.free "S"]
  dependent := []
  deciding? := none

/-- The star is bound without its alternative, whose node is left. -/
theorem openToAll_links : (∃ s ∈ openToAll.shapes, s.closed = false ∧
      ∀ s' ∈ openToAll.shapes, s'.name = s.name → s' = s) ∧
    openToAll.solve.links = [⟨"i", "b"⟩] := by
  refine ⟨⟨.free "S", by simp [openToAll], rfl, by simp [openToAll]⟩, ?_⟩
  decide +kernel

/-- The node that is left is that of a triple of the alternative. -/
theorem openToAll_alternative : (∃ s ∈ openToAll.shapes, s.closed = false ∧
      ∀ s' ∈ openToAll.shapes, s'.name = s.name → s' = s) ∧
    ∃ a ∈ openToAll.query.alternatives "b", ∃ triple ∈ a.triples, triple.object = .named "i" := by
  have hs : Shape.free "S" ∈ openToAll.shapes := by simp [openToAll]
  have hname : ∀ s' ∈ openToAll.shapes, s'.name = "S" → s' = .free "S" := by simp [openToAll]
  have hlink : (⟨"i", "b"⟩ : ConditionalLink) ∈ openToAll.solve.links := by decide +kernel
  obtain ⟨-, -, a, ha, triple, htriple, hnamed, -⟩ :=
    (links_of_open hs rfl hname).1 ⟨"i", "b"⟩ hlink
  exact ⟨⟨_, hs, rfl, hname⟩, a, ha, triple, htriple, hnamed⟩

end Problem

end StarShapes
