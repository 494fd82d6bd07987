import StarShapes.Proofs.Binding.Accounting

/-!
Reporting: what bindings say about other stars.

* `Bindings.Links`: a ray of one star is reported to be left to another.
* `Bindings.Genuine`: all that is reported is there. Dependencies are rays of candidates of the
  query that lead to loaded shapes, the shapes reported as missing are not loaded, both come from
  stars that links lead to, and what is listed as bound elsewhere is bound in a star that the report
  calls full.
* `Finds.genuine`: what is found for a task is genuine, on whatever was assumed.
* `genuine_bindAll`: so is every answer to a sequence of calls.
-/

namespace StarShapes

/-- A ray of one star is reported to be left to another. -/
def Bindings.Links (b : Bindings) (m n : String) : Prop :=
  ∃ d ∈ b.dependencies, d.origin = m ∧ d.nested = n

/-- What the bindings of a task report is there. -/
structure Bindings.Genuine (b : Bindings) (scene : Scene) (t : Task) : Prop where
  /-- The target of a dependency is loaded, and the star that it leads to is one of the query. -/
  loaded : ∀ d ∈ b.dependencies, d.target ∈ scene.shapes.keys ∧ d.nested ∈ scene.query.names
  /-- A dependency is a ray of a candidate of its star. -/
  ray : ∀ d ∈ b.dependencies, ∃ c ∈ scene.query.candidates d.origin,
    (c.get? d.predicate).bind Ray.link? = some d.nested
  /-- Links lead to the star of a dependency. -/
  reached : ∀ d ∈ b.dependencies, Relation.ReflTransGen b.Links t.star d.origin
  /-- A shape reported as missing is not loaded, and links lead to the star that asks for it. -/
  missing : ∀ x ∈ b.unresolved, scene.shapes.get? x.shape = none ∧
    Relation.ReflTransGen b.Links t.star x.star
  /-- A star is listed at a predicate that is bound, and it is reported to be full for the one shape
  that the rule for the predicate asks for. -/
  nested : ∀ p m, b.nested.find? p = some m → (∃ triple, b.slots.find? p = some (some triple)) ∧
    ∃ rule constraint target, t.shape.get? p = some rule ∧ rule.constraint? = some constraint ∧
      constraint.target? = some target ∧ ⟨t.star, p, m, target, true⟩ ∈ b.dependencies
  /-- A triple listed as bound elsewhere is one of a candidate of a star that is reported to be
  full. -/
  nestedBound : ∀ triple ∈ b.nestedBound, ∃ d ∈ b.dependencies, d.full = true ∧
    ∃ c ∈ scene.query.candidates d.nested, triple ∈ c.triples

namespace Scene

variable {scene : Scene} {shape : Shape} {reply : Ray → Option Bindings} {star : Star}
  {roots A : Set Task} {t u : Task} {b n : Bindings} {ray : Ray}

/-! ### What a ray adds to the report -/

/-- The dependency of a ray that was answered. -/
lemma dependency_mem_tally (hray : ray ∈ star.rays.toList) (hu : scene.next? shape ray = some u)
    (hn : reply ray = some n) : ⟨star.name, ray.predicate, u.star, u.shape.name, n.full⟩ ∈
      (scene.tally shape reply star).dependencies :=
  mem_dependencies_tally.mpr ⟨ray, hray, u, n, hu, hn, Or.inl rfl⟩

/-- The dependencies of the answer to a ray are reported, too. -/
lemma dependencies_subset_tally (hray : ray ∈ star.rays.toList)
    (hu : scene.next? shape ray = some u) (hn : reply ray = some n) :
    n.dependencies ⊆ (scene.tally shape reply star).dependencies := fun _ hd =>
  mem_dependencies_tally.mpr ⟨ray, hray, u, n, hu, hn, Or.inr hd⟩

/-- Links that lead from the star behind a ray to another lead there from the star of the ray. -/
lemma reached_tally (hray : ray ∈ star.rays.toList) (hu : scene.next? shape ray = some u)
    (hn : reply ray = some n) {m : String} (hm : Relation.ReflTransGen n.Links u.star m) :
    Relation.ReflTransGen (scene.tally shape reply star).Links star.name m := by
  have hmono : ∀ x y, n.Links x y → (scene.tally shape reply star).Links x y := by
    rintro x y ⟨d, hd, hends⟩
    exact ⟨d, dependencies_subset_tally hray hu hn hd, hends⟩
  have hfirst : (scene.tally shape reply star).Links star.name u.star :=
    ⟨_, dependency_mem_tally hray hu hn, rfl, rfl⟩
  exact .head hfirst (Relation.ReflTransGen.mono hmono _ _ hm)

/-- If the answers to the rays of a candidate are genuine, and account for candidates of the stars
that they are about, then so is the tally. -/
lemma genuine_tally (hstar : star ∈ scene.query.candidates t.star)
    (hreply : ∀ ray ∈ star.rays.toList, ∀ u n, scene.next? t.shape ray = some u →
      reply ray = some n → n.Genuine scene u ∧
        ∃ c ∈ scene.query.candidates u.star, n.Accounts u.shape c) :
    (scene.tally t.shape reply star).Genuine scene t := by
  have hname : star.name = t.star := Query.name_of_mem_candidates hstar
  constructor
  case loaded =>
    intro d hd
    obtain ⟨ray, hray, u, n, hu, hn, rfl | hd⟩ := mem_dependencies_tally.mp hd
    · obtain ⟨-, -, hs, hnames⟩ := next?_eq_some_iff.mp hu
      exact ⟨Keyed.mem_keys_of_get? hs, hnames⟩
    · exact (hreply ray hray u n hu hn).1.loaded d hd
  case ray =>
    intro d hd
    obtain ⟨ray, hray, u, n, hu, hn, rfl | hd⟩ := mem_dependencies_tally.mp hd
    · refine ⟨star, hname ▸ hstar, ?_⟩
      rw [Star.get?, Keyed.get?_eq_some_iff.mpr ⟨hray, rfl⟩]
      exact link?_of_next? hu
    · exact (hreply ray hray u n hu hn).1.ray d hd
  case reached =>
    intro d hd
    obtain ⟨ray, hray, u, n, hu, hn, rfl | hd⟩ := mem_dependencies_tally.mp hd
    · exact hname ▸ .refl
    · exact hname ▸ reached_tally hray hu hn ((hreply ray hray u n hu hn).1.reached d hd)
  case missing =>
    intro x hx
    obtain ⟨ray, hray, ⟨target, hm, rfl⟩ | ⟨n, hn, hxn⟩⟩ := mem_unresolved_tally.mp hx
    · exact ⟨(missing?_eq_some_iff.mp hm).2.2, hname ▸ .refl⟩
    · obtain ⟨⟨u, hu⟩, hr⟩ := heard_eq_some_iff.mp hn
      obtain ⟨hmissing, hreached⟩ := (hreply ray hray u n hu hr).1.missing x hxn
      exact ⟨hmissing, hname ▸ reached_tally hray hu hr hreached⟩
  case nested =>
    intro p m hm
    obtain ⟨ray, hray, u, n, hu, hn, hfull, he⟩ :=
      exists_ray_of_mem_nested (Dict.find?_eq_some_iff.mp hm)
    obtain ⟨rfl, rfl⟩ := Prod.mk.inj he
    -- the answer was full, and so the ray was bound
    have hbinds : scene.binds t.shape reply ray = true := by
      refine (binds_of_next?_eq_some hu).mpr fun n' hn' => ?_
      exact Option.some.inj (hn.symm.trans hn') ▸ hfull
    obtain ⟨rule, targets, hrule, -, hconstraint, htarget, -⟩ :=
      Shape.demand_eq_conform_iff.mp (next?_eq_some_iff.mp hu).2.1
    refine ⟨⟨ray.triple, find?_slots_tally_iff.mpr ⟨ray, hray, hbinds, rfl, rfl⟩⟩,
      rule, .shape targets, u.shape.name, hrule, hconstraint, htarget, ?_⟩
    exact hname ▸ hfull ▸ dependency_mem_tally hray hu hn
  case nestedBound =>
    intro triple htriple
    obtain ⟨ray, hray, u, n, hu, hn, hfull, hbound | hbound⟩ := mem_nestedBound_tally.mp htriple
    · obtain ⟨c, hc, haccounts⟩ := (hreply ray hray u n hu hn).2
      refine ⟨_, dependency_mem_tally hray hu hn, hfull, c, hc, ?_⟩
      exact haccounts.perm.subset (List.mem_append_left _ hbound)
    · obtain ⟨d, hd, h⟩ := (hreply ray hray u n hu hn).1.nestedBound triple hbound
      exact ⟨d, dependencies_subset_tally hray hu hn hd, h⟩

/-- What is found for a task is genuine, whatever was assumed. -/
lemma Finds.genuine (h : scene.Finds roots A t b) : b.Genuine scene t := by
  induction h with
  | @intro A t b tried rest hcandidates hpick _ _ _ hfound ih =>
      obtain ⟨x, hx, rfl⟩ := exists_trial hpick
      refine genuine_tally (mem_candidates_of_tried hcandidates hx) ?_
      intro ray hray u n hu hn
      exact ⟨ih x hx ray hray u n hu hn, (hfound x hx ray hray u n hu hn).exists_accounts⟩

/-- **Reports are genuine and connected**, whatever the memory was asked before: what the answer to
a call says about other stars is there, and links lead to it from the star that was asked for.
Shapes are told apart by their names. -/
theorem genuine_bindAll (scene : Scene) (calls : List Task)
    (hnames : Set.InjOn Shape.name {s | s ∈ scene.shapes.toList ∨ ∃ t ∈ calls, t.shape = s}) :
    List.Forall₂ (fun t b? => ∀ b, b? = some b → b.Genuine scene t)
      calls (Memory.empty.bindAll scene calls).1 := by
  refine (finds_calls hnames).imp ?_
  intro t b? hanswer b hb
  exact (hanswer.1 b hb).genuine

/-- A chain of three stars, of which the first has another ray in an alternative. The shape that
the last one should conform to is not loaded. -/
def chain : Scene where
  query := (Query.ofStars [.ofPairs "b" [("p", .var "c")],
    .ofPairs "c" [("r", .var "d"), ("z", .var "x")], .ofPairs "d" [("q", .var "y")]]).withUnion
      [[.ofPairs "b" [("q", .var "d")]]]
  shapes := .ofList [.asking "S" [("p", some "T"), ("q", some "V")], .asking "T" [("r", some "U")],
    .asking "V" [("q", none)]]

/-- Calls on the star in the middle of the chain, and on the first one. -/
def chainCalls : List Task :=
  [⟨.asking "T" [("r", some "U")], "c"⟩,
    ⟨.asking "S" [("p", some "T"), ("q", some "V")], "b"⟩]

/-- The answer for the first star reports one that conforms and one that does not, and what is
missing for the latter; links lead to it. The triple bound elsewhere is that of the former. -/
theorem chain_genuine : ∃ b, (Memory.empty.bindAll chain chainCalls).1[1]? = some (some b) ∧
    b.dependencies = [⟨"b", "p", "c", "T", false⟩, ⟨"b", "q", "d", "V", true⟩] ∧
    b.unresolved = [⟨"c", "r", "U"⟩] ∧ Relation.ReflTransGen b.Links "b" "c" ∧
    b.nested.find? "q" = some "d" ∧ (∃ triple, b.slots.find? "q" = some (some triple)) ∧
    ∃ triple ∈ b.nestedBound, ∃ c ∈ chain.query.candidates "d", triple ∈ c.triples := by
  have hcalls : ∀ t ∈ chainCalls, t.shape ∈ chain.shapes.toList := by decide +kernel
  have hanswers := genuine_bindAll chain chainCalls (injOn_of_loaded hcalls)
  have hreport : (Memory.empty.bindAll chain chainCalls).1[1]?.map (Option.map fun b =>
      (b.dependencies, b.unresolved)) = some (some
        ([⟨"b", "p", "c", "T", false⟩, ⟨"b", "q", "d", "V", true⟩], [⟨"c", "r", "U"⟩])) := by
    decide +kernel
  have hfull : (Memory.empty.bindAll chain chainCalls).1[1]?.map (Option.map fun b =>
      (b.nested.find? "q", b.nestedBound)) =
        some (some (some "d", [⟨"d", "q", .var "y", false⟩])) := by decide +kernel
  generalize (Memory.empty.bindAll chain chainCalls).1 = answers at hanswers hreport hfull ⊢
  rcases hanswers with _ | ⟨-, _ | ⟨hb, -⟩⟩
  simp only [List.getElem?_cons_succ, List.getElem?_cons_zero, Option.map_some,
    Option.some.injEq, Option.map_eq_some_iff, Prod.mk.injEq] at hreport hfull
  obtain ⟨b, rfl, hdependencies, hunresolved⟩ := hreport
  obtain ⟨_, hsame, hnested, hbound⟩ := hfull
  obtain rfl := Option.some.inj hsame
  have hgenuine := hb b rfl
  have hmissing := (hgenuine.missing ⟨"c", "r", "U"⟩ (by simp [hunresolved])).2
  have hslot := (hgenuine.nested "q" "d" hnested).1
  have htriple : (⟨"d", "q", .var "y", false⟩ : Triple) ∈ b.nestedBound := by simp [hbound]
  obtain ⟨d, hd, hfull, hc⟩ := hgenuine.nestedBound _ htriple
  -- the second dependency is the one that is full
  have hstar : d.nested = "d" := by
    rw [hdependencies] at hd
    rcases List.mem_cons.mp hd with rfl | hd
    · cases hfull
    · rw [List.mem_singleton.mp hd]
  exact ⟨b, rfl, hdependencies, hunresolved, hmissing, hnested, hslot, _, htriple, hstar ▸ hc⟩

end Scene

end StarShapes
