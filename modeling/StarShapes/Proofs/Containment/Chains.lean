import Mathlib.Data.Fintype.Card
import Mathlib.Data.Set.Finite.List
import StarShapes.Proofs.Containment.Classification

/-!
Chains: which stars are reported to depend on others, said in terms of the report alone.

* `Solution.Leads`: bindings in the report have a full dependency of one star on another.
* `Solution.Explains`: such a dependency comes from a star that a walk leads to, from a star of
  which some shape binds a triple and without passing the star that is explained.
* `dependent_iff`: a star depends on others exactly if no shape binds it in full and some other
  star explains it; its targets are those of the dependencies that explain it.
* `Solution.Supports`, `chain_of_dependent`: a star that depends on others is the end of a chain of
  stars each of which explains the next; the first does not depend on others, or else it is on a
  circle of such stars.
* `Problem.eachOther`: two stars that depend on one another alone.
-/

namespace StarShapes

/-! ### What a report says about dependencies -/

namespace Solution

/-- Some bindings report that the star `f` leads to another star `n`, which is bound in full
against the shape `t`. -/
def Leads (x : Solution) (f t n : String) : Prop :=
  f ≠ n ∧ ∃ m c s b d, (m, c) ∈ x.containments ∧ (s, b) ∈ c.bindings.toList ∧
    d ∈ b.dependencies ∧ d.full = true ∧ d.origin = f ∧ d.nested = n ∧ d.target = t

/-- A star leads to another one, whatever the shape. -/
def LeadsOn (x : Solution) (f n : String) : Prop := ∃ t, x.Leads f t n

/-- Some bindings of a star have a bound triple. -/
def Touched (x : Solution) (n : String) : Prop :=
  ∃ c s b, (n, c) ∈ x.containments ∧ (s, b) ∈ c.bindings.toList ∧ b.isWorthVisiting = true

/-- The star `f` leads to the star `n`, and a walk leads to `f` from a star that some shape binds a
triple of. Past its start this walk does not come to `n`. -/
def Explains (x : Solution) (f t n : String) : Prop :=
  x.Leads f t n ∧ ∃ r, x.Touched r ∧ Relation.ReflTransGen (fun a b => b ≠ n ∧ x.LeadsOn a b) r f

/-- A star explains another one, whatever the shape. -/
def Supports (x : Solution) (f n : String) : Prop := ∃ t, x.Explains f t n

end Solution

namespace Problem

variable {p : Problem}

/-! ### The report and the table -/

/-- The dependencies that are reported are those of the table. -/
lemma leads_iff {f t n : String} : p.solve.Leads f t n ↔ f ≠ n ∧ ∃ d ∈ dependencies p.table,
    d.full = true ∧ d.origin = f ∧ d.nested = n ∧ d.target = t := by
  refine and_congr_right fun _ => ?_
  constructor
  · rintro ⟨m, c, s, b, d, hc, hb, hd, h⟩
    obtain ⟨row, hmem, rfl⟩ := mem_containments.mp hc
    obtain ⟨hb, -⟩ := (mem_toList_reported hmem).mp hb
    exact ⟨d, mem_dependencies.mpr ⟨m, row, b, hmem, hb, hd⟩, h⟩
  · rintro ⟨d, hd, h⟩
    obtain ⟨m, row, b, hmem, hb, hd⟩ := mem_dependencies.mp hd
    exact ⟨m, p.reported m row, b.shape, b, d, mem_containments.mpr ⟨row, hmem, rfl⟩,
      (mem_toList_reported hmem).mpr ⟨hb, rfl⟩, hd, h⟩

lemma leadsOn_iff {f n : String} : p.solve.LeadsOn f n ↔ Steps (dependencies p.table) f n := by
  simp only [Solution.LeadsOn, leads_iff, Steps]
  constructor
  · rintro ⟨t, hne, d, hd, hfull, horigin, hnested, -⟩
    exact ⟨hne, d, hd, hfull, horigin, hnested⟩
  · rintro ⟨hne, d, hd, hfull, horigin, hnested⟩
    exact ⟨d.target, hne, d, hd, hfull, horigin, hnested, rfl⟩

lemma touched_iff {n : String} :
    p.solve.Touched n ↔ isReady (rowVerdicts p.table) n = true := by
  rw [isReady_iff_touching]
  constructor
  · rintro ⟨c, s, b, h⟩
    exact ⟨s, mem_touching_iff_reported.mpr ⟨c, b, h⟩⟩
  · rintro ⟨s, hs⟩
    obtain ⟨c, b, h⟩ := mem_touching_iff_reported.mp hs
    exact ⟨c, s, b, h⟩

/-- The shapes that explain a star are the targets of the dependencies that do. -/
lemma mem_explaining_iff {t n : String} : t ∈ p.explaining n ↔ ∃ f, p.solve.Explains f t n := by
  have hwalk : (fun a b => b ≠ n ∧ Steps (dependencies p.table) a b) =
      fun a b => b ≠ n ∧ p.solve.LeadsOn a b := by
    funext a b
    rw [leadsOn_iff]
  simp only [explaining, Set.mem_ofPred_eq, mem_groundedTargets_iff, Solution.Explains, leads_iff,
    touched_iff, hwalk]
  constructor
  · rintro ⟨d, hd, hnested, hfull, horigin, htarget, h⟩
    exact ⟨d.origin, ⟨horigin, d, hd, hfull, rfl, hnested, htarget⟩, h⟩
  · rintro ⟨_, ⟨horigin, d, hd, hfull, rfl, hnested, htarget⟩, h⟩
    exact ⟨d, hd, hnested, hfull, horigin, htarget, h⟩

/-! ### Which stars depend on others -/

lemma shapesOf_full_eq_nil_iff {n : String} {row : List Bindings} (h : (n, row) ∈ p.table) :
    Verdict.shapesOf Bindings.full row = [] ↔
      ∀ s b, (s, b) ∈ (p.reported n row).bindings.toList → b.full = false := by
  simp only [mem_toList_reported h, List.eq_nil_iff_forall_not_mem, Verdict.mem_shapesOf]
  constructor
  · rintro hnone s b ⟨hb, rfl⟩
    by_contra hfull
    exact hnone b.shape ⟨b, hb, by simpa using hfull, rfl⟩
  · rintro hnone s ⟨b, hb, hfull, hs⟩
    rw [hnone s b ⟨hb, hs⟩] at hfull
    cases hfull

/-- A star that is reported to depend on others is explained by the shapes that it is reported to
depend on. -/
lemma depend_of_dependent {n : String} {row : List Bindings} (h : (n, row) ∈ p.table)
    (hresult : (p.reported n row).verdict.result = .dependent) :
    Verdict.shapesOf Bindings.full row = [] ∧ (p.explaining n).Nonempty ∧
      ∃ targets, (p.reported n row).verdict = .depend targets ∧ targets.Nodup ∧
        p.explaining n = {s | s ∈ targets} := by
  rcases verdict_reported h with ⟨he, -⟩ | ⟨hfull, targets, hne, hnodup, hset, he⟩
  · rw [he] at hresult
    exact absurd hresult (Verdict.result_ofShapes_ne_dependent _ _ _ _)
  · obtain ⟨t, ht⟩ := List.exists_mem_of_ne_nil _ hne
    exact ⟨hfull, ⟨t, hset ▸ ht⟩, targets, he, hnodup, hset⟩

/-- **Which stars depend on others**, and on which shapes: a star is reported so exactly if no shape
binds it in full and some other star explains it, and its targets are the shapes by which stars
explain it, each once. -/
theorem dependent_iff (p : Problem) {n : String} {c : Containment}
    (hc : (n, c) ∈ p.solve.containments) :
    (c.verdict.result = .dependent ↔ (∀ s b, (s, b) ∈ c.bindings.toList → b.full = false) ∧
      ∃ f t, p.solve.Explains f t n) ∧
    (c.verdict.result = .dependent → ∃ targets, c.verdict = .depend targets ∧ targets.Nodup ∧
      ∀ t, t ∈ targets ↔ ∃ f, p.solve.Explains f t n) := by
  obtain ⟨row, hmem, rfl⟩ := mem_containments.mp hc
  have hexplains : (∃ f t, p.solve.Explains f t n) ↔ (p.explaining n).Nonempty := by
    rw [exists_comm]
    exact exists_congr fun t => mem_explaining_iff.symm
  rw [← shapesOf_full_eq_nil_iff hmem, hexplains]
  refine ⟨⟨fun hresult => ?_, ?_⟩, fun hresult => ?_⟩
  · obtain ⟨hfull, hnonempty, -⟩ := depend_of_dependent hmem hresult
    exact ⟨hfull, hnonempty⟩
  · rintro ⟨hfull, hnonempty⟩
    rcases verdict_reported hmem with ⟨-, hsome | hempty⟩ | ⟨-, targets, -, -, -, he⟩
    · exact absurd hfull hsome
    · exact absurd hempty hnonempty.ne_empty
    · exact he ▸ rfl
  · obtain ⟨-, -, targets, he, hnodup, hset⟩ := depend_of_dependent hmem hresult
    refine ⟨targets, he, hnodup, fun t => ?_⟩
    rw [← mem_explaining_iff, hset]
    rfl

/-- Two stars with rays to each other and one more ray each, which the shape `S` refuses; the shape
`T` that each has to conform to for the other is open. -/
def eachOther : Problem where
  query := .ofStars [.ofPairs "b" [("p", .var "c"), ("q", .var "x")],
    .ofPairs "c" [("r", .var "b"), ("s", .var "y")]]
  shapes := [.asking "S" [("p", some "T"), ("r", some "T")]]
  dependent := [.free "T"]
  deciding? := none

/-- The first star depends on `T` alone, by which some star explains it. -/
theorem eachOther_dependent : ∃ c, ("b", c) ∈ eachOther.solve.containments ∧
    c.verdict = .depend ["T"] ∧ ∃ f, eachOther.solve.Explains f "T" "b" := by
  have hb : ∃ x ∈ eachOther.solve.containments, x.1 = "b" ∧ x.2.verdict = .depend ["T"] := by
    decide +kernel
  obtain ⟨⟨_, c⟩, hc, rfl, hverdict⟩ := hb
  refine ⟨c, hc, hverdict, ?_⟩
  obtain ⟨targets, he, -, htargets⟩ := (dependent_iff eachOther hc).2 (hverdict ▸ rfl)
  rw [hverdict, Verdict.depend, Verdict.depend, Verdict.mk.injEq, Option.some.injEq] at he
  exact (htargets "T").mp (he.2.1 ▸ List.mem_singleton_self _)

/-! ### Chains -/

/-- A star that some shape binds a triple of is a star of the query. -/
lemma touched_mem_names {n : String} (h : p.solve.Touched n) : n ∈ p.query.names := by
  obtain ⟨c, -, -, hc, -⟩ := h
  obtain ⟨row, hmem, -⟩ := mem_containments.mp hc
  exact mem_names_of_mem_table hmem

/-- A star that some shape binds a triple of is contained or aligned, or it depends on others. -/
lemma result_of_touched {n : String} {c : Containment} (hc : (n, c) ∈ p.solve.containments)
    (h : p.solve.Touched n) : c.verdict.result = .contained ∨
      c.verdict.result = .partlyContained ∨ c.verdict.result = .aligned ∨
        c.verdict.result = .dependent := by
  obtain ⟨row, hmem, rfl⟩ := mem_containments.mp hc
  rcases verdict_reported hmem with ⟨he, -⟩ | ⟨-, targets, -, -, -, he⟩
  · obtain ⟨c', s, b, hc', hb, hworth⟩ := h
    have htouching : Verdict.shapesOf Bindings.isWorthVisiting row ≠ [] := by
      obtain ⟨row', b', hmem', hb', h'⟩ := mem_touching_iff_reported.mpr ⟨c', b, hc', hb, hworth⟩
      exact List.ne_nil_of_mem
        (Verdict.mem_shapesOf.mpr ⟨b', row_unique hmem hmem' ▸ hb', h'⟩)
    rw [he, Verdict.ofShapes]
    split
    · dsimp only
      split <;> simp
    · simp
  · simp [he, Verdict.depend]

/-- A star that is explained is the end of a chain of stars each of which explains the next, from a
star that some shape binds a triple of. -/
lemma exists_transGen_of_supports {f n : String} (h : p.solve.Supports f n) :
    ∃ r, p.solve.Touched r ∧ Relation.TransGen p.solve.Supports r n := by
  obtain ⟨t, hleads, r, hr, hwalk⟩ := h
  have hmem : ∀ a b, b ≠ n ∧ p.solve.LeadsOn a b →
      b ∈ dependencyStars (dependencies p.table) ∧ p.solve.LeadsOn a b :=
    fun a b hb => ⟨(leadsOn_iff.mp hb.2).mem_dependencyStars, hb.2⟩
  have hdirect := direct_of_walk (nodup_distinct _) (Relation.ReflTransGen.mono hmem _ _ hwalk)
  have hchain : Relation.ReflTransGen p.solve.Supports r f := by
    refine Relation.ReflTransGen.mono ?_ _ _ hdirect
    rintro a b ⟨⟨t', hleads'⟩, hwalk'⟩
    exact ⟨t', hleads', r, hr, hwalk'⟩
  exact ⟨r, hr, .tail' hchain ⟨t, hleads, r, hr, hwalk⟩⟩

/-- If each of finitely many elements comes after another of them, one comes after itself. -/
lemma exists_circle {α : Type} {R : α → α → Prop} {S : Set α} (hS : S.Finite) (hne : S.Nonempty)
    (h : ∀ a ∈ S, ∃ b ∈ S, Relation.TransGen R b a) : ∃ a ∈ S, Relation.TransGen R a a := by
  by_contra hcircle
  push Not at hcircle
  have : Finite S := hS
  have : IsTrans S fun a b => Relation.TransGen R a b := ⟨fun _ _ _ => .trans⟩
  have : Std.Irrefl fun a b : S => Relation.TransGen R a b := ⟨fun a => hcircle a a.2⟩
  have hwf : WellFounded fun a b : S => Relation.TransGen R a b :=
    Finite.wellFounded_of_trans_of_irrefl _
  obtain ⟨a, ha⟩ := hne
  obtain ⟨m, -, hmin⟩ := hwf.has_min Set.univ ⟨⟨a, ha⟩, trivial⟩
  obtain ⟨b, hb, hbm⟩ := h m m.2
  exact hmin ⟨b, hb⟩ trivial hbm

/-- Some star explains a star that depends on others. -/
lemma exists_supports {n : String} {c : Containment} (hc : (n, c) ∈ p.solve.containments)
    (hresult : c.verdict.result = .dependent) : ∃ f, p.solve.Supports f n := by
  obtain ⟨row, hmem, rfl⟩ := mem_containments.mp hc
  obtain ⟨-, ⟨t, ht⟩, -⟩ := depend_of_dependent hmem hresult
  obtain ⟨f, hf⟩ := mem_explaining_iff.mp ht
  exact ⟨f, t, hf⟩

/-- A chain to a star that depends on others can be started where some shape binds a triple, at a
star that does not depend on others or is on a circle. -/
lemma exists_start {n : String} {c : Containment} (hc : (n, c) ∈ p.solve.containments)
    (hresult : c.verdict.result = .dependent) :
    ∃ r c', (r, c') ∈ p.solve.containments ∧ p.solve.Touched r ∧
      Relation.TransGen p.solve.Supports r n ∧
      (c'.verdict.result = .contained ∨ c'.verdict.result = .partlyContained ∨
        c'.verdict.result = .aligned ∨
        c'.verdict.result = .dependent ∧ Relation.TransGen p.solve.Supports r r) := by
  let S : Set String := {r | p.solve.Touched r ∧ Relation.TransGen p.solve.Supports r n}
  have hfinite : S.Finite :=
    (List.finite_toSet p.query.names).subset fun r hr => touched_mem_names hr.1
  have hreported : ∀ {k}, p.solve.Touched k → ∃ c', (k, c') ∈ p.solve.containments :=
    fun ⟨c', _, _, hc', _⟩ => ⟨c', hc'⟩
  obtain ⟨f, hf⟩ := exists_supports hc hresult
  have hnonempty : S.Nonempty := exists_transGen_of_supports hf
  by_cases hother : ∃ r ∈ S, ∃ c', (r, c') ∈ p.solve.containments ∧
      c'.verdict.result ≠ .dependent
  · obtain ⟨r, ⟨hr, hchain⟩, c', hc', hne⟩ := hother
    refine ⟨r, c', hc', hr, hchain, ?_⟩
    rcases result_of_touched hc' hr with h | h | h | h
    · exact Or.inl h
    · exact Or.inr (Or.inl h)
    · exact Or.inr (Or.inr (Or.inl h))
    · exact absurd h hne
  · -- all of them depend on others, so each has another one before it
    push Not at hother
    have hbefore : ∀ a ∈ S, ∃ b ∈ S, Relation.TransGen p.solve.Supports b a := by
      intro a ha
      obtain ⟨c', hc'⟩ := hreported ha.1
      obtain ⟨g, hg⟩ := exists_supports hc' (hother a ha c' hc')
      obtain ⟨b, hb, hba⟩ := exists_transGen_of_supports hg
      exact ⟨b, ⟨hb, hba.trans ha.2⟩, hba⟩
    obtain ⟨r, hr, hcircle⟩ := exists_circle hfinite hnonempty hbefore
    obtain ⟨c', hc'⟩ := hreported hr.1
    exact ⟨r, c', hc', hr.1, hr.2, Or.inr (Or.inr (Or.inr ⟨hother r hr c' hc', hcircle⟩))⟩

/-- A star is reported once. -/
lemma containment_unique {n : String} {c c' : Containment} (hc : (n, c) ∈ p.solve.containments)
    (hc' : (n, c') ∈ p.solve.containments) : c = c' := by
  obtain ⟨row, hmem, rfl⟩ := mem_containments.mp hc
  obtain ⟨row', hmem', rfl⟩ := mem_containments.mp hc'
  rw [row_unique hmem hmem']

/-- **Where dependence starts.** A star that depends on others is the end of a chain of stars each
of which explains the next, from a star that some shape binds a triple of and which does not depend
on others, or else is on a circle of such stars. So stars that are explained by one another alone
have one among them that some shape binds a triple of and that is on a circle. -/
theorem chain_of_dependent (p : Problem) :
    (∀ n c, (n, c) ∈ p.solve.containments → c.verdict.result = .dependent →
      ∃ r c', (r, c') ∈ p.solve.containments ∧ p.solve.Touched r ∧
        Relation.TransGen p.solve.Supports r n ∧
        (c'.verdict.result = .contained ∨ c'.verdict.result = .partlyContained ∨
          c'.verdict.result = .aligned ∨
          c'.verdict.result = .dependent ∧ Relation.TransGen p.solve.Supports r r)) ∧
    ∀ D : Set String, D.Nonempty →
      (∀ n ∈ D, ∃ c, (n, c) ∈ p.solve.containments ∧ c.verdict.result = .dependent) →
      (∀ n ∈ D, ∀ f, p.solve.Supports f n → f ∈ D) →
      ∃ r ∈ D, p.solve.Touched r ∧ Relation.TransGen p.solve.Supports r r := by
  refine ⟨fun n c hc hresult => exists_start hc hresult, fun D hne hdependent hclosed => ?_⟩
  obtain ⟨n, hn⟩ := hne
  obtain ⟨c, hc, hresult⟩ := hdependent n hn
  obtain ⟨r, c', hc', htouched, hchain, hr⟩ := exists_start hc hresult
  have hback : ∀ k, Relation.TransGen p.solve.Supports k n → k ∈ D := by
    intro k hk
    induction hk using Relation.TransGen.head_induction_on with
    | single h => exact hclosed n hn _ h
    | head h _ ih => exact hclosed _ ih _ h
  refine ⟨r, hback r hchain, htouched, ?_⟩
  obtain ⟨c'', hc'', hresult'⟩ := hdependent r (hback r hchain)
  rw [containment_unique hc'' hc'] at hresult'
  rcases hr with h | h | h | ⟨-, hcircle⟩
  · rw [hresult'] at h
    cases h
  · rw [hresult'] at h
    cases h
  · rw [hresult'] at h
    cases h
  · exact hcircle

/-- Two stars that depend on one another are on a circle, which one of them starts. -/
theorem eachOther_circle :
    (∃ r, eachOther.solve.Touched r ∧ Relation.TransGen eachOther.solve.Supports r "b") ∧
      ∃ r, eachOther.solve.Touched r ∧ Relation.TransGen eachOther.solve.Supports r r := by
  have hall : ∀ x ∈ eachOther.solve.containments, x.2.verdict.result = .dependent := by
    decide +kernel
  have hb : ∃ x ∈ eachOther.solve.containments, x.1 = "b" := by decide +kernel
  have horigin : ∀ x ∈ eachOther.solve.containments, ∀ y ∈ x.2.bindings.toList,
      ∀ d ∈ y.2.dependencies, ∃ z ∈ eachOther.solve.containments, z.1 = d.origin := by
    decide +kernel
  obtain ⟨hstart, hclosed⟩ := chain_of_dependent eachOther
  obtain ⟨⟨_, c⟩, hc, rfl⟩ := hb
  constructor
  · obtain ⟨r, -, -, hr, hchain, -⟩ := hstart "b" c hc (hall _ hc)
    exact ⟨r, hr, hchain⟩
  · obtain ⟨r, -, hr⟩ := hclosed {n | ∃ c, (n, c) ∈ eachOther.solve.containments} ⟨"b", c, hc⟩
      (fun n ⟨c', hc'⟩ => ⟨c', hc', hall _ hc'⟩) <| by
        rintro n - f ⟨t, ⟨-, m, c', s, b, d, hc', hb, hd, -, rfl, -, -⟩, -⟩
        obtain ⟨⟨_, c''⟩, hc'', rfl⟩ := horigin _ hc' _ hb d hd
        exact ⟨c'', hc''⟩
    exact ⟨r, hr⟩

/-- Both stars depend on others, so no chain starts at one that does not. -/
theorem eachOther_alone : ¬ ∀ n c, (n, c) ∈ eachOther.solve.containments →
    c.verdict.result = .dependent → ∃ r c', (r, c') ∈ eachOther.solve.containments ∧
      (c'.verdict.result = .contained ∨ c'.verdict.result = .partlyContained ∨
        c'.verdict.result = .aligned) ∧
      Relation.TransGen eachOther.solve.LeadsOn r n := by
  have hall : ∀ x ∈ eachOther.solve.containments, x.2.verdict.result = .dependent := by
    decide +kernel
  have hsome : ∃ x ∈ eachOther.solve.containments, x.1 = "b" := by decide +kernel
  obtain ⟨⟨n, c⟩, hc, -⟩ := hsome
  intro h
  obtain ⟨r, c', hc', hresult, -⟩ := h n c hc (hall _ hc)
  rw [hall _ hc'] at hresult
  rcases hresult with h | h | h <;> cases h

end Problem

end StarShapes
