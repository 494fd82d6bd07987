import StarShapes.Proofs.Binding.Calls
import StarShapes.Proofs.Binding.Delivery
import StarShapes.Proofs.Collection.Distinct

/-!
Repetition: what bindings report twice.

* `count_pushAllNew`: how often an element is on a list to which others are added if they are new.
* `Scene.HeardBefore`: a ray asks for a missing shape that the other end of an earlier ray has
  reported. Only then is something reported twice (`count_unresolved_tally`).
* `Scene.AskedAgain`: the same, said of the scene alone. A way leads back to the star of a task,
  where some shape asks for what the shape of the task asks for.
* `Bindings.Unrepeated`: what bindings report, they report once, except for missing shapes that are
  asked for again.
* `unrepeated_bindAll`: this is so of every answer to a sequence of calls.
-/

namespace StarShapes

/-! ### Lists with two equal elements -/

section

variable {α : Type}

/-- Two elements of a list in order, where it has one more at its end. -/
lemma pair_sublist_concat_iff {a b c : α} {l : List α} :
    [a, b].Sublist (l ++ [c]) ↔ [a, b].Sublist l ∨ a ∈ l ∧ b = c := by
  have hreverse : ∀ l : List α, [a, b].Sublist l ↔ [b, a].Sublist l.reverse := fun _ =>
    List.reverse_sublist.symm
  rw [hreverse, hreverse, List.reverse_concat, List.cons_sublist_cons', List.singleton_sublist,
    List.mem_reverse, and_comm (a := b = c)]

variable [DecidableEq α]

lemma count_pushNew (l : List α) (x y : α) :
    (pushNew l y).count x = max (l.count x) (if x = y then 1 else 0) := by
  by_cases hy : y ∈ l
  · rw [pushNew_of_mem hy]
    split
    · rename_i he
      subst he
      have hpos : 0 < l.count x := List.count_pos_iff.mpr hy
      omega
    · omega
  · rw [pushNew_of_notMem hy, List.count_append]
    split
    · rename_i he
      subst he
      simp [List.count_eq_zero_of_not_mem hy]
    · rename_i hne
      have hnone : [y].count x = 0 := List.count_eq_zero_of_not_mem (by simpa using hne)
      omega

/-- What is added to a list if it is new comes to be there once, if it was not before. -/
lemma count_pushAllNew (l xs : List α) (x : α) :
    (pushAllNew l xs).count x = max (l.count x) (if x ∈ xs then 1 else 0) := by
  induction xs generalizing l with
  | nil => simp [pushAllNew]
  | cons y ys ih =>
      have hcons : pushAllNew l (y :: ys) = pushAllNew (pushNew l y) ys := rfl
      rw [hcons, ih, count_pushNew]
      simp only [List.mem_cons]
      by_cases he : x = y
      · simp only [he, true_or, if_true]
        split <;> omega
      · simp only [he, false_or, if_false]
        omega

end

namespace Scene

variable {scene : Scene} {shape : Shape} {reply : Ray → Option Bindings} {x : Unresolved}

/-! ### Reports without repetition -/

/-- What is reported of other stars stays without repetition. -/
lemma nodup_report {b : Bindings} (hb : b.dependencies.Nodup ∧ b.nestedBound.Nodup) (ray : Ray) :
    (scene.report shape reply b ray).dependencies.Nodup ∧
      (scene.report shape reply b ray).nestedBound.Nodup := by
  rw [report]
  split
  · exact hb
  · rw [Bindings.recordNested]
    split
    · exact ⟨nodup_pushAllNew hb.1 _, nodup_pushAllNew hb.2 _⟩
    · exact ⟨nodup_pushAllNew hb.1 _, hb.2⟩
  · exact hb

/-- No dependency is reported twice, and no triple that is bound elsewhere. -/
lemma nodup_tally (star : Star) :
    (scene.tally shape reply star).dependencies.Nodup ∧
      (scene.tally shape reply star).nestedBound.Nodup := by
  rw [tally]
  split
  · refine List.foldlRecOn star.rays.toList (scene.tallyRay shape reply)
      (motive := fun b => b.dependencies.Nodup ∧ b.nestedBound.Nodup) ?_ ?_
    · exact ⟨.nil, .nil⟩
    · intro b hb ray _
      rw [dependencies_tallyRay, nestedBound_tallyRay]
      exact nodup_report hb ray
  · exact ⟨.nil, .nil⟩

/-! ### Missing shapes, ray by ray -/

/-- A ray asks for a missing shape. -/
def Misses (scene : Scene) (shape : Shape) (ray : Ray) (x : Unresolved) : Prop :=
  ray.predicate = x.predicate ∧ scene.missing? shape ray = some x.shape

/-- The bindings found at the other end of a ray report a missing shape. -/
def TellsOf (scene : Scene) (shape : Shape) (reply : Ray → Option Bindings) (ray : Ray)
    (x : Unresolved) : Prop :=
  ∃ n, scene.heard shape reply ray = some n ∧ x ∈ n.unresolved

/-- A ray asks for a missing shape that the other end of an earlier one has reported. -/
def HeardBefore (scene : Scene) (shape : Shape) (reply : Ray → Option Bindings) (rays : List Ray)
    (x : Unresolved) : Prop :=
  ∃ earlier later, [earlier, later].Sublist rays ∧ scene.TellsOf shape reply earlier x ∧
    scene.Misses shape later x

lemma heardBefore_concat_iff {rays : List Ray} {ray : Ray} :
    scene.HeardBefore shape reply (rays ++ [ray]) x ↔ scene.HeardBefore shape reply rays x ∨
      (∃ earlier ∈ rays, scene.TellsOf shape reply earlier x) ∧ scene.Misses shape ray x := by
  simp only [HeardBefore, pair_sublist_concat_iff]
  constructor
  · rintro ⟨earlier, later, hpair | ⟨hmem, rfl⟩, htells, hmisses⟩
    · exact .inl ⟨earlier, later, hpair, htells, hmisses⟩
    · exact .inr ⟨⟨earlier, hmem, htells⟩, hmisses⟩
  · rintro (⟨earlier, later, hpair, h⟩ | ⟨⟨earlier, hmem, htells⟩, hmisses⟩)
    · exact ⟨earlier, later, .inl hpair, h⟩
    · exact ⟨earlier, ray, .inr ⟨hmem, rfl⟩, htells, hmisses⟩

/-- The report of a ray whose shape is missing. -/
lemma unresolved_report_of_missing? {ray : Ray} {target : String}
    (h : scene.missing? shape ray = some target) (b : Bindings) :
    (scene.report shape reply b ray).unresolved =
      b.unresolved ++ [⟨b.star, ray.predicate, target⟩] := by
  rw [report, h]
  rfl

/-- The report of any other ray: what is missing at its other end, if this is new. -/
lemma unresolved_report_of_loaded {ray : Ray} (h : scene.missing? shape ray = none)
    (b : Bindings) :
    (scene.report shape reply b ray).unresolved =
      pushAllNew b.unresolved ((scene.heard shape reply ray).elim [] Bindings.unresolved) := by
  rw [report, h]
  cases hu : scene.next? shape ray with
  | none => simp [heard, hu, pushAllNew]
  | some u =>
      cases hn : scene.heard shape reply ray with
      | none => rfl
      | some n =>
          dsimp only [Bindings.recordNested]
          split <;> rfl

/-- The shapes found missing by some rays of a star. -/
lemma mem_unresolved_foldl {rays : List Ray} {name : String} :
    x ∈ (rays.foldl (scene.tallyRay shape reply) (.start shape name)).unresolved ↔
      ∃ ray ∈ rays, x.star = name ∧ scene.Misses shape ray x ∨
        scene.TellsOf shape reply ray x := by
  refine (mem_foldl_iff Bindings.unresolved (fun b => b.star = name)
    (fun b ray hb => (star_tallyRay b ray).trans hb) (fun b ray hb => ?_) rays rfl).trans
    (or_iff_right List.not_mem_nil)
  rw [unresolved_tallyRay, mem_unresolved_report, hb]
  refine or_congr_right (or_congr_left ?_)
  constructor
  · rintro ⟨target, hm, rfl⟩
    exact ⟨rfl, rfl, hm⟩
  · rintro ⟨rfl, hp, hm⟩
    exact ⟨x.shape, hm, by rw [hp]⟩

/-- What a ray with a missing shape adds to the report is what it asks for. -/
lemma misses_iff {ray : Ray} {target name : String} (h : scene.missing? shape ray = some target) :
    x.star = name ∧ scene.Misses shape ray x ↔ x = ⟨name, ray.predicate, target⟩ := by
  obtain ⟨star, predicate, asked⟩ := x
  simp only [Misses, h, Option.some.injEq, Unresolved.mk.injEq, eq_comm]

/-- What no ray asks for was not heard of before one that does. -/
lemma not_heardBefore {rays : List Ray} (h : ∀ ray ∈ rays, ¬ scene.Misses shape ray x) :
    ¬ scene.HeardBefore shape reply rays x := by
  rintro ⟨_, later, hpair, -, hmisses⟩
  exact h later (hpair.subset (by simp)) hmisses

/-- What no ray asks for is found missing only at their other ends. -/
lemma mem_unresolved_foldl_of_new {rays : List Ray} {name : String}
    (h : ∀ ray ∈ rays, ¬ scene.Misses shape ray x) :
    x ∈ (rays.foldl (scene.tallyRay shape reply) (.start shape name)).unresolved ↔
      ∃ ray ∈ rays, scene.TellsOf shape reply ray x := by
  rw [mem_unresolved_foldl]
  exact exists_congr fun ray => and_congr_right fun hray => or_iff_right fun hasks =>
    h ray hray hasks.2

/-- A missing shape is reported twice at most by some rays of a star, and only if it was heard of
before. -/
lemma count_unresolved_foldl {rays : List Ray} (hrays : (rays.map Ray.predicate).Nodup)
    (name : String) :
    (rays.foldl (scene.tallyRay shape reply) (.start shape name)).unresolved.count x ≤ 2 ∧
      ((rays.foldl (scene.tallyRay shape reply) (.start shape name)).unresolved.count x = 2 ↔
        x.star = name ∧ scene.HeardBefore shape reply rays x) := by
  induction rays using List.reverseRecOn with
  | nil => simp [Bindings.start, HeardBefore]
  | append_singleton rays ray ih =>
      rw [List.map_append, List.nodup_append] at hrays
      obtain ⟨hrays, -, hnew⟩ := hrays
      obtain ⟨hle, htwo⟩ := ih hrays
      have hstar : (rays.foldl (scene.tallyRay shape reply) (.start shape name)).star = name :=
        star_foldl rays _
      have htells := @mem_unresolved_foldl_of_new scene shape reply x rays name
      rw [List.foldl_append, List.foldl_cons, List.foldl_nil, heardBefore_concat_iff,
        unresolved_tallyRay]
      generalize rays.foldl (scene.tallyRay shape reply) (.start shape name) = b
        at hle htwo hstar htells ⊢
      cases hm : scene.missing? shape ray with
      | none =>
          have hmisses : ¬ scene.Misses shape ray x := by simp [Misses, hm]
          rw [unresolved_report_of_loaded hm, count_pushAllNew]
          simp only [hmisses, and_false, or_false, ← htwo]
          split <;> omega
      | some target =>
          rw [unresolved_report_of_missing? hm, List.count_append, hstar]
          by_cases hx : x = ⟨name, ray.predicate, target⟩
          · -- the predicate is new, so the shape is there only if it was heard of
            obtain ⟨hname, hmisses⟩ := (misses_iff hm).mpr hx
            have hnone : ∀ earlier ∈ rays, ¬ scene.Misses shape earlier x := fun earlier he h =>
              hnew _ (List.mem_map_of_mem he) _ (by simp) (h.1.trans hmisses.1.symm)
            have hbefore := @not_heardBefore scene shape reply x rays hnone
            have hone : [x].count x = 1 := by simp
            simp only [hbefore, and_false, iff_false] at htwo
            simp only [← hx, hone, hname, hbefore, hmisses, ← htells hnone, and_true, true_and,
              false_or]
            rw [← List.count_pos_iff]
            omega
          · have hmisses : ¬ (x.star = name ∧ scene.Misses shape ray x) :=
              (misses_iff hm).not.mpr hx
            have hnone : [(⟨name, ray.predicate, target⟩ : Unresolved)].count x = 0 :=
              List.count_eq_zero_of_not_mem (by simpa using hx)
            rw [hnone, Nat.add_zero, htwo]
            exact ⟨hle, by tauto⟩

/-- A missing shape is reported twice at most, and only if it was heard of before a ray of the star
that asks for it. -/
lemma count_unresolved_tally (star : Star) :
    (scene.tally shape reply star).unresolved.count x ≤ 2 ∧
      ((scene.tally shape reply star).unresolved.count x = 2 ↔
        x.star = star.name ∧ scene.HeardBefore shape reply star.rays.toList x) := by
  rw [tally]
  cases hc : shape.closed with
  | true => exact count_unresolved_foldl star.rays.nodup star.name
  | false =>
      have hmisses : ∀ ray ∈ star.rays.toList, ¬ scene.Misses shape ray x := fun ray _ h => by
        simp [Misses, missing?, hc] at h
      simp [Bindings.ofOpen, Bindings.start, not_heardBefore hmisses]

/-! ### Missing shapes, task by task -/

/-- A task asks for a missing shape: a ray of a candidate of its star does. -/
def Lacks (scene : Scene) (t : Task) (x : Unresolved) : Prop :=
  x.star = t.star ∧ ∃ c ∈ scene.query.candidates t.star, ∃ ray ∈ c.rays.toList,
    scene.Misses t.shape ray x

/-- A task leads to another one that is not to be avoided. -/
def LeadsPast (scene : Scene) (avoid : Set Task) (t u : Task) : Prop :=
  scene.Leads t u ∧ u ∉ avoid

/-- A missing shape is asked for again: a ray asks for it after one that leads to a task from which
a way goes to a task that asks for it, too. No task on the way is to be avoided. -/
def AskedAgain (scene : Scene) (avoid : Set Task) (t : Task) (x : Unresolved) : Prop :=
  x.star = t.star ∧ ∃ c ∈ scene.query.candidates t.star, ∃ earlier later,
    [earlier, later].Sublist c.rays.toList ∧ scene.Misses t.shape later x ∧
      ∃ u v, scene.next? t.shape earlier = some u ∧ u ∉ avoid ∧
        Relation.ReflTransGen (scene.LeadsPast avoid) u v ∧ scene.Lacks v x

variable {roots A avoid : Set Task} {t u : Task} {b : Bindings}

/-- A missing shape that bindings report is asked for by a task to which a way leads. -/
lemma Finds.exists_lacks (h : scene.Finds roots A t b)
    (havoid : ∀ u v, scene.ReachedWithout roots u v → u ∉ avoid) (hx : x ∈ b.unresolved) :
    ∃ v, Relation.ReflTransGen (scene.LeadsPast avoid) t v ∧ scene.Lacks v x := by
  induction h with
  | @intro A t b tried rest hcandidates hpick _ _ hreached _ ih =>
      obtain ⟨y, hy, rfl⟩ := exists_trial hpick
      have hstar := mem_candidates_of_tried hcandidates hy
      obtain ⟨ray, hray, ⟨target, hm, rfl⟩ | ⟨n, hn, hxn⟩⟩ := mem_unresolved_tally.mp hx
      · exact ⟨t, .refl, Query.name_of_mem_candidates hstar, y.star, hstar, ray, hray, rfl, hm⟩
      · obtain ⟨⟨u, hu⟩, hr⟩ := heard_eq_some_iff.mp hn
        obtain ⟨v, hway, hlacks⟩ := ih y hy ray hray u n hu hr hxn
        have hlead : scene.LeadsPast avoid t u :=
          ⟨leads_of_tried hcandidates hy hray hu, havoid u t (hreached y hy ray hray u n hu hr)⟩
        exact ⟨v, .head hlead hway, hlacks⟩

/-- A way need not come back to its start, and so may avoid it from then on. -/
lemma leadsPast_insert {v : Task} (h : Relation.ReflTransGen (scene.LeadsPast avoid) u v) :
    Relation.ReflTransGen (scene.LeadsPast (insert u avoid)) u v := by
  rcases eq_or_transGen_ne h with rfl | h
  · exact .refl
  · refine (Relation.TransGen.mono ?_ _ _ h).to_reflTransGen
    exact fun _ _ ⟨⟨hlead, havoid⟩, hne⟩ => ⟨hlead, fun hmem => hmem.elim hne havoid⟩

/-- Without UNION, a missing shape is reported if a task asks for it to which a way leads that
passes nothing assumed. -/
lemma Finds.mem_unresolved_of_way (h : scene.Finds roots A t b) (hq : scene.query.unions = [])
    (hway : Relation.ReflTransGen (scene.LeadsPast (insert t A)) t u) (hx : scene.Lacks u x) :
    x ∈ b.unresolved := by
  induction h with
  | @intro A t b tried rest hcandidates hpick _ hunseen _ _ ih =>
      obtain ⟨y, hy, rfl⟩ := exists_trial hpick
      have hstar := mem_candidates_of_tried hcandidates hy
      rcases Relation.ReflTransGen.cases_head hway with rfl | ⟨v, ⟨hlead, hvA⟩, hway⟩
      · obtain ⟨hname, c, hc, ray, hray, hpredicate, hm⟩ := hx
        obtain rfl : c = y.star := Query.eq_of_mem_candidates hq hc hstar
        refine mem_unresolved_tally.mpr ⟨ray, hray, .inl ⟨x.shape, hm, ?_⟩⟩
        rw [Query.name_of_mem_candidates hstar, hpredicate, ← hname]
      · obtain ⟨c, hc, ray, hray, hv⟩ := hlead
        obtain rfl : c = y.star := Query.eq_of_mem_candidates hq hc hstar
        cases hr : y.reply ray with
        | none => exact absurd (hunseen y hy ray hray v hv hr) hvA
        | some n =>
            have hxn := ih y hy ray hray v n hv hr (leadsPast_insert hway)
            exact mem_unresolved_tally.mpr
              ⟨ray, hray, .inr ⟨n, heard_eq_some_iff.mpr ⟨⟨v, hv⟩, hr⟩, hxn⟩⟩

/-- What bindings report twice is asked for again. -/
lemma Finds.askedAgain (h : scene.Finds roots A t b)
    (havoid : ∀ u v, scene.ReachedWithout roots u v → u ∉ avoid)
    (hx : b.unresolved.count x = 2) : scene.AskedAgain avoid t x := by
  obtain ⟨tried, rest, hcandidates, hpick, -, -, hreached, hfound⟩ := h
  obtain ⟨y, hy, rfl⟩ := exists_trial hpick
  have hstar := mem_candidates_of_tried hcandidates hy
  obtain ⟨hname, earlier, later, hpair, ⟨n, hn, hxn⟩, hmisses⟩ :=
    (count_unresolved_tally y.star).2.mp hx
  obtain ⟨⟨u, hu⟩, hr⟩ := heard_eq_some_iff.mp hn
  have hearlier : earlier ∈ y.star.rays.toList := hpair.subset (by simp)
  obtain ⟨v, hway, hlacks⟩ :=
    (hfound y hy earlier hearlier u n hu hr).exists_lacks havoid hxn
  exact ⟨hname.trans (Query.name_of_mem_candidates hstar), y.star, hstar, earlier, later, hpair,
    hmisses, u, v, hu, havoid u t (hreached y hy earlier hearlier u n hu hr), hway, hlacks⟩

/-- Without UNION, what is asked for again is reported twice, unless the way comes back to the
task. -/
lemma Finds.count_eq_two (h : scene.Finds roots ∅ t b) (hq : scene.query.unions = [])
    (hx : scene.AskedAgain {t} t x) : b.unresolved.count x = 2 := by
  obtain ⟨tried, rest, hcandidates, hpick, -, hunseen, -, hfound⟩ := h
  obtain ⟨y, hy, rfl⟩ := exists_trial hpick
  have hstar := mem_candidates_of_tried hcandidates hy
  obtain ⟨hname, c, hc, earlier, later, hpair, hmisses, u, v, hu, hne, hway, hlacks⟩ := hx
  obtain rfl : c = y.star := Query.eq_of_mem_candidates hq hc hstar
  have hassumed : (insert t ∅ : Set Task) = {t} := insert_empty_eq t
  have hearlier : earlier ∈ y.star.rays.toList := hpair.subset (by simp)
  refine (count_unresolved_tally y.star).2.mpr
    ⟨hname.trans (Query.name_of_mem_candidates hstar).symm, earlier, later, hpair, ?_, hmisses⟩
  cases hr : y.reply earlier with
  | none =>
      have hmem := hunseen y hy earlier hearlier u hu hr
      exact absurd (hassumed ▸ hmem) hne
  | some n =>
      have hfinds := hfound y hy earlier hearlier u n hu hr
      rw [hassumed] at hfinds
      exact ⟨n, heard_eq_some_iff.mpr ⟨⟨u, hu⟩, hr⟩,
        hfinds.mem_unresolved_of_way hq (leadsPast_insert hway) hlacks⟩

end Scene

/-! ### Answers -/

/-- What the bindings of a task report, they report once, except for missing shapes that are asked
for again. -/
structure Bindings.Unrepeated (b : Bindings) (scene : Scene) (avoid : Set Task) (t : Task) :
    Prop where
  /-- No dependency is reported twice. -/
  dependencies : b.dependencies.Nodup
  /-- No triple is listed twice as bound elsewhere. -/
  nestedBound : b.nestedBound.Nodup
  /-- No missing shape is reported three times. -/
  count_le : ∀ x, b.unresolved.count x ≤ 2
  /-- What is reported twice is asked for again. -/
  askedAgain : ∀ x, b.unresolved.count x = 2 → scene.AskedAgain avoid t x
  /-- Without UNION, what is asked for again without a way through the task itself is reported
  twice. -/
  count_eq : scene.query.unions = [] → ∀ x, scene.AskedAgain {t} t x → b.unresolved.count x = 2

namespace Scene

variable {scene : Scene} {roots avoid : Set Task} {t : Task} {b : Bindings}

/-- Bindings that are found without assumption repeat nothing else. -/
lemma Finds.unrepeated (h : scene.Finds roots ∅ t b)
    (havoid : ∀ u v, scene.ReachedWithout roots u v → u ∉ avoid) :
    b.Unrepeated scene avoid t := by
  obtain ⟨c, -, reply, hb⟩ := h.exists_tally
  obtain ⟨hdependencies, hnestedBound⟩ := @nodup_tally scene t.shape reply c
  refine ⟨hb ▸ hdependencies, hb ▸ hnestedBound, fun x => ?_, fun _ => h.askedAgain havoid,
    fun hq _ => h.count_eq_two hq⟩
  rw [hb]
  exact (count_unresolved_tally c).1

/-- A way that starts at a task does not avoid it. -/
lemma ReachedWithout.ne_root {u v : Task} (h : scene.ReachedWithout {t} u v) : u ≠ t := by
  induction h with
  | root hmem hne => exact fun he => hne (he ▸ hmem)
  | step _ _ _ ih => exact ih

/-- **Reports repeat what is asked for again**, and nothing else: whatever a memory was asked
before, an answer has no dependency and no triple bound elsewhere twice. It has a missing shape
twice at most, and only if a way leads back to the star, where a shape asks for the same. Without
UNION it does if such a way does not pass the task itself, and with nothing remembered exactly then.
Shapes are told apart by their names. -/
theorem unrepeated_bindAll (scene : Scene) (calls : List Task)
    (hnames : Set.InjOn Shape.name {s | s ∈ scene.shapes.toList ∨ ∃ t ∈ calls, t.shape = s}) :
    List.Forall₂ (fun t b? => ∀ b, b? = some b → b.Unrepeated scene ∅ t)
        calls (Memory.empty.bindAll scene calls).1 ∧
      ∀ t ∈ calls, ∀ b, (Memory.empty.bind scene t.shape t.star).1 = some b →
        b.Unrepeated scene {t} t := by
  refine ⟨(finds_calls hnames).imp ?_, fun t ht b hb => ?_⟩
  · intro t b? hanswer b hb
    exact (hanswer.1 b hb).unrepeated fun u _ _ => Set.notMem_empty u
  · obtain ⟨-, -, hfinds, -⟩ := finds_bind hnames (fun _ _ hs => .inl (Keyed.mem_of_get? hs))
      (Set.mem_singleton t) (.inr ⟨t, ht, rfl⟩) Memory.sound_empty
    exact (hfinds b hb).unrepeated fun u v h => h.ne_root

/-- A star with a ray to a second one, which has a ray back. The shape of the first leads to that of
the second, and this to another shape of the first, and both shapes of the first ask for a shape
that is not loaded at its second ray. -/
def comingBack : Scene where
  query := Query.ofStars [.ofPairs "b" [("p", .var "c"), ("r", .var "d")],
    .ofPairs "c" [("q", .var "b")], .ofPairs "d" [("s", .var "x")]]
  shapes := .ofList [.asking "S" [("p", some "T"), ("r", some "M")], .asking "T" [("q", some "U")],
    .asking "U" [("p", none), ("r", some "M")]]

/-- The first star against its first shape. -/
def comingBackTask : Task := ⟨.asking "S" [("p", some "T"), ("r", some "M")], "b"⟩

/-- The answer reports the missing shape twice. -/
theorem comingBack_repeats : comingBackTask.shape ∈ comingBack.shapes.toList ∧
    ∃ b, (Memory.empty.bindAll comingBack [comingBackTask]).1 = [some b] ∧
      b.unresolved = [⟨"b", "r", "M"⟩, ⟨"b", "r", "M"⟩] ∧ ¬ b.unresolved.Nodup := by
  have hreport : (Memory.empty.bindAll comingBack [comingBackTask]).1.map
      (Option.map Bindings.unresolved) = [some [⟨"b", "r", "M"⟩, ⟨"b", "r", "M"⟩]] := by
    decide +kernel
  refine ⟨by decide +kernel, ?_⟩
  rw [List.map_eq_singleton_iff] at hreport
  obtain ⟨b?, hb, hsome⟩ := hreport
  obtain ⟨b, rfl, hunresolved⟩ := Option.map_eq_some_iff.mp hsome
  exact ⟨b, hb, hunresolved, by rw [hunresolved]; decide⟩

/-- It is asked for again on the way back. -/
theorem comingBack_askedAgain : comingBack.query.unions = [] ∧
    ∃ b, (Memory.empty.bind comingBack comingBackTask.shape comingBackTask.star).1 = some b ∧
      b.dependencies.Nodup ∧ b.nestedBound.Nodup ∧
      comingBack.AskedAgain {comingBackTask} comingBackTask ⟨"b", "r", "M"⟩ ∧
      b.unresolved.count ⟨"b", "r", "M"⟩ = 2 := by
  have hcalls : ∀ t ∈ [comingBackTask], t.shape ∈ comingBack.shapes.toList := by decide +kernel
  obtain ⟨-, hfirst⟩ := unrepeated_bindAll comingBack [comingBackTask] (injOn_of_loaded hcalls)
  have hsome : (Memory.empty.bind comingBack comingBackTask.shape comingBackTask.star).1.isSome =
      true := by decide +kernel
  obtain ⟨b, hb⟩ := Option.isSome_iff_exists.mp hsome
  have hunrepeated := hfirst comingBackTask List.mem_cons_self b hb
  have hq : comingBack.query.unions = [] := by decide +kernel
  have hasked : comingBack.AskedAgain {comingBackTask} comingBackTask ⟨"b", "r", "M"⟩ := by
    let earlier : Ray := ⟨⟨"b", "p", .var "c", false⟩, some "c"⟩
    let later : Ray := ⟨⟨"b", "r", .var "d", false⟩, some "d"⟩
    have hrays : ∃ c ∈ comingBack.query.candidates "b", c.rays.toList = [earlier, later] := by
      decide +kernel
    obtain ⟨c, hc, hrays⟩ := hrays
    have hlead : comingBack.Leads ⟨.asking "T" [("q", some "U")], "c"⟩
        ⟨.asking "U" [("p", none), ("r", some "M")], "b"⟩ := by
      rw [Leads]
      decide +kernel
    exact ⟨rfl, c, hc, earlier, later, hrays ▸ .refl _, ⟨rfl, by decide +kernel⟩, _, _,
      by decide +kernel, by decide +kernel, .single ⟨hlead, by decide +kernel⟩,
      rfl, c, hc, later, by simp [hrays], rfl, by decide +kernel⟩
  exact ⟨hq, b, hb, hunrepeated.dependencies, hunrepeated.nestedBound, hasked,
    hunrepeated.count_eq hq _ hasked⟩

end Scene

end StarShapes
