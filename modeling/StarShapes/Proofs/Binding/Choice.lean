import StarShapes.Proofs.Binding.Selection

/-!
Choice: what is found for a task in every order, and what in some.

* `Scene.Calm`: no task that a task leads to hinges on a circle. Then what is
  found is full exactly if the task conforms, on whatever was assumed on the way
  (`Finds.full_iff`).
* `Scene.MayHold`: a task that conforms or hinges on a circle. No others are
  found full (`Finds.mayHold`), and those that must hold always are.
* `Scene.MustTouch`, `Scene.MayTouch`: a triple is bound in every order, or may be
  in some (`Finds.count_pos_of_mustTouch`, `Finds.mayTouch_of_count_pos`).
* `mustTouch_of_mayTouch`: there is no difference unless the task leads, in one
  step, to one that hinges.
* `Scene.Picks`: the candidates that bindings found for a task may belong to
  (`exists_trial_picks`).
-/

namespace StarShapes

namespace Scene

variable {scene : Scene} {roots A X Y : Set Task} {t u : Task} {shape : Shape} {c : Star}
  {ray : Ray} {b : Bindings}

/-! ### Calm -/

/-- No task that a task leads to, itself included, hinges on a circle. -/
def Calm (scene : Scene) (t : Task) : Prop :=
  ∀ u, Relation.ReflTransGen scene.Leads t u → ¬ scene.Hinges u

lemma Calm.of_leads (h : scene.Calm t) (hl : scene.Leads t u) : scene.Calm u :=
  fun v hv => h v (.head hl hv)

/-- A task on no circle does not hinge. -/
lemma not_hinges_of_not_transGen (h : ¬ Relation.TransGen scene.Leads t t) :
    ¬ scene.Hinges t := by
  rintro ⟨hconf, hmates⟩
  refine hconf (hmates.conforms fun u hu => ?_)
  exact absurd (hu.2.1.trans hu.2.2) h

/-- A task may hold if it conforms or hinges on a circle. -/
def MayHold (scene : Scene) (t : Task) : Prop := scene.Conforms t ∨ scene.Hinges t

/-- What conforms on assumptions that lead to it may hold. -/
lemma ConformsIf.mayHold (h : scene.ConformsIf A t)
    (hA : ∀ a ∈ A, Relation.TransGen scene.Leads a t) : scene.MayHold t := by
  by_cases hconf : scene.Conforms t
  · exact Or.inl hconf
  · exact Or.inr ⟨hconf, h.mates hA⟩

/-- What is found full on assumptions that lead to it may hold. -/
lemma Finds.mayHold (h : scene.Finds roots A t b)
    (hA : ∀ a ∈ A, Relation.TransGen scene.Leads a t) (hfull : b.full = true) :
    scene.MayHold t :=
  (h.conformsIf hfull).mayHold hA

/-- On assumptions that lead to it, a task that does not hinge is found full
exactly if it conforms. -/
lemma Finds.full_iff (h : scene.Finds roots A t b)
    (hA : ∀ a ∈ A, Relation.TransGen scene.Leads a t) (ht : ¬ scene.Hinges t) :
    b.full = true ↔ scene.Conforms t :=
  ⟨fun hfull => (h.mayHold hA hfull).resolve_right ht, h.full_of_conforms⟩

/-! ### Rays that are bound in every order, and in some -/

/-- The tasks that a ray finds done in every order: the one that it comes from, which is taken
unseen, and those that must hold. -/
def musts (scene : Scene) (roots : Set Task) (t : Task) : Set Task :=
  insert t {u | scene.MustHold roots u}

/-- The tasks that a ray may find done in some order: those that lead to the one that it comes from,
which may be taken unseen, and those that may hold. -/
def mays (scene : Scene) (t : Task) : Set Task :=
  {u | Relation.TransGen scene.Leads u t ∨ scene.MayHold u}

/-- More rays pass where more tasks are done. -/
lemma Passes.mono (h : scene.Passes X shape ray)
    (hXY : ∀ u, scene.next? shape ray = some u → u ∈ X → u ∈ Y) : scene.Passes Y shape ray :=
  ⟨h.1, fun u hu => hXY u hu (h.2 u hu)⟩

section

variable {x : Trial}

/-- A ray that finds a task done in every order is bound. -/
lemma binds_of_passes (hans : scene.Answers roots (insert t A) t x)
    (hray : ray ∈ x.star.rays.toList) (h : scene.Passes (scene.musts roots t) t.shape ray) :
    scene.binds t.shape x.reply ray = true := by
  cases hu : scene.next? t.shape ray with
  | none => exact (binds_iff_passes hu _).mpr h
  | some u =>
      refine (binds_of_next?_eq_some hu).mpr fun n hn => ?_
      obtain ⟨hreached, hfinds⟩ := (hans ray hray u hu).2 n hn
      exact hfinds.full_of_mustHold ((h.2 u hu).resolve_left hreached.ne.symm)

/-- A ray is bound only if it finds a task done that is assumed or conforms on what is assumed. -/
lemma passes_held_of_binds (hans : scene.Answers roots (insert t A) t x)
    (hray : ray ∈ x.star.rays.toList) (h : scene.binds t.shape x.reply ray = true) :
    scene.Passes (scene.held (insert t A)) t.shape ray := by
  cases hu : scene.next? t.shape ray with
  | none => exact (binds_iff_passes hu _).mp h
  | some u =>
      refine (passes_iff_of_next? hu).mpr ?_
      obtain ⟨hnone, hsome⟩ := hans ray hray u hu
      cases hr : x.reply ray with
      | none => exact Or.inl (hnone hr)
      | some n =>
          exact Or.inr ((hsome n hr).2.conformsIf ((binds_of_next?_eq_some hu).mp h n hr))

/-- A ray is bound only if it may find a task done. -/
lemma passes_of_binds (hA : ∀ a ∈ A, Relation.TransGen scene.Leads a t)
    (hx : x.star ∈ scene.query.candidates t.star) (hans : scene.Answers roots (insert t A) t x)
    (hray : ray ∈ x.star.rays.toList) (h : scene.binds t.shape x.reply ray = true) :
    scene.Passes (scene.mays t) t.shape ray := by
  refine (passes_held_of_binds hans hray h).mono fun u hu hheld => ?_
  have hlead : scene.Leads t u := ⟨x.star, hx, ray, hray, hu⟩
  rcases hheld with (rfl | huA) | hconf
  · exact Or.inl (.single hlead)
  · exact Or.inl (hA u huA)
  · exact Or.inr (hconf.mayHold (transGen_of_mem_insert hA hlead))

end

/-! ### Shapes that touch a star -/

/-- A shape touches a star, where the tasks in `X` are done, if a ray of a candidate passes. -/
def Touches (scene : Scene) (X : Set Task) (t : Task) : Prop :=
  ∃ c ∈ scene.query.candidates t.star, ∃ ray ∈ c.rays.toList, scene.Passes X t.shape ray

/-- A shape touches a star in every order. -/
def MustTouch (scene : Scene) (roots : Set Task) (t : Task) : Prop :=
  scene.Touches (scene.musts roots t) t

/-- A shape may touch a star in some order. Nothing but the task itself is assumed where a way
starts. -/
def MayTouch (scene : Scene) (t : Task) : Prop := scene.Touches (scene.held {t}) t

/-- What is found has a bound triple if the shape touches the star in every order. -/
lemma Finds.count_pos_of_mustTouch (h : scene.Finds roots A t b) (ht : scene.MustTouch roots t) :
    0 < b.count := by
  cases hfull : b.full with
  | true => exact h.count_pos hfull
  | false =>
      obtain ⟨tried, rest, hcandidates, hpick, hrest, hans⟩ := finds_iff.mp h
      obtain ⟨c, hc, ray, hray, hpasses⟩ := ht
      -- all candidates were tried, and none has more bound triples than the best
      rw [hcandidates, hrest.resolve_right (by simp [hfull]), List.append_nil] at hc
      obtain ⟨x, hx, rfl⟩ := List.mem_map.mp hc
      have hpos : 0 < (x.outcome scene t.shape).count := by
        rw [Trial.outcome, count_tally]
        exact List.length_pos_of_mem
          (List.mem_filter.mpr ⟨hray, binds_of_passes (hans x hx) hray hpasses⟩)
      exact hpos.trans_le (Bindings.le_of_pick hpick hfull (List.mem_map_of_mem hx)).2

/-- What is found without assumption has a bound triple only if the shape may touch the star. -/
lemma Finds.mayTouch_of_count_pos (h : scene.Finds roots ∅ t b) (hpos : 0 < b.count) :
    scene.MayTouch t := by
  obtain ⟨tried, rest, hcandidates, hpick, -, hans⟩ := finds_iff.mp h
  obtain ⟨x, hx, rfl⟩ := exists_trial hpick
  rw [count_tally] at hpos
  obtain ⟨ray, hmem⟩ := List.exists_mem_of_length_pos hpos
  obtain ⟨hray, hbinds⟩ := List.mem_filter.mp hmem
  have hpasses := passes_held_of_binds (hans x hx) hray hbinds
  rw [insert_empty_eq] at hpasses
  exact ⟨x.star, mem_candidates_of_tried hcandidates hx, ray, hray, hpasses⟩

open Classical in
/-- The number of rays of a candidate that pass where the tasks in `X` are done. -/
noncomputable def score (scene : Scene) (X : Set Task) (shape : Shape) (c : Star) : Nat :=
  c.rays.toList.countP fun ray => scene.Passes X shape ray

/-- A candidate may prevail over those before and after it: none before it is full in every order;
and it may be full itself, or else none after it is full in every order and it may have more bound
triples than those before have in every order, and no fewer than those after. -/
structure Prevails (scene : Scene) (roots : Set Task) (t : Task) (before : List Star) (c : Star)
    (after : List Star) : Prop where
  /-- It comes to the turn of the candidate. -/
  turn : ∀ d ∈ before, ¬ d.Meets scene (scene.musts roots t) t.shape
  /-- It is full or the best. -/
  wins : c.Meets scene (scene.mays t) t.shape ∨
    (∀ d ∈ before, scene.score (scene.musts roots t) t.shape d <
      scene.score (scene.mays t) t.shape c) ∧
    ∀ d ∈ after, ¬ d.Meets scene (scene.musts roots t) t.shape ∧
      scene.score (scene.musts roots t) t.shape d ≤ scene.score (scene.mays t) t.shape c

/-- The candidates that the bindings found for a task may belong to. -/
def Picks (scene : Scene) (roots : Set Task) (t : Task) (c : Star) : Prop :=
  ∃ before after, scene.query.candidates t.star = before ++ c :: after ∧
    scene.Prevails roots t before c after

lemma Picks.mem_candidates (h : scene.Picks roots t c) : c ∈ scene.query.candidates t.star := by
  obtain ⟨before, after, hcandidates, -⟩ := h
  exact hcandidates ▸ List.mem_append_right _ List.mem_cons_self

section

variable {x : Trial}

lemma full_of_meets (hans : scene.Answers roots (insert t A) t x)
    (h : x.star.Meets scene (scene.musts roots t) t.shape) :
    (x.outcome scene t.shape).full = true := by
  obtain ⟨hne, hall⟩ := meets_iff.mp h
  exact full_tally_iff.mpr ⟨hne, fun ray hray => binds_of_passes hans hray (hall ray hray)⟩

lemma score_le_count (hans : scene.Answers roots (insert t A) t x) :
    scene.score (scene.musts roots t) t.shape x.star ≤ (x.outcome scene t.shape).count := by
  rw [Trial.outcome, count_tally, ← List.countP_eq_length_filter]
  refine List.countP_mono_left fun ray hray h => ?_
  exact binds_of_passes hans hray (by simpa only [decide_eq_true_eq] using h)

lemma meets_of_full (hA : ∀ a ∈ A, Relation.TransGen scene.Leads a t)
    (hx : x.star ∈ scene.query.candidates t.star) (hans : scene.Answers roots (insert t A) t x)
    (h : (x.outcome scene t.shape).full = true) :
    x.star.Meets scene (scene.mays t) t.shape := by
  obtain ⟨hne, hbinds⟩ := full_tally_iff.mp h
  exact meets_iff.mpr ⟨hne, fun ray hray => passes_of_binds hA hx hans hray (hbinds ray hray)⟩

lemma count_le_score (hA : ∀ a ∈ A, Relation.TransGen scene.Leads a t)
    (hx : x.star ∈ scene.query.candidates t.star) (hans : scene.Answers roots (insert t A) t x) :
    (x.outcome scene t.shape).count ≤ scene.score (scene.mays t) t.shape x.star := by
  rw [Trial.outcome, count_tally, ← List.countP_eq_length_filter]
  refine List.countP_mono_left fun ray hray h => ?_
  simpa only [decide_eq_true_eq] using passes_of_binds hA hx hans hray h

end

/-- The bindings found belong to a candidate that may be chosen. -/
lemma exists_trial_picks {tried : List Trial} {rest : List Star}
    (hcandidates : scene.query.candidates t.star = tried.map Trial.star ++ rest)
    (hpick : Bindings.pick (tried.map (Trial.outcome scene t.shape)) none = some b)
    (hrest : rest = [] ∨ b.full = true)
    (hans : ∀ x ∈ tried, scene.Answers roots (insert t A) t x)
    (hA : ∀ a ∈ A, Relation.TransGen scene.Leads a t) :
    ∃ x ∈ tried, b = x.outcome scene t.shape ∧ scene.Picks roots t x.star := by
  obtain ⟨before, after, hmap, hbefore, hwins⟩ :=
    (Bindings.split_of_pick hpick).resolve_right (by simp)
  obtain ⟨before, tail, rfl, rfl, htail⟩ := List.map_eq_append_iff.mp hmap
  obtain ⟨x, after, rfl, rfl, rfl⟩ := List.map_eq_cons_iff.mp htail
  rw [List.forall_mem_map] at hbefore
  have hx : x ∈ before ++ x :: after := by simp
  have hxcount := count_le_score hA (mem_candidates_of_tried hcandidates hx) (hans x hx)
  -- a trial that is not full is one of a candidate that is not full in every order
  have hnot : ∀ y ∈ before ++ x :: after, (y.outcome scene t.shape).full = false →
      ¬ y.star.Meets scene (scene.musts roots t) t.shape := by
    intro y hy hfalse hmeets
    rw [full_of_meets (hans y hy) hmeets] at hfalse
    cases hfalse
  refine ⟨x, hx, rfl, before.map Trial.star, after.map Trial.star ++ rest, ?_, ?_, ?_⟩
  · rw [hcandidates]
    simp
  · rw [List.forall_mem_map]
    exact fun y hy => hnot y (List.mem_append_left _ hy) (hbefore y hy)
  · by_cases hfull : (x.outcome scene t.shape).full = true
    · exact Or.inl
        (meets_of_full hA (mem_candidates_of_tried hcandidates hx) (hans x hx) hfull)
    · obtain ⟨hmore, hafter, -⟩ := hwins.resolve_left hfull
      rw [hrest.resolve_right hfull, List.append_nil, List.forall_mem_map, List.forall_mem_map]
      rw [List.forall_mem_map] at hmore hafter
      refine Or.inr ⟨fun y hy => ?_, fun y hy => ?_⟩
      · have hymem : y ∈ before ++ x :: after := List.mem_append_left _ hy
        exact (score_le_count (hans y hymem)).trans_lt ((hmore y hy).trans_le hxcount)
      · have hymem : y ∈ before ++ x :: after :=
          List.mem_append_right _ (List.mem_cons_of_mem x hy)
        obtain ⟨hfalse, hle⟩ := hafter y hy
        exact ⟨hnot y hymem hfalse, (score_le_count (hans y hymem)).trans (hle.trans hxcount)⟩

/-- No two candidates prevail over each other where what may hold must. -/
lemma Prevails.asymm {before after before' after' : List Star} {c' : Star}
    (h : scene.Prevails roots t before c after) (h' : scene.Prevails roots t before' c' after')
    (hmust : ∀ u, scene.Leads t u → u ∈ scene.mays t → u ∈ scene.musts roots t)
    (hmem : c ∈ scene.query.candidates t.star) (hmem' : c' ∈ scene.query.candidates t.star)
    (hc : c ∈ before') : c' ∉ after := by
  intro hc'
  have hpasses : ∀ d ∈ scene.query.candidates t.star, ∀ ray ∈ d.rays.toList,
      scene.Passes (scene.mays t) t.shape ray → scene.Passes (scene.musts roots t) t.shape ray :=
    fun d hd ray hray hpass => hpass.mono fun u hu => hmust u ⟨d, hd, ray, hray, hu⟩
  have hmeets : ∀ d ∈ scene.query.candidates t.star, d.Meets scene (scene.mays t) t.shape →
      d.Meets scene (scene.musts roots t) t.shape := fun d hd hm => by
    obtain ⟨hne, hall⟩ := meets_iff.mp hm
    exact meets_iff.mpr ⟨hne, fun ray hray => hpasses d hd ray hray (hall ray hray)⟩
  have hscore : ∀ d ∈ scene.query.candidates t.star, scene.score (scene.mays t) t.shape d ≤
      scene.score (scene.musts roots t) t.shape d := fun d hd => by
    refine List.countP_mono_left fun ray hray hpass => ?_
    simp only [decide_eq_true_eq] at hpass ⊢
    exact hpasses d hd ray hray hpass
  have hwins := h.wins.resolve_left fun hm => h'.turn c hc (hmeets c hmem hm)
  obtain ⟨hnot, hle⟩ := hwins.2 c' hc'
  have hwins' := h'.wins.resolve_left fun hm => hnot (hmeets c' hmem' hm)
  -- each would have more bound triples than the other
  have hlt := hwins'.1 c hc
  exact absurd (hlt.trans_le (hscore c' hmem')) (not_lt.mpr (hle.trans (hscore c hmem)))

/-- One candidate at most may be chosen where what may hold must. -/
lemma Picks.unique {c' : Star} (h : scene.Picks roots t c) (h' : scene.Picks roots t c')
    (hmust : ∀ u, scene.Leads t u → u ∈ scene.mays t → u ∈ scene.musts roots t) : c = c' := by
  have hmem := h.mem_candidates
  have hmem' := h'.mem_candidates
  obtain ⟨before, after, hcandidates, hprevails⟩ := h
  obtain ⟨before', after', hcandidates', hprevails'⟩ := h'
  rw [hcandidates] at hcandidates'
  rcases List.append_eq_append_iff.mp hcandidates' with ⟨l, hl, hr⟩ | ⟨l, hl, hr⟩
  · cases l with
    | nil => exact (List.cons.inj hr).1
    | cons d l =>
        obtain ⟨rfl, hafter⟩ := List.cons.inj hr
        exact absurd (hafter ▸ by simp) (hprevails.asymm hprevails' hmust hmem hmem' (hl ▸ by simp))
  · cases l with
    | nil => exact (List.cons.inj hr).1.symm
    | cons d l =>
        obtain ⟨rfl, hafter⟩ := List.cons.inj hr
        exact absurd (hafter ▸ by simp) (hprevails'.asymm hprevails hmust hmem' hmem (hl ▸ by simp))

end Scene

end StarShapes
