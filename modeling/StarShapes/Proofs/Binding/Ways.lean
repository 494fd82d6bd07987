import StarShapes.Proofs.Binding.Choice

/-!
Ways: which full dependencies bindings report in every order, and which in some.

* `Scene.MustFollow`, `Scene.MayFollow`: every candidate that may be chosen for a
  task has a ray that is left to another task, or some has.
* `Scene.Way`: a way of the first kind of steps on which no task comes up twice.
* `Scene.MustExplain`: the last steps of ways that have not passed the task they
  lead to, if this must hold. They are reported whatever is found for a root
  (`MustExplain.exists_dependency`).
* `Scene.MayExplain`: the steps behind the full dependencies that can be found for
  a root (`Finds.mayExplain_of_mem_dependencies`).
* `Scene.Plain`: no task with several candidates leads to a circle. Then, on tasks
  that are calm, there is no difference (`MayExplain.must`).
-/

namespace StarShapes

namespace Scene

variable {scene : Scene} {roots A S S' : Set Task} {t u v w : Task} {b : Bindings}

/-! ### Steps along candidates that may be chosen -/

/-- Every candidate that may be chosen for a task has a ray that is left to the other task. -/
def MustFollow (scene : Scene) (roots : Set Task) (t u : Task) : Prop :=
  ∀ c, scene.Picks roots t c → ∃ ray ∈ c.rays.toList, scene.next? t.shape ray = some u

/-- Some candidate that may be chosen for a task has a ray that is left to the other task. -/
def MayFollow (scene : Scene) (roots : Set Task) (t u : Task) : Prop :=
  ∃ c, scene.Picks roots t c ∧ ∃ ray ∈ c.rays.toList, scene.next? t.shape ray = some u

lemma MayFollow.leads (h : scene.MayFollow roots t u) : scene.Leads t u := by
  obtain ⟨c, hc, hray⟩ := h
  exact ⟨c, hc.mem_candidates, hray⟩

/-! ### Ways -/

/-- A way from one task to another, along all candidates that may be chosen, that avoids a set of
tasks and passes no task twice. -/
inductive Way (scene : Scene) (roots : Set Task) : Set Task → Task → Task → Prop
  | here {S : Set Task} {t : Task} (ht : t ∉ S) : Way scene roots S t t
  | there {S : Set Task} {t u v : Task} (ht : t ∉ S) (hstep : scene.MustFollow roots t u)
      (hrest : Way scene roots (insert t S) u v) : Way scene roots S t v

lemma Way.notMem (h : scene.Way roots S t v) : t ∉ S := by
  cases h with
  | here ht => exact ht
  | there ht _ _ => exact ht

lemma Way.anti (h : scene.Way roots S t v) (hS : S' ⊆ S) : scene.Way roots S' t v := by
  induction h generalizing S' with
  | here ht => exact .here fun h => ht (hS h)
  | there ht hstep _ ih =>
      exact .there (fun h => ht (hS h)) hstep (ih (Set.insert_subset_insert hS))

/-- A way avoids a task, or else the task is on it and a way starts there. -/
lemma Way.avoids_or (h : scene.Way roots S u v) (t : Task) :
    scene.Way roots (insert t S) u v ∨ scene.Way roots S t v := by
  induction h with
  | @here S u hu =>
      by_cases he : u = t
      · exact Or.inr (he ▸ .here hu)
      · refine Or.inl (.here ?_)
        rintro (he' | huS)
        · exact he he'
        · exact hu huS
  | @there S u y v hu hstep hrest ih =>
      by_cases he : u = t
      · exact Or.inr (he ▸ .there hu hstep hrest)
      · rcases ih with h | h
        · refine Or.inl (.there ?_ hstep (Set.insert_comm t u S ▸ h))
          rintro (he' | huS)
          · exact he he'
          · exact hu huS
        · exact Or.inr (h.anti (Set.subset_insert u S))

/-- A step to the start of a way makes a way, where circles are cut out. -/
lemma Way.cons (hstep : scene.MustFollow roots t u) (ht : t ∉ S) (h : scene.Way roots S u v) :
    scene.Way roots S t v := by
  rcases h.avoids_or t with h | h
  · exact .there ht hstep h
  · exact h

/-- Steps that avoid a task make a way. -/
lemma way_of_reflTransGen (ht : t ≠ w)
    (h : Relation.ReflTransGen (fun x y => scene.MustFollow roots x y ∧ x ≠ w ∧ y ≠ w) t v) :
    scene.Way roots {w} t v := by
  induction h using Relation.ReflTransGen.head_induction_on with
  | refl => exact .here ht
  | head hstep _ ih => exact (ih hstep.2.2).cons hstep.1 hstep.2.1

/-! ### Dependencies that are reported in every order -/

/-- A step along all candidates that may be chosen, to a task that is not assumed, is a ray that
was answered. -/
lemma Finds.exists_reply (h : scene.Finds roots A t b)
    (hA : ∀ a ∈ A, Relation.TransGen scene.Leads a t) (hstep : scene.MustFollow roots t u)
    (hu : u ∉ insert t A) :
    ∃ (x : Trial) (ray : Ray) (n : Bindings), b = x.outcome scene t.shape ∧
      x.star.name = t.star ∧ ray ∈ x.star.rays.toList ∧ scene.next? t.shape ray = some u ∧
        x.reply ray = some n ∧ scene.Leads t u ∧ scene.Finds roots (insert t A) u n := by
  obtain ⟨tried, rest, hcandidates, hpick, hrest, hans⟩ := finds_iff.mp h
  obtain ⟨x, hx, rfl, hpicks⟩ := exists_trial_picks hcandidates hpick hrest hans hA
  obtain ⟨ray, hray, hnext⟩ := hstep x.star hpicks
  have hmem : x.star ∈ scene.query.candidates t.star := mem_candidates_of_tried hcandidates hx
  obtain ⟨hnone, hsome⟩ := hans x hx ray hray u hnext
  cases hr : x.reply ray with
  | none => exact absurd (hnone hr) hu
  | some n =>
      exact ⟨x, ray, n, rfl, Query.name_of_mem_candidates hmem, hray, hnext, hr,
        ⟨x.star, hmem, ray, hray, hnext⟩, (hsome n hr).2⟩

/-- The last step of a way that has passed neither the task it leads to nor what
was assumed is reported, in full if that task must hold. -/
lemma Finds.dependency_of_way (hway : scene.Way roots S t v) (hlast : scene.MustFollow roots v u)
    (huS : u ∈ S) (hmust : scene.MustHold roots u) (h : scene.Finds roots A t b) (hAS : A ⊆ S)
    (huA : u ∉ A) (hA : ∀ a ∈ A, Relation.TransGen scene.Leads a t) :
    ∃ d ∈ b.dependencies, d.full = true ∧ d.origin = v.star ∧ d.nested = u.star ∧
      d.target = u.shape.name := by
  induction hway generalizing A b with
  | @here S t ht =>
      have hnew : u ∉ insert t A := fun h => h.elim (fun he => ht (he ▸ huS)) huA
      obtain ⟨x, ray, n, rfl, hname, hray, hu, hr, -, hfinds⟩ := h.exists_reply hA hlast hnew
      exact ⟨_, mem_dependencies_tally.mpr ⟨ray, hray, u, n, hu, hr, Or.inl rfl⟩,
        hfinds.full_of_mustHold hmust, hname, rfl, rfl⟩
  | @there S t y v ht hstep hrest ih =>
      have hnew : u ∉ insert t A := fun h => h.elim (fun he => ht (he ▸ huS)) huA
      have hy : y ∉ insert t A := fun hmem => hrest.notMem (Set.insert_subset_insert hAS hmem)
      obtain ⟨x, ray, n, rfl, -, hray, hnext, hr, hlead, hfinds⟩ := h.exists_reply hA hstep hy
      obtain ⟨d, hd, h⟩ := ih hlast (Set.mem_insert_of_mem t huS) hfinds
        (Set.insert_subset_insert hAS) hnew (transGen_of_mem_insert hA hlead)
      exact ⟨d, mem_dependencies_tally.mpr ⟨ray, hray, y, n, hnext, hr, Or.inr hd⟩, h⟩

/-- A step that explains the task it leads to in every order: a way from a root comes to the step
without passing the task, and the task must hold. -/
structure MustExplain (scene : Scene) (roots : Set Task) (v u : Task) : Prop where
  /-- A way that avoids the task comes from a root. -/
  way : ∃ r ∈ roots, scene.Way roots {u} r v
  /-- The step is along all candidates that may be chosen. -/
  follows : scene.MustFollow roots v u
  /-- The task must hold. -/
  holds : scene.MustHold roots u

/-- A step that explains in every order is reported as a full dependency, whatever is found for the
root. -/
lemma MustExplain.exists_dependency (h : scene.MustExplain roots v u) :
    ∃ r ∈ roots, ∀ b, scene.Finds roots ∅ r b → ∃ d ∈ b.dependencies, d.full = true ∧
      d.origin = v.star ∧ d.nested = u.star ∧ d.target = u.shape.name := by
  obtain ⟨r, hr, hway⟩ := h.way
  refine ⟨r, hr, fun b hb => ?_⟩
  exact hb.dependency_of_way hway h.follows (Set.mem_singleton u) h.holds (Set.empty_subset _)
    (Set.notMem_empty u) fun a ha => absurd ha (Set.notMem_empty a)

/-! ### Dependencies that are reported in some order -/

/-- A step that may explain the task it leads to in some order: steps along candidates that may be
chosen come to it from a root, the place it starts from can be reached without passing the task, and
the task may hold. -/
structure MayExplain (scene : Scene) (roots : Set Task) (v u : Task) : Prop where
  /-- Steps come from a root. -/
  steps : ∃ r ∈ roots, Relation.ReflTransGen (scene.MayFollow roots) r v
  /-- The step is along a candidate that may be chosen. -/
  follows : scene.MayFollow roots v u
  /-- Some way from a root comes to the step without passing the task. -/
  reached : scene.ReachedWithout roots u v
  /-- The task may hold. -/
  holds : scene.MayHold u

/-- A full dependency that bindings report is a step that may explain, if the task itself is reached
from a root. -/
lemma Finds.mayExplain_of_mem_dependencies (h : scene.Finds roots A t b)
    (hA : ∀ a ∈ A, Relation.TransGen scene.Leads a t)
    (hroot : ∃ r ∈ roots, Relation.ReflTransGen (scene.MayFollow roots) r t) {d : Dependency}
    (hd : d ∈ b.dependencies) (hfull : d.full = true) :
    ∃ v u, scene.MayExplain roots v u ∧ d.origin = v.star ∧ d.nested = u.star ∧
      d.target = u.shape.name := by
  induction h with
  | @intro A t b tried rest hcandidates hpick hrest hunseen hreached hfound ih =>
      have hans : ∀ x ∈ tried, scene.Answers roots (insert t A) t x := fun x hx ray hray u hu =>
        ⟨hunseen x hx ray hray u hu,
          fun n hn => ⟨hreached x hx ray hray u n hu hn, hfound x hx ray hray u n hu hn⟩⟩
      obtain ⟨x, hx, rfl, hpicks⟩ := exists_trial_picks hcandidates hpick hrest hans hA
      obtain ⟨ray, hray, u, n, hu, hn, hd⟩ := mem_dependencies_tally.mp hd
      have hfollows : scene.MayFollow roots t u := ⟨x.star, hpicks, ray, hray, hu⟩
      have hA' := transGen_of_mem_insert hA hfollows.leads
      rcases hd with rfl | hd
      · have hname : x.star.name = t.star := Query.name_of_mem_candidates hpicks.mem_candidates
        exact ⟨t, u, ⟨hroot, hfollows, hreached x hx ray hray u n hu hn,
          (hfound x hx ray hray u n hu hn).mayHold hA' hfull⟩, hname, rfl, rfl⟩
      · obtain ⟨r, hr, hsteps⟩ := hroot
        exact ih x hx ray hray u n hu hn hA' ⟨r, hr, hsteps.tail hfollows⟩ hd

/-! ### Where the order makes no difference -/

/-- No task that a task leads to, itself included, leads to a circle if it has
several candidates. -/
def Plain (scene : Scene) (t : Task) : Prop :=
  ∀ u, Relation.ReflTransGen scene.Leads t u → (scene.query.candidates u.star).length ≤ 1 ∨
    ∀ v, Relation.ReflTransGen scene.Leads u v → ¬ Relation.TransGen scene.Leads v v

lemma Plain.of_leads (h : scene.Plain t) (hl : scene.Leads t u) : scene.Plain u :=
  fun v hv => h v (.head hl hv)

/-- The only candidate of a task is the one that is chosen. -/
lemma mustFollow_of_leads (hone : (scene.query.candidates t.star).length ≤ 1)
    (h : scene.Leads t u) : scene.MustFollow roots t u := by
  obtain ⟨c, hc, hray⟩ := h
  intro c' hc'
  obtain ⟨d, hd⟩ := List.length_eq_one_iff.mp (le_antisymm hone (List.length_pos_of_mem hc))
  have hmem := hc'.mem_candidates
  rw [hd, List.mem_singleton] at hc hmem
  exact hmem ▸ hc ▸ hray

/-- Where a task is calm and plain, one candidate at most may be chosen. -/
lemma MayFollow.must (h : scene.MayFollow roots t u) (hcalm : scene.Calm t)
    (hplain : scene.Plain t) : scene.MustFollow roots t u := by
  rcases hplain t .refl with hone | hcircle
  · exact mustFollow_of_leads hone h.leads
  · obtain ⟨c, hc, hray⟩ := h
    refine fun c' hc' => hc.unique hc' (fun v hv hmay => ?_) ▸ hray
    rcases hmay with hvt | hhold
    · exact absurd (hvt.tail hv) (hcircle v (.single hv))
    · exact Or.inr (hhold.resolve_right (hcalm v (.single hv))).mustHold

/-- Steps avoid a task or come from it. -/
lemma way_or_steps (hcalm : scene.Calm t) (hplain : scene.Plain t)
    (h : Relation.ReflTransGen (scene.MayFollow roots) t v) (hv : v ≠ w) :
    scene.Way roots {w} t v ∨ Relation.ReflTransGen (scene.MayFollow roots) w v := by
  induction h using Relation.ReflTransGen.head_induction_on with
  | refl => exact Or.inl (.here hv)
  | @head t y hstep hrest ih =>
      rcases ih (hcalm.of_leads hstep.leads) (hplain.of_leads hstep.leads) with h | h
      · by_cases ht : t = w
        · exact Or.inr (ht ▸ .head hstep hrest)
        · exact Or.inl (h.cons (hstep.must hcalm hplain) ht)
      · exact Or.inr h

/-- Where a task leads to a circle, a way on which all candidates were tried is
one along chosen candidates. -/
lemma way_of_reachedWithout (hplain : ∀ r ∈ roots, scene.Plain r)
    (h : scene.ReachedWithout roots w v) (hcircle : Relation.TransGen scene.Leads v v) :
    ∃ r ∈ roots, scene.Way roots {w} r v := by
  have hsteps : ∀ t, scene.ReachedWithout roots w t → Relation.ReflTransGen scene.Leads t v →
      ∃ r ∈ roots, r ≠ w ∧ Relation.ReflTransGen scene.Leads r t ∧
        Relation.ReflTransGen (fun x y => scene.MustFollow roots x y ∧ x ≠ w ∧ y ≠ w) r t := by
    intro t ht
    induction ht with
    | @root t hroot hne => exact fun _ => ⟨t, hroot, hne, .refl, .refl⟩
    | @step t u ht hl hne ih =>
        intro huv
        obtain ⟨r, hr, hrw, hrt, hrt'⟩ := ih (.head hl huv)
        have hone : (scene.query.candidates t.star).length ≤ 1 :=
          (hplain r hr t hrt).resolve_right fun hno => hno v (.head hl huv) hcircle
        exact ⟨r, hr, hrw, hrt.tail hl, hrt'.tail ⟨mustFollow_of_leads hone hl, ht.ne, hne⟩⟩
  obtain ⟨r, hr, hrw, -, hsteps⟩ := hsteps v h .refl
  exact ⟨r, hr, way_of_reflTransGen hrw hsteps⟩

/-- Where all roots are calm and plain, a step that may explain does in every order. -/
lemma MayExplain.must (h : scene.MayExplain roots v u) (hcalm : ∀ r ∈ roots, scene.Calm r)
    (hplain : ∀ r ∈ roots, scene.Plain r) : scene.MustExplain roots v u := by
  obtain ⟨⟨r, hr, hsteps⟩, hfollows, hreached, hhold⟩ := h
  have hlead : Relation.ReflTransGen scene.Leads r v :=
    Relation.ReflTransGen.mono (fun _ _ hf => hf.leads) _ _ hsteps
  have hcalm' : scene.Calm v := fun x hx => hcalm r hr x (hlead.trans hx)
  have hplain' : scene.Plain v := fun x hx => hplain r hr x (hlead.trans hx)
  refine ⟨?_, hfollows.must hcalm' hplain',
    (hhold.resolve_right (hcalm' u (.single hfollows.leads))).mustHold⟩
  rcases way_or_steps (hcalm r hr) (hplain r hr) hsteps hreached.ne with hway | huv
  · exact ⟨r, hr, hway⟩
  · -- the step is on a circle: the way that was taken first avoids its end
    have hcircle : Relation.TransGen scene.Leads v v :=
      .head' hfollows.leads (Relation.ReflTransGen.mono (fun _ _ hf => hf.leads) _ _ huv)
    exact way_of_reachedWithout hplain hreached hcircle

end Scene

end StarShapes
