import StarShapes.Proofs.Binding.Conformance
import StarShapes.Proofs.Query.Candidates

/-!
Findings: which bindings a task can come to, said without memory.

A task is tried candidate by candidate. Each ray that a candidate leaves to
another task is either answered by bindings found for that task, or taken
unseen because the task is assumed.

* `Bindings.pick`: of several bindings the first that are full, or else the
  best (`Bindings.split_of_pick`).
* `Scene.Finds`: the bindings `b` can be found for the task `t` where the tasks
  in `A` are assumed. What is assumed while a ray is followed includes the task
  that the ray belongs to.
* `Scene.MustHold`: a task that conforms, or only asks back for tasks that cannot
  but be assumed.
* `Finds.full_of_mustHold`, `Finds.full_of_conforms`, `Finds.conformsIf`: full
  bindings are found for every task that must hold, such as those that conform,
  and only for tasks that conform if those in `A` do.
* `Finds.full_iff_conforms`: what is found without assumption is full exactly if
  the task conforms.
* `Finds.task_of_mem_dependencies`: what the dependencies report, found at any
  distance and on assumptions, is true of the task up to its circles.
-/

namespace StarShapes

/-! ### The best of several bindings -/

/-- The first bindings of a list that are full; if there are none, the best of
the list and of what there was before. -/
def Bindings.pick : List Bindings → Option Bindings → Option Bindings
  | [], best? => best?
  | b :: rest, best? => if b.full then some b else pick rest (some (better best? b))

/-- The better bindings are the later ones if they have more bound triples than the earlier ones. -/
lemma Bindings.better_cases (best? : Option Bindings) (b : Bindings) :
    (better best? b = b ∧ ∀ best, best? = some best → best.count < b.count) ∨
      ∃ best, best? = some best ∧ better best? b = best ∧ b.count ≤ best.count := by
  cases best? with
  | none => exact Or.inl ⟨rfl, by simp⟩
  | some best =>
      rw [better]
      split
      · rename_i hlt
        exact Or.inl ⟨rfl, by rintro _ ⟨⟩; exact hlt⟩
      · rename_i hlt
        exact Or.inr ⟨best, rfl, rfl, not_lt.mp hlt⟩

lemma Bindings.better_eq_or (best? : Option Bindings) (b : Bindings) :
    better best? b = b ∨ best? = some (better best? b) :=
  (better_cases best? b).imp And.left fun ⟨_, hbest, he, _⟩ => hbest.trans (congrArg some he.symm)

/-- The better bindings have no fewer bound triples than the others. -/
lemma Bindings.count_le_better (best? : Option Bindings) (b : Bindings) :
    b.count ≤ (better best? b).count ∧
      ∀ best, best? = some best → best.count ≤ (better best? b).count := by
  rcases better_cases best? b with ⟨he, hlt⟩ | ⟨best, rfl, he, hle⟩ <;> rw [he]
  · exact ⟨le_rfl, fun best h => (hlt best h).le⟩
  · exact ⟨hle, by rintro _ ⟨⟩; exact le_rfl⟩

/-- What is picked has its place on the list, or was there before. Nothing before this place is
full. If the bindings picked are not full, then nothing after them is, and they have more bound
triples than those before and no fewer than those after. -/
lemma Bindings.split_of_pick {l : List Bindings} {best? : Option Bindings} {b : Bindings}
    (h : pick l best? = some b) :
    (∃ before after, l = before ++ b :: after ∧ (∀ c ∈ before, c.full = false) ∧
      (b.full = true ∨ (∀ c ∈ before, c.count < b.count) ∧
        (∀ c ∈ after, c.full = false ∧ c.count ≤ b.count) ∧
          ∀ best, best? = some best → best.count < b.count)) ∨
      best? = some b ∧ ∀ c ∈ l, c.full = false ∧ c.count ≤ b.count := by
  induction l generalizing best? with
  | nil => exact Or.inr ⟨h, by simp⟩
  | cons a l ih =>
      rw [pick] at h
      split at h
      · rename_i ha
        obtain rfl := Option.some.inj h
        exact Or.inl ⟨[], l, rfl, by simp, Or.inl ha⟩
      · rename_i ha
        rw [Bool.not_eq_true] at ha
        rcases ih h with ⟨before, after, rfl, hbefore, hwins⟩ | ⟨hb, hl⟩
        · obtain ⟨hcount, hbest⟩ := count_le_better best? a
          refine Or.inl ⟨a :: before, after, rfl, List.forall_mem_cons.mpr ⟨ha, hbefore⟩, ?_⟩
          refine hwins.imp_right fun ⟨hmore, hafter, hlt⟩ =>
            ⟨List.forall_mem_cons.mpr ⟨hcount.trans_lt (hlt _ rfl), hmore⟩, hafter, ?_⟩
          exact fun best h => (hbest best h).trans_lt (hlt _ rfl)
        · -- nothing further on is picked: it is `a`, or what was best before
          obtain rfl := Option.some.inj hb
          rcases better_cases best? a with ⟨he, hlt⟩ | ⟨best, rfl, he, hle⟩ <;> rw [he] at hl ⊢
          · exact Or.inl ⟨[], l, rfl, by simp, Or.inr ⟨by simp, hl, hlt⟩⟩
          · exact Or.inr ⟨rfl, List.forall_mem_cons.mpr ⟨⟨ha, hle⟩, hl⟩⟩

/-- What is picked was on the list or there before. -/
lemma Bindings.mem_of_pick {l : List Bindings} {best? : Option Bindings} {b : Bindings}
    (h : pick l best? = some b) : b ∈ l ∨ best? = some b := by
  rcases split_of_pick h with ⟨before, after, rfl, -⟩ | ⟨hb, -⟩
  · exact Or.inl (List.mem_append_right _ List.mem_cons_self)
  · exact Or.inr hb

/-- If what is picked is not full, then nothing on the list is, nor has more bound triples. -/
lemma Bindings.le_of_pick {l : List Bindings} {best? : Option Bindings} {b : Bindings}
    (h : pick l best? = some b) (hfull : b.full = false) {c : Bindings} (hc : c ∈ l) :
    c.full = false ∧ c.count ≤ b.count := by
  rcases split_of_pick h with ⟨before, after, rfl, hbefore, hwins⟩ | ⟨-, hl⟩
  · obtain ⟨hmore, hafter, -⟩ := hwins.resolve_left (by simp [hfull])
    rcases List.mem_append.mp hc with hc | hc
    · exact ⟨hbefore c hc, (hmore c hc).le⟩
    · rcases List.mem_cons.mp hc with rfl | hc
      · exact ⟨hfull, le_rfl⟩
      · exact hafter c hc
  · exact hl c hc

/-- If something on the list is full, what is picked is. -/
lemma Bindings.full_of_pick {l : List Bindings} {best? : Option Bindings} {b : Bindings}
    (h : pick l best? = some b) {c : Bindings} (hc : c ∈ l) (hfull : c.full = true) :
    b.full = true := by
  by_contra hb
  rw [(le_of_pick h (by simpa using hb) hc).1] at hfull
  cases hfull

/-- The first full bindings of a list are picked. -/
lemma Bindings.pick_eq_of_find? {l : List Bindings} {best? : Option Bindings} {b : Bindings}
    (h : l.find? Bindings.full = some b) : pick l best? = some b := by
  induction l generalizing best? with
  | nil => cases h
  | cons c l ih =>
      rw [pick]
      cases hc : c.full with
      | true =>
          rw [List.find?_cons_of_pos hc] at h
          exact h
      | false =>
          rw [List.find?_cons_of_neg (by simp [hc])] at h
          exact ih h

namespace Scene

/-! ### What is found for a task -/

/-- A task is reached from one of the roots on a way that avoids `w`. -/
inductive ReachedWithout (scene : Scene) (roots : Set Task) (w : Task) : Task → Prop
  | root {t : Task} (h : t ∈ roots) (hne : t ≠ w) : ReachedWithout scene roots w t
  | step {t u : Task} (h : ReachedWithout scene roots w t) (hl : scene.Leads t u) (hne : u ≠ w) :
      ReachedWithout scene roots w u

/-- What a way avoids is not its end. -/
lemma ReachedWithout.ne {scene : Scene} {roots : Set Task} {w t : Task}
    (h : scene.ReachedWithout roots w t) : t ≠ w := by
  cases h with
  | root _ hne => exact hne
  | step _ _ hne => exact hne

/-- A candidate that is tried, with the bindings that its rays were answered
by. -/
structure Trial where
  /-- The candidate. -/
  star : Star
  /-- The bindings found at the other end of a ray; none if it was taken
  unseen. -/
  reply : Ray → Option Bindings

/-- The bindings that a trial comes to. -/
def Trial.outcome (scene : Scene) (shape : Shape) (x : Trial) : Bindings :=
  scene.tally shape x.reply x.star

/-- The bindings `b` can be found for a task where those in `A` are assumed:
the candidates are tried in turn, up to the first that is bound in full, and
every ray left to another task is answered by bindings found for it, or else
this task is assumed or the current one. A ray is followed only on a way from a
root that has not passed the task at its other end. -/
inductive Finds (scene : Scene) (roots : Set Task) : Set Task → Task → Bindings → Prop
  | intro {A : Set Task} {t : Task} {b : Bindings} (tried : List Trial) (rest : List Star)
      (hcandidates : scene.query.candidates t.star = tried.map Trial.star ++ rest)
      (hpick : Bindings.pick (tried.map (Trial.outcome scene t.shape)) none = some b)
      (hrest : rest = [] ∨ b.full = true)
      (hunseen : ∀ x ∈ tried, ∀ ray ∈ x.star.rays.toList, ∀ u,
        scene.next? t.shape ray = some u → x.reply ray = none → u ∈ insert t A)
      (hreached : ∀ x ∈ tried, ∀ ray ∈ x.star.rays.toList, ∀ u n,
        scene.next? t.shape ray = some u → x.reply ray = some n →
          scene.ReachedWithout roots u t)
      (hfound : ∀ x ∈ tried, ∀ ray ∈ x.star.rays.toList, ∀ u n,
        scene.next? t.shape ray = some u → x.reply ray = some n →
          Finds scene roots (insert t A) u n) :
      Finds scene roots A t b

variable {scene : Scene} {roots A B : Set Task} {t : Task} {b : Bindings}

/-- More may be assumed. -/
lemma Finds.mono (h : scene.Finds roots A t b) (hAB : A ⊆ B) : scene.Finds roots B t b := by
  induction h generalizing B with
  | @intro A t b tried rest hcandidates hpick hrest hunseen hreached _ ih =>
      have hins : insert t A ⊆ insert t B := Set.insert_subset_insert hAB
      exact .intro tried rest hcandidates hpick hrest
        (fun x hx ray hray u hu hr => hins (hunseen x hx ray hray u hu hr)) hreached
        (fun x hx ray hray u n hu hr => ih x hx ray hray u n hu hr hins)

/-- What is tried is a candidate. -/
lemma mem_candidates_of_tried {tried : List Trial} {rest : List Star} {x : Trial}
    (hcandidates : scene.query.candidates t.star = tried.map Trial.star ++ rest)
    (hx : x ∈ tried) : x.star ∈ scene.query.candidates t.star :=
  hcandidates ▸ List.mem_append_left _ (List.mem_map_of_mem hx)

/-- A ray of a candidate that is tried leads on. -/
lemma leads_of_tried {tried : List Trial} {rest : List Star} {x : Trial} {ray : Ray} {u : Task}
    (hcandidates : scene.query.candidates t.star = tried.map Trial.star ++ rest)
    (hx : x ∈ tried) (hray : ray ∈ x.star.rays.toList)
    (hu : scene.next? t.shape ray = some u) : scene.Leads t u :=
  ⟨x.star, mem_candidates_of_tried hcandidates hx, ray, hray, hu⟩

/-- The bindings found are those of a candidate that was tried. -/
lemma exists_trial {tried : List Trial}
    (hpick : Bindings.pick (tried.map (Trial.outcome scene t.shape)) none = some b) :
    ∃ x ∈ tried, b = scene.tally t.shape x.reply x.star := by
  rcases Bindings.mem_of_pick hpick with h | h
  · obtain ⟨x, hx, rfl⟩ := List.mem_map.mp h
    exact ⟨x, hx, rfl⟩
  · cases h

/-- The bindings found for a task are those of one of its candidates, for some replies to the rays
of this candidate. -/
lemma Finds.exists_tally (h : scene.Finds roots A t b) :
    ∃ c ∈ scene.query.candidates t.star, ∃ reply, b = scene.tally t.shape reply c := by
  obtain ⟨tried, rest, hcandidates, hpick, -, -, -, -⟩ := h
  obtain ⟨x, hx, hb⟩ := exists_trial hpick
  exact ⟨x.star, mem_candidates_of_tried hcandidates hx, x.reply, hb⟩

/-- The bindings found for a task bear the name of its shape. -/
lemma Finds.shape_eq (h : scene.Finds roots A t b) : b.shape = t.shape.name := by
  obtain ⟨c, -, reply, rfl⟩ := h.exists_tally
  exact shape_tally c

/-- Bindings are found for stars of the query alone. -/
lemma Finds.star_mem_names (h : scene.Finds roots A t b) : t.star ∈ scene.query.names := by
  obtain ⟨c, hc, -⟩ := h.exists_tally
  exact Query.candidates_ne_nil_iff.mp (List.ne_nil_of_mem hc)

/-- Full bindings have a bound triple. -/
lemma Finds.count_pos (h : scene.Finds roots A t b) (hfull : b.full = true) : 0 < b.count := by
  obtain ⟨c, -, reply, rfl⟩ := h.exists_tally
  exact count_pos_of_full hfull

/-! ### Full bindings and conformance -/

/-- A task must hold if it belongs to a set of tasks that one round gives on this set and, for each
of them, on the tasks that every way from a root to it passes. Its rays to these are always taken
unseen. -/
def MustHold (scene : Scene) (roots : Set Task) (t : Task) : Prop :=
  ∃ P, t ∈ P ∧ ∀ u ∈ P, u ∈ scene.conform (P ∪ {w | ¬ scene.ReachedWithout roots w u})

/-- Tasks that conform must hold. -/
lemma Conforms.mustHold (h : scene.Conforms t) : scene.MustHold roots t :=
  ⟨{u | scene.Conforms u}, h, fun _ hu =>
    scene.conform.monotone Set.subset_union_left (conforms_iff_mem_conform.mp hu)⟩

/-- What is found for a task that must hold is full, whatever was assumed. -/
lemma Finds.full_of_mustHold (h : scene.Finds roots A t b) (ht : scene.MustHold roots t) :
    b.full = true := by
  obtain ⟨P, htP, hP⟩ := ht
  induction h with
  | @intro A t b tried rest hcandidates hpick hrest _ hreached _ ih =>
      obtain ⟨c, hc, hmeets⟩ := mem_conform.mp (hP t htP)
      obtain ⟨hne, hall⟩ := meets_iff.mp hmeets
      rw [hcandidates, List.mem_append] at hc
      rcases hc with hc | hc
      · -- the candidate that meets the shape was tried: all its rays were bound
        obtain ⟨x, hx, rfl⟩ := List.mem_map.mp hc
        refine Bindings.full_of_pick hpick (List.mem_map_of_mem hx)
          (full_tally_iff.mpr ⟨hne, fun ray hray => ?_⟩)
        cases hu : scene.next? t.shape ray with
        | none => exact (binds_of_next?_eq_none hu).mpr (hall ray hray).1
        | some u =>
            refine (binds_of_next?_eq_some hu).mpr fun n hn => ?_
            have hreach := hreached x hx ray hray u n hu hn
            exact ih x hx ray hray u n hu hn
              (((hall ray hray).2 u hu).resolve_right fun hpassed => hpassed hreach)
      · -- it was not tried: an earlier one was bound in full
        exact hrest.resolve_left (List.ne_nil_of_mem hc)

/-- What is found for a task that conforms is full. -/
lemma Finds.full_of_conforms (h : scene.Finds roots A t b) (ht : scene.Conforms t) :
    b.full = true :=
  h.full_of_mustHold ht.mustHold

/-- A shape that is loaded in a scene is loaded in another. The other scene has
the same query. -/
structure Extends (scene scene' : Scene) : Prop where
  /-- The query is the same. -/
  query : scene'.query = scene.query
  /-- No shape is lost. -/
  shapes : ∀ name s, scene.shapes.get? name = some s → scene'.shapes.get? name = some s

lemma Extends.refl (scene : Scene) : scene.Extends scene := ⟨rfl, fun _ _ h => h⟩

/-- In an extended scene, too, a ray is refused on the same grounds, and left to
another task only if it was before, or if a shape is no longer missing. -/
lemma Extends.next? {scene' : Scene} (hext : scene.Extends scene') {shape : Shape} {ray : Ray}
    {u : Task} (h : scene'.next? shape ray = some u) :
    scene.next? shape ray = some u ∨ scene.missing? shape ray = some u.shape.name := by
  obtain ⟨hc, hd, hs, hn⟩ := next?_eq_some_iff.mp h
  rw [hext.query] at hn
  cases hs' : scene.shapes.get? u.shape.name with
  | none => exact Or.inr (missing?_eq_some_iff.mpr ⟨hc, ⟨u.star, hd⟩, hs'⟩)
  | some s =>
      have he : s = u.shape := Option.some.inj ((hext.shapes _ _ hs').symm.trans hs)
      exact Or.inl (next?_eq_some_iff.mpr ⟨hc, hd, he ▸ hs', hn⟩)

/-- What is found full conforms if the tasks assumed do. This is so in every
extension of the scene in which the shapes that the bindings report as missing
are still not loaded. -/
lemma Finds.conformsIf_of_extends {scene' : Scene} (hext : scene.Extends scene')
    (h : scene.Finds roots A t b) (hfull : b.full = true)
    (hmissing : ∀ x ∈ b.unresolved, scene'.shapes.get? x.shape = none) :
    scene'.ConformsIf A t := by
  induction h with
  | @intro A t b tried rest hcandidates hpick hrest hunseen _ _ ih =>
      obtain ⟨x, hx, rfl⟩ := exists_trial hpick
      obtain ⟨hne, hbinds⟩ := full_tally_iff.mp hfull
      -- its rays were answered by full bindings, or left to tasks that are assumed
      refine conformsIf_of_mem_conform (N := {u | ∃ ray ∈ x.star.rays.toList,
        scene.next? t.shape ray = some u ∧ ∃ n, x.reply ray = some n}) ?_ ?_
      · rintro u ⟨ray, hray, hu, n, hn⟩
        refine ih x hx ray hray u n hu hn
          ((binds_of_next?_eq_some hu).mp (hbinds ray hray) n hn) fun y hy => hmissing y ?_
        exact mem_unresolved_tally.mpr
          ⟨ray, hray, Or.inr ⟨n, heard_eq_some_iff.mpr ⟨⟨u, hu⟩, hn⟩, hy⟩⟩
      · refine mem_conform.mpr ⟨x.star, ?_, meets_iff.mpr ⟨hne, fun ray hray => ⟨?_, ?_⟩⟩⟩
        · rw [hext.query]
          exact mem_candidates_of_tried hcandidates hx
        · intro hc hd
          have hnone : scene.next? t.shape ray = none := by
            rw [next?, hc, hd]
          exact (binds_of_next?_eq_none hnone).mp (hbinds ray hray) hc hd
        · intro u hu'
          have hm : scene.missing? t.shape ray ≠ some u.shape.name := by
            intro hm
            have hnot := hmissing ⟨x.star.name, ray.predicate, u.shape.name⟩
              (mem_unresolved_tally.mpr ⟨ray, hray, Or.inl ⟨_, hm, rfl⟩⟩)
            rw [(next?_eq_some_iff.mp hu').2.2.1] at hnot
            cases hnot
          have hu := (hext.next? hu').resolve_right hm
          cases hr : x.reply ray with
          | none =>
              rcases hunseen x hx ray hray u hu hr with rfl | hA
              · exact Or.inl rfl
              · exact Or.inr (Or.inr hA)
          | some n => exact Or.inr (Or.inl ⟨ray, hray, hu, n, hr⟩)

/-- The shapes reported as missing are not loaded. -/
lemma Finds.get?_of_mem_unresolved (h : scene.Finds roots A t b) {x : Unresolved}
    (hx : x ∈ b.unresolved) : scene.shapes.get? x.shape = none := by
  induction h with
  | intro tried rest _ hpick _ _ _ _ ih =>
      obtain ⟨y, hy, rfl⟩ := exists_trial hpick
      obtain ⟨ray, hray, ⟨target, hm, rfl⟩ | ⟨n, hn, hxn⟩⟩ := mem_unresolved_tally.mp hx
      · exact (missing?_eq_some_iff.mp hm).2.2
      · obtain ⟨⟨u, hu⟩, hr⟩ := heard_eq_some_iff.mp hn
        exact ih y hy ray hray u n hu hr hxn

/-- What is found full conforms if the tasks assumed do. -/
lemma Finds.conformsIf (h : scene.Finds roots A t b) (hfull : b.full = true) :
    scene.ConformsIf A t :=
  h.conformsIf_of_extends (Extends.refl scene) hfull fun _ hx => h.get?_of_mem_unresolved hx

/-- What is found without assumption is full exactly if the task conforms. -/
lemma Finds.full_iff_conforms (h : scene.Finds roots ∅ t b) :
    b.full = true ↔ scene.Conforms t :=
  ⟨fun hfull => (h.conformsIf hfull).conforms fun _ hu => absurd hu (Set.notMem_empty _),
    h.full_of_conforms⟩

/-! ### Findings along the way -/

/-- Assumptions that lead to a task lead on. -/
lemma transGen_of_mem_insert {u : Task} (hA : ∀ a ∈ A, Relation.TransGen scene.Leads a t)
    (hl : scene.Leads t u) : ∀ a ∈ insert t A, Relation.TransGen scene.Leads a u := by
  rintro a (rfl | ha)
  · exact .single hl
  · exact (hA a ha).tail hl

/-- A dependency that bindings report belongs to a task of the scene, which
conforms if it is reported full and the others on its circles do, and which is
reported full if it conforms. -/
lemma Finds.task_of_mem_dependencies (h : scene.Finds roots A t b)
    (hA : ∀ a ∈ A, Relation.TransGen scene.Leads a t) {d : Dependency}
    (hd : d ∈ b.dependencies) :
    ∃ u : Task, u.star = d.nested ∧ u.shape.name = d.target ∧
      scene.shapes.get? d.target = some u.shape ∧ u.star ∈ scene.query.names ∧
        (d.full = true → scene.ConformsIf (scene.mates u) u) := by
  induction h with
  | @intro A t b tried rest hcandidates hpick _ _ _ hfound ih =>
      obtain ⟨x, hx, rfl⟩ := exists_trial hpick
      obtain ⟨ray, hray, u, n, hu, hn, hd⟩ := mem_dependencies_tally.mp hd
      have hlead : scene.Leads t u := leads_of_tried hcandidates hx hray hu
      have hA' := transGen_of_mem_insert hA hlead
      rcases hd with rfl | hd
      · obtain ⟨_, _, hs, hnames⟩ := next?_eq_some_iff.mp hu
        exact ⟨u, rfl, rfl, hs, hnames, fun hfull =>
          ((hfound x hx ray hray u n hu hn).conformsIf hfull).mates hA'⟩
      · exact ih x hx ray hray u n hu hn hA' hd

end Scene

end StarShapes
