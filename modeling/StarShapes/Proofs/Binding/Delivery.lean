import StarShapes.Proofs.Binding.Choice

/-!
Delivery: which triples bindings account for, in their own star and in others.

* `Finds.bound_of_full`: full bindings bind all triples of a star without alternatives.
* `Finds.bound_perm_of_open`: an open shape binds the triples of the first candidate that has any.
* `Scene.LeadsInFull`: a task leads to another one, which conforms. Without UNION, the triples of
  the stars to which such steps lead are accounted for (`Finds.bound_or_nestedBound_of_walk`), and
  no others are bound elsewhere where no task hinges on a circle (`Finds.exists_walk`).
* `Finds.nestedBound_of_dependencies`: where all dependencies are full, the triples of their stars
  are bound elsewhere.
-/

namespace StarShapes

namespace Scene

variable {scene : Scene} {roots A : Set Task} {t u : Task} {b : Bindings} {triple : Triple}

/-! ### The triples of the star itself -/

/-- What is bound are triples of the star. -/
lemma Finds.mem_triplesOf_of_mem_bound (h : scene.Finds roots A t b) (htriple : triple ∈ b.bound) :
    triple ∈ scene.query.triplesOf t.star := by
  obtain ⟨c, hc, reply, rfl⟩ := h.exists_tally
  exact Query.triple_mem_triplesOf hc (mem_triples_of_mem_bound_tally htriple)

/-- Full bindings bind all triples of a star without alternatives. -/
lemma Finds.bound_of_full (h : scene.Finds roots A t b) (hfull : b.full = true)
    (halternatives : scene.query.alternatives t.star = [])
    (htriple : triple ∈ scene.query.triplesOf t.star) : triple ∈ b.bound := by
  obtain ⟨c, hc, reply, rfl⟩ := h.exists_tally
  rw [Query.triplesOf_eq_of_mem_candidates halternatives hc] at htriple
  exact (bound_tally_perm_triples (full_tally_iff.mp hfull).2).mem_iff.mpr htriple

/-- An open shape binds the triples of the first candidate that has any. -/
lemma Finds.bound_perm_of_open (h : scene.Finds roots A t b) (hopen : t.shape.closed = false)
    {c : Star} (hc : (scene.query.candidates t.star).find? (fun c => !c.isEmpty) = some c) :
    b.bound.Perm c.triples := by
  obtain ⟨tried, rest, hcandidates, hpick, hrest, -, -, -⟩ := h
  have hfull : Bindings.full ∘ Trial.outcome scene t.shape = fun x => !x.star.isEmpty := by
    funext x
    rw [Function.comp_apply, Trial.outcome, tally, hopen]
    rfl
  have hstars : (fun c : Star => !c.isEmpty) ∘ Trial.star = fun x => !x.star.isEmpty := rfl
  rw [hcandidates, List.find?_append, List.find?_map, hstars] at hc
  cases hx : tried.find? fun x => !x.star.isEmpty with
  | some x =>
      have hb : Bindings.pick (tried.map (Trial.outcome scene t.shape)) none =
          some (x.outcome scene t.shape) :=
        Bindings.pick_eq_of_find? (by rw [List.find?_map, hfull, hx]; rfl)
      have hstar : x.star = c := by simpa [hx] using hc
      obtain rfl : b = x.outcome scene t.shape := Option.some.inj (hpick.symm.trans hb)
      exact hstar ▸ bound_tally_perm_triples fun ray _ => binds_of_open hopen ray
  | none =>
      -- what was tried has no triples, so nothing full was found and there was nothing left to try
      obtain ⟨x, hx', hb⟩ := exists_trial hpick
      have hnotfull : b.full = false := by
        have hempty := List.find?_eq_none.mp hx x hx'
        rw [← congrFun hfull x, Function.comp_apply, Trial.outcome, ← hb] at hempty
        simpa using hempty
      have hnil : rest = [] := hrest.resolve_right (by simp [hnotfull])
      rw [hx, hnil] at hc
      cases hc

/-! ### Walks of tasks that conform -/

/-- A task leads to another one, which conforms. -/
def LeadsInFull (scene : Scene) (t u : Task) : Prop := scene.Leads t u ∧ scene.Conforms u

/-- A walk that does not end where it starts need not come back there. -/
lemma eq_or_transGen_ne {α : Type} {R : α → α → Prop} {x z : α} (h : Relation.ReflTransGen R x z) :
    z = x ∨ Relation.TransGen (fun y y' => R y y' ∧ y' ≠ x) x z := by
  rw [← Relation.reflTransGen_iff_eq_or_transGen]
  induction h with
  | refl => exact .refl
  | @tail y y' _ hstep ih =>
      by_cases he : y' = x
      · exact he ▸ .refl
      · exact ih.tail ⟨hstep, he⟩

/-- Without UNION, the triples of a star to which a walk of conforming tasks leads are bound
elsewhere, if nothing on the walk was assumed. -/
lemma Finds.nestedBound_of_walk (h : scene.Finds roots A t b) (hq : scene.query.unions = [])
    (hwalk : Relation.TransGen (fun v w => scene.LeadsInFull v w ∧ w ∉ insert t A) t u)
    (htriple : triple ∈ scene.query.triplesOf u.star) : triple ∈ b.nestedBound := by
  induction h with
  | @intro A t b tried rest hcandidates hpick hrest hunseen hreached hfound ih =>
      obtain ⟨v, ⟨⟨⟨c, hc, ray, hray, hv⟩, hconf⟩, hvA⟩, hwalk⟩ :=
        Relation.TransGen.head'_iff.mp hwalk
      obtain ⟨x, hx, rfl⟩ := exists_trial hpick
      have halternatives := Query.alternatives_eq_nil hq
      obtain rfl : c = x.star :=
        Query.eq_of_mem_candidates hq hc (mem_candidates_of_tried hcandidates hx)
      cases hr : x.reply ray with
      | none => exact absurd (hunseen x hx ray hray v hv hr) hvA
      | some n =>
          have hfinds := hfound x hx ray hray v n hv hr
          have hfull := hfinds.full_of_conforms hconf
          refine mem_nestedBound_tally.mpr ⟨ray, hray, v, n, hv, hr, hfull, ?_⟩
          -- the rest of the walk need not come back to `v`, which is assumed from now on
          rcases eq_or_transGen_ne hwalk with rfl | hwalk
          · exact Or.inl (hfinds.bound_of_full hfull (halternatives _) htriple)
          · have havoids : ∀ w w', (scene.LeadsInFull w w' ∧ w' ∉ insert t A) ∧ w' ≠ v →
                scene.LeadsInFull w w' ∧ w' ∉ insert v (insert t A) :=
              fun _ _ ⟨⟨hlead, hwA⟩, hne⟩ => ⟨hlead, fun hmem => hmem.elim hne hwA⟩
            exact Or.inr (ih x hx ray hray v n hv hr (Relation.TransGen.mono havoids _ _ hwalk))

/-- Without UNION and assumptions, the triples of a star to which a walk of conforming tasks leads
are bound, in the star itself or elsewhere. -/
lemma Finds.bound_or_nestedBound_of_walk (h : scene.Finds roots ∅ t b)
    (hq : scene.query.unions = []) (hwalk : Relation.TransGen scene.LeadsInFull t u)
    (htriple : triple ∈ scene.query.triplesOf u.star) :
    triple ∈ b.bound ∨ triple ∈ b.nestedBound := by
  obtain ⟨-, -, -, hconf⟩ := Relation.TransGen.tail'_iff.mp hwalk
  rcases eq_or_transGen_ne hwalk.to_reflTransGen with rfl | hwalk
  · have hfull : b.full = true := h.full_of_conforms hconf
    exact Or.inl (h.bound_of_full hfull (Query.alternatives_eq_nil hq _) htriple)
  · have havoids : ∀ v w, scene.LeadsInFull v w ∧ w ≠ t →
        scene.LeadsInFull v w ∧ w ∉ insert t (∅ : Set Task) :=
      fun _ _ ⟨hlead, hne⟩ => ⟨hlead, by simpa using hne⟩
    exact Or.inr (h.nestedBound_of_walk hq (Relation.TransGen.mono havoids _ _ hwalk) htriple)

/-- A triple bound elsewhere belongs to a star to which a walk of conforming tasks leads, if no
task hinges on a circle. -/
lemma Finds.exists_walk (h : scene.Finds roots A t b)
    (hA : ∀ a ∈ A, Relation.TransGen scene.Leads a t) (hcalm : scene.Calm t)
    (htriple : triple ∈ b.nestedBound) :
    ∃ u, Relation.TransGen scene.LeadsInFull t u ∧ triple ∈ scene.query.triplesOf u.star := by
  induction h with
  | @intro A t b tried rest hcandidates hpick _ _ _ hfound ih =>
      obtain ⟨x, hx, rfl⟩ := exists_trial hpick
      obtain ⟨ray, hray, v, n, hv, hn, hfull, hbound⟩ := mem_nestedBound_tally.mp htriple
      have hfinds := hfound x hx ray hray v n hv hn
      have hlead : scene.Leads t v := leads_of_tried hcandidates hx hray hv
      have hA' := transGen_of_mem_insert hA hlead
      have hconf : scene.Conforms v := (hfinds.full_iff hA' (hcalm v (.single hlead))).mp hfull
      rcases hbound with hbound | hnested
      · exact ⟨v, .single ⟨hlead, hconf⟩, hfinds.mem_triplesOf_of_mem_bound hbound⟩
      · obtain ⟨u, hwalk, hu⟩ := ih x hx ray hray v n hv hn hA' (hcalm.of_leads hlead) hnested
        exact ⟨u, .head ⟨hlead, hconf⟩ hwalk, hu⟩

/-! ### Full dependencies -/

/-- Without UNION, where all dependencies reported are full, the triples of their stars are bound
elsewhere. -/
lemma Finds.nestedBound_of_dependencies (h : scene.Finds roots A t b)
    (hq : scene.query.unions = []) (hall : ∀ d ∈ b.dependencies, d.full = true) {d : Dependency}
    (hd : d ∈ b.dependencies) (htriple : triple ∈ scene.query.triplesOf d.nested) :
    triple ∈ b.nestedBound := by
  induction h with
  | @intro A t b tried rest hcandidates hpick _ _ _ hfound ih =>
      obtain ⟨x, hx, rfl⟩ := exists_trial hpick
      obtain ⟨ray, hray, v, n, hv, hn, hd⟩ := mem_dependencies_tally.mp hd
      have hfull : n.full = true :=
        hall _ (mem_dependencies_tally.mpr ⟨ray, hray, v, n, hv, hn, Or.inl rfl⟩)
      refine mem_nestedBound_tally.mpr ⟨ray, hray, v, n, hv, hn, hfull, ?_⟩
      rcases hd with rfl | hd
      · exact Or.inl ((hfound x hx ray hray v n hv hn).bound_of_full hfull
          (Query.alternatives_eq_nil hq _) htriple)
      · refine Or.inr (ih x hx ray hray v n hv hn (fun d hd => hall d ?_) hd)
        exact mem_dependencies_tally.mpr ⟨ray, hray, v, n, hv, hn, Or.inr hd⟩

end Scene

end StarShapes
