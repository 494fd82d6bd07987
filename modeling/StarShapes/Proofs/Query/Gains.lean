import StarShapes.Proofs.Query.Candidates

/-!
Gains: queries with one more triple.

* `Star.Gains`, `Query.Gains`: a star, or a main star of a query, has one more ray.
* `Star.Within`: the rays of a star are among those of another, and there are some if that one has
  some. Extending both stars by a third keeps this (`Within.extend`).
* `Gains.mem_names_iff`, `Gains.exists_candidate`: a query with one more ray has stars of the same
  names, and its candidates have all rays of candidates that were there before.
-/

namespace StarShapes

/-! ### Stars within others -/

namespace Star

/-- A star with one more ray, anywhere among those that it has. -/
def Gains (s s' : Star) (ray : Ray) : Prop :=
  s'.name = s.name ∧ ∃ before after,
    s.rays.toList = before ++ after ∧ s'.rays.toList = before ++ ray :: after

/-- The rays of a star are among those of another, and there are some if that one has some. -/
structure Within (s s' : Star) : Prop where
  /-- No ray is lost. -/
  subset : s.rays.toList ⊆ s'.rays.toList
  /-- A star without rays is within no other than such a star. -/
  nonempty : s'.rays.toList ≠ [] → s.rays.toList ≠ []

lemma Within.refl (s : Star) : s.Within s := ⟨fun _ h => h, id⟩

/-- A star with rays is within the star that it becomes by one more. -/
lemma Gains.within {s s' : Star} {ray : Ray} (h : s.Gains s' ray) (hne : s.rays.toList ≠ []) :
    s.Within s' := by
  obtain ⟨-, before, after, hs, hs'⟩ := h
  refine ⟨?_, fun _ => hne⟩
  rw [hs, hs']
  exact (List.sublist_cons_self ray after).append_left before |>.subset

/-- The rays of an extended star are those of the other one, and its own of further predicates. -/
lemma mem_rays_extend {s other : Star} {ray : Ray} : ray ∈ (s.extend other).rays.toList ↔
    ray ∈ other.rays.toList ∨ ray ∈ s.rays.toList ∧ ray.predicate ∉ other.rays.keys :=
  Keyed.mem_insertAll other.rays.nodup

/-- An extended star has rays if one of the two stars has some. -/
lemma rays_extend_ne_nil {s other : Star} : (s.extend other).rays.toList ≠ [] ↔
    other.rays.toList ≠ [] ∨ s.rays.toList ≠ [] := by
  constructor
  · intro hne
    obtain ⟨ray, hray⟩ := List.exists_mem_of_ne_nil _ hne
    rcases mem_rays_extend.mp hray with hray | ⟨hray, -⟩
    · exact Or.inl (List.ne_nil_of_mem hray)
    · exact Or.inr (List.ne_nil_of_mem hray)
  · intro hne
    by_cases hother : other.rays.toList = []
    · obtain ⟨ray, hray⟩ := List.exists_mem_of_ne_nil _ (hne.resolve_left (not_not.mpr hother))
      have hnew : ray.predicate ∉ other.rays.keys := by simp [Keyed.keys, hother]
      exact List.ne_nil_of_mem (mem_rays_extend.mpr (Or.inr ⟨hray, hnew⟩))
    · obtain ⟨ray, hray⟩ := List.exists_mem_of_ne_nil _ hother
      exact List.ne_nil_of_mem (mem_rays_extend.mpr (Or.inl hray))

/-- Stars that are extended by the same star stay within one another. -/
lemma Within.extend {s s' : Star} (h : s.Within s') (other : Star) :
    (s.extend other).Within (s'.extend other) where
  subset ray hray := by
    rw [mem_rays_extend] at hray ⊢
    exact hray.imp_right (And.imp_left fun hmem => h.subset hmem)
  nonempty hne := by
    rw [rays_extend_ne_nil] at hne ⊢
    exact hne.imp_right h.nonempty

end Star

/-! ### Queries with one more ray -/

namespace Query

/-- A query whose main star of some name, which has rays, has one more, while all else is the
same. -/
structure Gains (q q' : Query) (n : String) (ray : Ray) : Prop where
  /-- One of the main stars has one more ray. -/
  stars : ∃ before s s' after, q.stars.toList = before ++ s :: after ∧
    q'.stars.toList = before ++ s' :: after ∧ s.name = n ∧ s.rays.toList ≠ [] ∧ s.Gains s' ray
  /-- The UNION groups are the same. -/
  unions : q'.unions = q.unions

namespace Gains

variable {q q' : Query} {n m : String} {ray : Ray}

/-- The names of the stars are the same. -/
lemma mem_names_iff (h : q.Gains q' n ray) : m ∈ q'.names ↔ m ∈ q.names := by
  obtain ⟨before, s, s', after, hq, hq', -, -, hname, -⟩ := h.stars
  have hkeys : q'.stars.keys = q.stars.keys := by
    rw [Keyed.keys, Keyed.keys, hq, hq', List.map_append, List.map_append, List.map_cons,
      List.map_cons, hname]
  rw [mem_names, mem_names, hkeys, branches, branches, h.unions]

lemma alternatives_eq (h : q.Gains q' n ray) : q'.alternatives m = q.alternatives m := by
  rw [alternatives, alternatives, branches, branches, h.unions]

/-- A main star has all rays of the main star that was there before. -/
lemma main?_cases (h : q.Gains q' n ray) : q'.main? m = q.main? m ∨
    ∃ s s', q.main? m = some s ∧ q'.main? m = some s' ∧ s.Within s' := by
  obtain ⟨before, s, s', after, hq, hq', rfl, hne, hgains⟩ := h.stars
  by_cases hm : m = s.name
  · refine Or.inr ⟨s, s', ?_, ?_, hgains.within hne⟩
    · exact Keyed.get?_eq_some_iff.mpr ⟨by simp [hq], hm.symm⟩
    · exact Keyed.get?_eq_some_iff.mpr ⟨by simp [hq'], hgains.1.trans hm.symm⟩
  · left
    ext x
    have hother : ∀ y : Star, y.name = s.name → ¬(x = y ∧ x.name = m) := by
      rintro y hy ⟨rfl, hx⟩
      exact hm (hx.symm.trans hy)
    rw [main?, main?, Keyed.get?_eq_some_iff, Keyed.get?_eq_some_iff, hq, hq']
    simp only [List.mem_append, List.mem_cons, or_and_right, hother s rfl, hother s' hgains.1,
      false_or]

/-- A candidate has all rays of a candidate that was there before. -/
lemma exists_candidate (h : q.Gains q' n ray) {c' : Star} (hc' : c' ∈ q'.candidates m) :
    ∃ c ∈ q.candidates m, c.Within c' := by
  rw [candidates, h.alternatives_eq] at hc'
  rw [candidates]
  rcases h.main?_cases (m := m) with he | ⟨s, s', hs, hs', hwithin⟩
  · exact ⟨c', he ▸ hc', .refl c'⟩
  · rw [hs', candidatesOf] at hc'
    rw [hs, candidatesOf]
    rcases List.mem_cons.mp hc' with rfl | hc'
    · exact ⟨s, List.mem_cons_self, hwithin⟩
    · obtain ⟨a, ha, rfl⟩ := List.mem_map.mp hc'
      exact ⟨s.extend a, List.mem_cons_of_mem _ (List.mem_map_of_mem ha), hwithin.extend a⟩

end Gains

end Query

end StarShapes
