import Mathlib.Data.List.Perm.Basic
import StarShapes.Proofs.Collection.Dictionaries
import StarShapes.Proofs.Query.Candidates

/-!
Order: queries with the same main stars in different orders.

* `Query.Shuffles`: the main stars of one query are those of another, in some
  order, and the UNION groups are the same.
* `shuffles_ofStars`, `Shuffles.withUnion`: queries built from the same stars in
  different orders are such queries.
* `Shuffles.candidates`: they have the same candidates.
-/

namespace StarShapes

namespace Query

/-- The main stars of one query are those of the other in some order, and the
UNION groups are the same. -/
structure Shuffles (q q' : Query) : Prop where
  /-- The main stars are the same. -/
  stars : q'.stars.toList.Perm q.stars.toList
  /-- The UNION groups are the same. -/
  unions : q'.unions = q.unions

variable {q q' : Query}

/-- Linking looks at the names of the stars, not at their order. -/
lemma shuffles_link (h : q.Shuffles q') : q.link.Shuffles q'.link := by
  have hcontains : ∀ n, q'.stars.contains n = q.stars.contains n := by
    intro n
    rw [Bool.eq_iff_iff, Keyed.contains_iff_mem, Keyed.contains_iff_mem]
    exact (h.stars.map Star.name).mem_iff
  constructor
  · simp only [link, Branch.linkWhere, Keyed.toList_map, branches, h.unions, hcontains]
    exact h.stars.map _
  · simp only [link, h.unions, hcontains]

/-- One more UNION group. -/
lemma Shuffles.withUnion (h : q.Shuffles q') (group : List (List Star)) :
    (q.withUnion group).Shuffles (q'.withUnion group) :=
  shuffles_link ⟨h.stars, by rw [h.unions]⟩

/-- A name has the same candidates. -/
lemma Shuffles.candidates (h : q.Shuffles q') (n : String) :
    q'.candidates n = q.candidates n := by
  have hmain : q'.main? n = q.main? n := by
    ext s
    rw [main?, main?, Keyed.get?_eq_some_iff, Keyed.get?_eq_some_iff, h.stars.mem_iff]
  rw [Query.candidates, Query.candidates, hmain, alternatives, alternatives, branches, branches,
    h.unions]

end Query

end StarShapes
