import Mathlib.Data.List.Perm.Basic
import StarShapes.Proofs.Collection.Distinct
import StarShapes.Query.Basic

/-!
Regrouping: the triples of a query by subject are those of its stars.

* `Query.allStars`: the stars of a query as they are declared, the main ones first.
* `stars_of_name`: the main star of a name and its alternatives are those of all stars that have
  this name. So the names of the query are theirs (`mem_names_iff_exists_star`), as are the triples
  of a name (`triplesOf_eq_flatMap`).
* `flatMap_filter_perm`: a list regrouped by keys that cover it.
* `triplesBySubject_regroups`: names and triples by subject, said of all stars.
-/

namespace StarShapes

/-- To regroup a list by distinct keys is to choose the elements that have one of these. -/
lemma flatMap_filter_perm {α κ : Type} [DecidableEq κ] (key : α → κ) (l : List α) {ks : List κ}
    (h : ks.Nodup) :
    (ks.flatMap fun k => l.filter fun x => key x = k).Perm (l.filter fun x => key x ∈ ks) := by
  induction ks with
  | nil => simp
  | cons k ks ih =>
      obtain ⟨hk, hks⟩ := List.nodup_cons.mp h
      have hfirst : (l.filter fun x => key x ∈ k :: ks).filter (fun x => key x = k) =
          l.filter fun x => key x = k := by
        rw [List.filter_filter]
        exact List.filter_congr fun x _ => by simp +contextual
      have hrest : (l.filter fun x => key x ∈ k :: ks).filter (fun x => !decide (key x = k)) =
          l.filter fun x => key x ∈ ks := by
        rw [List.filter_filter]
        refine List.filter_congr fun x _ => ?_
        by_cases hx : key x = k
        · simp [hx, hk]
        · simp [hx]
      have hsplit := List.filter_append_perm (fun x => decide (key x = k))
        (l.filter fun x => key x ∈ k :: ks)
      rw [hfirst, hrest] at hsplit
      rw [List.flatMap_cons]
      exact ((ih hks).append_left _).trans hsplit

/-- The item of a key is the only one that has it. -/
lemma Keyed.filter_key {α κ : Type} [DecidableEq κ] {key : α → κ} (m : Keyed key) (k : κ) :
    m.toList.filter (fun x => key x = k) = (m.get? k).toList := by
  rw [get?]
  have hnodup := m.nodup
  revert hnodup
  induction m.toList with
  | nil => exact fun _ => rfl
  | cons x l ih =>
      intro hnodup
      obtain ⟨hx, hl⟩ := List.nodup_cons.mp hnodup
      by_cases hk : key x = k
      · have hrest : l.filter (fun y => key y = k) = [] := by
          refine List.filter_eq_nil_iff.mpr fun y hy hyk => hx ?_
          exact List.mem_map.mpr ⟨y, hy, (of_decide_eq_true hyk).trans hk.symm⟩
        rw [List.filter_cons_of_pos (by simpa using hk), hrest,
          List.find?_cons_of_pos (by simpa using hk), Option.toList_some]
      · rw [List.filter_cons_of_neg (by simpa using hk),
          List.find?_cons_of_neg (by simpa using hk), ih hl]

namespace Query

variable {q : Query} {n : String}

/-- The stars of a query: the main ones, then those of each branch, in order. -/
def allStars (q : Query) : List Star := q.stars.toList ++ q.branches.flatMap Keyed.toList

/-- The main star of a name, followed by its alternatives, are the stars of this name. -/
lemma stars_of_name (q : Query) (n : String) :
    (q.main? n).toList ++ q.alternatives n = q.allStars.filter fun s => s.name = n := by
  have halternatives : q.alternatives n = q.branches.flatMap fun b => (b.get? n).toList :=
    List.filterMap_eq_flatMap_toList _ _
  rw [allStars, List.filter_append, Keyed.filter_key, main?, halternatives, List.filter_flatMap]
  simp only [Keyed.filter_key]

/-- The names of a query are those of its stars. -/
lemma mem_names_iff_exists_star : n ∈ q.names ↔ ∃ s ∈ q.allStars, s.name = n := by
  have hkeys : q.allStars.map Star.name = q.stars.keys ++ q.branches.flatMap Keyed.keys := by
    rw [allStars, List.map_append, List.map_flatMap]
    rfl
  rw [← List.mem_map, hkeys, names, mem_pushAllNew, List.mem_append]

/-- A query contains what has a star. -/
lemma contains_iff_exists_star : q.contains n = true ↔ ∃ s ∈ q.allStars, s.name = n := by
  have hmain : (q.main? n).toList = [] ↔ n ∉ q.stars.keys := by
    rw [Option.toList_eq_nil_iff, main?, Keyed.get?_eq_none_iff]
  have hstars : (∃ s ∈ q.allStars, s.name = n) ↔ (q.main? n).toList ++ q.alternatives n ≠ [] := by
    rw [stars_of_name, Ne, List.filter_eq_nil_iff]
    simp
  rw [hstars, Ne, List.append_eq_nil_iff, hmain, not_and_or, not_not, contains, Bool.or_eq_true,
    Keyed.contains_iff_mem]
  simp

/-- The triples of a name are those of its stars. -/
lemma triplesOf_eq_flatMap (q : Query) (n : String) :
    q.triplesOf n = (q.allStars.filter fun s => s.name = n).flatMap Star.triples := by
  rw [triplesOf, stars_of_name]

/-- **To regroup a query by subject neither loses nor repeats a triple**: its names are those of its
stars, each once and the main ones first, and it contains just these. Each name has the triples of
its main star, followed by those of its alternatives as they are declared. Put together, these are
the triples of all stars. -/
theorem triplesBySubject_regroups (q : Query) :
    (q.names.Nodup ∧ q.stars.keys <+: q.names ∧
      ∀ n, n ∈ q.names ↔ ∃ s ∈ q.allStars, s.name = n) ∧
    (∀ n, q.contains n = true ↔ ∃ s ∈ q.allStars, s.name = n) ∧
    q.triplesBySubject = q.names.map (fun n =>
      (n, (q.allStars.filter fun s => s.name = n).flatMap Star.triples)) ∧
    (q.triplesBySubject.flatMap Prod.snd).Perm (q.allStars.flatMap Star.triples) := by
  have hlists : q.triplesBySubject = q.names.map fun n =>
      (n, (q.allStars.filter fun s => s.name = n).flatMap Star.triples) := by
    rw [triplesBySubject]
    simp only [triplesOf_eq_flatMap]
  have hall : (q.allStars.filter fun s => s.name ∈ q.names) = q.allStars :=
    List.filter_eq_self.mpr fun s hs => by
      simpa using mem_names_iff_exists_star.mpr ⟨s, hs, rfl⟩
  refine ⟨⟨q.nodup_names, prefix_pushAllNew _ _, fun n => mem_names_iff_exists_star⟩,
    fun n => contains_iff_exists_star, hlists, ?_⟩
  have hstars := flatMap_filter_perm Star.name q.allStars q.nodup_names
  rw [hall] at hstars
  rw [hlists, List.flatMap_map, ← List.flatMap_assoc]
  exact hstars.flatMap_right _

end Query

end StarShapes
