import StarShapes.Proofs.Collection.Dictionaries
import StarShapes.Query.Basic

/-!
Candidates: the ways to read the stars of a name.

* `Query.candidates_ne_nil_iff`: the names that have a candidate are those of
  the query.
* `Query.length_candidates_le_one`: several candidates are due to a UNION.
* `Query.mem_triplesOf_iff`: the triples of a name are those of its stars. Those of a candidate are
  among them (`triple_mem_triplesOf`), and without alternatives they are all of them
  (`triplesOf_eq_of_mem_candidates`).
* `Query.first?`: the first of the stars of a name that has triples. The first candidate that has
  any has just these (`exists_candidate_of_first?`).
-/

namespace StarShapes

namespace Query

variable {q : Query} {n : String}

/-- The candidates of stars that all have one name have that name. -/
lemma name_of_mem_candidatesOf {main? : Option Star} {alternatives : List Star}
    (hmain : ∀ s, main? = some s → s.name = n) (halternatives : ∀ s ∈ alternatives, s.name = n)
    {c : Star} (hc : c ∈ candidatesOf main? alternatives) : c.name = n := by
  cases main? with
  | none => exact halternatives c hc
  | some main =>
      rcases List.mem_cons.mp hc with rfl | hc
      · exact hmain _ rfl
      · obtain ⟨a, -, rfl⟩ := List.mem_map.mp hc
        exact hmain main rfl

lemma candidatesOf_eq_nil_iff {main? : Option Star} {alternatives : List Star} :
    candidatesOf main? alternatives = [] ↔ main? = none ∧ alternatives = [] := by
  cases main? <;> simp [candidatesOf]

/-- The alternatives of a name are the stars of that name in the branches. -/
lemma mem_alternatives {s : Star} : s ∈ q.alternatives n ↔ ∃ b ∈ q.branches, b.get? n = some s := by
  rw [alternatives, List.mem_filterMap]

/-- A name has a candidate if and only if the query has a star of that name. -/
lemma candidates_ne_nil_iff : q.candidates n ≠ [] ↔ n ∈ q.names := by
  have hmain : q.main? n = none ↔ n ∉ q.stars.keys := Keyed.get?_eq_none_iff
  have halt : q.alternatives n ≠ [] ↔ ∃ b ∈ q.branches, n ∈ b.keys := by
    rw [List.ne_nil_iff_exists_cons]
    constructor
    · rintro ⟨a, l, he⟩
      obtain ⟨b, hb, ha⟩ := mem_alternatives.mp (he ▸ List.mem_cons_self : a ∈ q.alternatives n)
      exact ⟨b, hb, Keyed.mem_keys_of_get? ha⟩
    · rintro ⟨b, hb, hn⟩
      have hsome : b.get? n ≠ none := fun h => Keyed.get?_eq_none_iff.mp h hn
      obtain ⟨a, ha⟩ := Option.ne_none_iff_exists'.mp hsome
      exact List.ne_nil_iff_exists_cons.mp (List.ne_nil_of_mem (mem_alternatives.mpr ⟨b, hb, ha⟩))
  rw [mem_names]
  unfold candidates candidatesOf
  cases hm : q.main? n with
  | none => simp [hmain.mp hm, ← halt]
  | some main =>
      have hn : n ∈ q.stars.keys := Keyed.mem_keys_of_get? hm
      simp [hn]

/-- Without UNION a name has no alternatives. -/
lemma alternatives_eq_nil (h : q.unions = []) (n : String) : q.alternatives n = [] := by
  rw [alternatives, branches, h]
  rfl

/-- Without alternatives the main star is the only candidate. -/
lemma candidates_eq_toList (h : q.alternatives n = []) : q.candidates n = (q.main? n).toList := by
  unfold candidates candidatesOf
  rw [h]
  cases q.main? n <;> rfl

/-- Without UNION two candidates of a name are the same. -/
lemma eq_of_mem_candidates (h : q.unions = []) {c c' : Star} (hc : c ∈ q.candidates n)
    (hc' : c' ∈ q.candidates n) : c = c' := by
  rw [candidates_eq_toList (alternatives_eq_nil h n), Option.mem_toList] at hc hc'
  exact Option.some.inj (hc.symm.trans hc')

/-! ### Triples -/

/-- The triples of a name are those of its main star and of its alternatives. -/
lemma mem_triplesOf_iff {triple : Triple} : triple ∈ q.triplesOf n ↔
    ∃ s, (q.main? n = some s ∨ s ∈ q.alternatives n) ∧ triple ∈ s.triples := by
  simp only [triplesOf, List.mem_flatMap, List.mem_append, Option.mem_toList]

/-- A name that has triples is a name of the query. -/
lemma mem_names_of_mem_triplesOf {triple : Triple} (h : triple ∈ q.triplesOf n) :
    n ∈ q.names := by
  obtain ⟨s, hs, -⟩ := mem_triplesOf_iff.mp h
  rw [mem_names]
  rcases hs with hs | hs
  · exact .inl (Keyed.mem_keys_of_get? hs)
  · obtain ⟨b, hb, hs⟩ := mem_alternatives.mp hs
    exact .inr ⟨b, hb, Keyed.mem_keys_of_get? hs⟩

/-- The triples of a candidate are triples of its name. -/
lemma triple_mem_triplesOf {c : Star} (hc : c ∈ q.candidates n) {triple : Triple}
    (h : triple ∈ c.triples) : triple ∈ q.triplesOf n := by
  rw [candidates] at hc
  cases hm : q.main? n with
  | none =>
      rw [hm, candidatesOf] at hc
      exact mem_triplesOf_iff.mpr ⟨c, .inr hc, h⟩
  | some main =>
      rw [hm, candidatesOf] at hc
      rcases List.mem_cons.mp hc with rfl | hc
      · exact mem_triplesOf_iff.mpr ⟨c, .inl hm, h⟩
      · obtain ⟨alternative, halt, rfl⟩ := List.mem_map.mp hc
        obtain ⟨ray, hray, rfl⟩ := List.mem_map.mp h
        rcases Keyed.mem_of_mem_insertAll hray with hray | hray
        · exact mem_triplesOf_iff.mpr ⟨main, .inl hm, List.mem_map_of_mem hray⟩
        · exact mem_triplesOf_iff.mpr ⟨alternative, .inr halt, List.mem_map_of_mem hray⟩

/-- Without alternatives the triples of a name are those of its candidate. -/
lemma triplesOf_eq_of_mem_candidates (h : q.alternatives n = []) {c : Star}
    (hc : c ∈ q.candidates n) : q.triplesOf n = c.triples := by
  rw [candidates_eq_toList h, Option.mem_toList] at hc
  rw [triplesOf, h, hc]
  simp

/-! ### The first star with triples -/

/-- The first of the stars of a name that has triples: the main star, or else an alternative. -/
def first? (q : Query) (name : String) : Option Star :=
  ((q.main? name).toList ++ q.alternatives name).find? fun s => !s.isEmpty

/-- A triple of a name belongs to the first star that has triples, or to an alternative. -/
lemma exists_first?_of_mem_triplesOf {triple : Triple} (h : triple ∈ q.triplesOf n) :
    ∃ s, q.first? n = some s ∧
      (triple ∈ s.triples ∨ ∃ a ∈ q.alternatives n, triple ∈ a.triples) := by
  obtain ⟨s, hs, htriple⟩ := mem_triplesOf_iff.mp h
  have hne : s.isEmpty = false := by
    obtain ⟨ray, hray, -⟩ := List.mem_map.mp htriple
    simpa [Star.isEmpty, Keyed.isEmpty] using List.ne_nil_of_mem hray
  rw [first?]
  rcases hs with hs | hs
  · rw [hs, Option.toList_some, List.singleton_append, List.find?_cons_of_pos (by simp [hne])]
    exact ⟨s, rfl, Or.inl htriple⟩
  · cases hf : ((q.main? n).toList ++ q.alternatives n).find? fun s => !s.isEmpty with
    | none =>
        have hempty := List.find?_eq_none.mp hf s (List.mem_append_right _ hs)
        simp [hne] at hempty
    | some first => exact ⟨first, rfl, Or.inr ⟨s, hs, htriple⟩⟩

/-- A star without rays is extended to the rays of the other star. -/
lemma rays_extend_of_isEmpty {s other : Star} (h : s.isEmpty = true) :
    (s.extend other).rays = other.rays := by
  have hrays : s.rays = .empty := Keyed.ext (List.isEmpty_iff.mp h)
  rw [Star.extend, hrays]
  exact Keyed.ext (Keyed.toList_ofList other.rays.nodup)

/-- The first candidate that has triples has those of the first star that does. -/
lemma exists_candidate_of_first? {s : Star} (h : q.first? n = some s) :
    ∃ c, (q.candidates n).find? (fun c => !c.isEmpty) = some c ∧ c.triples = s.triples := by
  rw [first?] at h
  rw [candidates]
  cases hm : q.main? n with
  | none =>
      rw [hm] at h
      exact ⟨s, h, rfl⟩
  | some main =>
      rw [hm, Option.toList_some, List.singleton_append] at h
      cases hempty : main.isEmpty with
      | false =>
          rw [candidatesOf, List.find?_cons_of_pos (by simp [hempty])]
          rw [List.find?_cons_of_pos (by simp [hempty])] at h
          obtain rfl := Option.some.inj h
          exact ⟨main, rfl, rfl⟩
      | true =>
          have hrays : ∀ a, (main.extend a).rays = a.rays := fun a => rays_extend_of_isEmpty hempty
          have hsame : ((fun c : Star => !c.isEmpty) ∘ main.extend) = fun c : Star => !c.isEmpty :=
            funext fun a => by simp [Star.isEmpty, hrays]
          rw [List.find?_cons_of_neg (by simp [hempty])] at h
          rw [candidatesOf, List.find?_cons_of_neg (by simp [hempty]), List.find?_map, hsame, h]
          exact ⟨main.extend s, rfl, by rw [Star.triples, hrays]; rfl⟩

end Query

end StarShapes
