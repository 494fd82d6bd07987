import StarShapes.Collection.Distinct
import StarShapes.Query.Star

/-!
Queries as stars.

* `Query`: the stars outside every UNION, and the UNION groups, each with the stars of its branches.
* `Query.new`: a query whose rays are linked to the stars that their objects name; explicit links
  stay (`Ray.link?_linkWhere`). `Query.ofStars` and `Query.withUnion` build one step by step.
* `Query.alternatives`: the stars of one name in the branches, in order.
* `Query.candidates`: the ways to read the stars of one name, the main star first
  (`name_of_mem_candidates`).
* `Query.names`: the names of all stars, each once, main ones first (`mem_names`).
-/

namespace StarShapes

/-- The stars of one branch of a UNION, by name. -/
abbrev Branch : Type := Keyed Star.name

/-- A query as stars, which refer to one another by name. -/
structure Query where
  /-- The stars outside every UNION, by name. -/
  stars : Branch
  /-- The UNION groups and their branches. -/
  unions : List (List Branch)
  deriving DecidableEq

/-! ### Links -/

/-- Link a ray to the star that its object names, if that star is known; a link that is there
stays. -/
def Ray.linkWhere (known : String → Bool) (r : Ray) : Ray :=
  { r with link? := r.link? <|> r.triple.object.name?.filter known }

@[simp]
theorem Ray.predicate_linkWhere (known : String → Bool) (r : Ray) :
    (r.linkWhere known).predicate = r.predicate := rfl

/-- A ray without link gets the name of its object, if that is known. -/
theorem Ray.link?_linkWhere (known : String → Bool) (r : Ray) :
    (r.linkWhere known).link? = r.link?.or (r.triple.object.name?.filter known) := by
  simp [Ray.linkWhere]

/-- Link all rays of a star. -/
def Star.linkWhere (known : String → Bool) (s : Star) : Star :=
  { s with rays := s.rays.map (Ray.linkWhere known) (fun _ => rfl) }

@[simp]
theorem Star.name_linkWhere (known : String → Bool) (s : Star) :
    (s.linkWhere known).name = s.name := rfl

/-- Link all rays of the stars of a branch. -/
def Branch.linkWhere (known : String → Bool) (b : Branch) : Branch :=
  b.map (Star.linkWhere known) (fun _ => rfl)

@[simp]
theorem Branch.keys_linkWhere (known : String → Bool) (b : Branch) :
    (Branch.linkWhere known b).keys = b.keys :=
  Keyed.keys_map _ _ b

namespace Query

/-- All branches of all groups, in order. -/
def branches (q : Query) : List Branch := q.unions.flatten

/-- Link every ray in its scope: that of a main star is the whole query, that of a star in a
branch is the branch and the main stars. -/
def link (q : Query) : Query where
  stars := Branch.linkWhere
    (fun n => q.stars.contains n || q.branches.any (·.contains n)) q.stars
  unions := q.unions.map fun group => group.map fun b =>
    Branch.linkWhere (fun n => b.contains n || q.stars.contains n) b

/-- The query of the given stars, with its rays linked. -/
def new (stars : Branch) (unions : List (List Branch)) : Query := link ⟨stars, unions⟩

/-- The query of some stars outside every UNION. -/
def ofStars (stars : List Star) : Query := new (.ofList stars) []

/-- The query with one more UNION group. -/
def withUnion (q : Query) (group : List (List Star)) : Query :=
  new q.stars (q.unions ++ [group.map Keyed.ofList])

/-! ### Look-up -/

/-- The star of this name outside every UNION. -/
def main? (q : Query) (name : String) : Option Star := q.stars.get? name

/-- The stars of this name in the branches, in the order of declaration. -/
def alternatives (q : Query) (name : String) : List Star :=
  q.branches.filterMap (·.get? name)

/-- The names of all stars: first the main ones, then those found in branches alone. -/
def names (q : Query) : List String :=
  pushAllNew q.stars.keys (q.branches.flatMap Keyed.keys)

/-- Whether some star has this name. -/
def contains (q : Query) (name : String) : Bool :=
  q.stars.contains name || !(q.alternatives name).isEmpty

theorem mem_names {q : Query} {n : String} :
    n ∈ q.names ↔ n ∈ q.stars.keys ∨ ∃ b ∈ q.branches, n ∈ b.keys := by
  simp [names]

theorem nodup_names (q : Query) : q.names.Nodup := nodup_pushAllNew q.stars.nodup_keys _

/-- The triples of a name: those of the main star, then those of its alternatives. -/
def triplesOf (q : Query) (name : String) : List Triple :=
  ((q.main? name).toList ++ q.alternatives name).flatMap Star.triples

/-- The triples of every star, by name. -/
def triplesBySubject (q : Query) : List (String × List Triple) :=
  q.names.map fun n => (n, q.triplesOf n)

/-! ### Candidates -/

/-- The ways to read a main star and its alternatives: the main star alone, then extended by each
alternative; without a main star the alternatives themselves. -/
def candidatesOf (main? : Option Star) (alternatives : List Star) : List Star :=
  match main? with
  | some main => main :: alternatives.map main.extend
  | none => alternatives

/-- The ways to read the stars of one name. -/
def candidates (q : Query) (name : String) : List Star :=
  candidatesOf (q.main? name) (q.alternatives name)

/-- A candidate of a name has that name. -/
theorem name_of_mem_candidates {q : Query} {n : String} {s : Star} (h : s ∈ q.candidates n) :
    s.name = n := by
  unfold candidates candidatesOf at h
  split at h
  · rename_i main hm
    rcases List.mem_cons.1 h with rfl | h
    · exact Keyed.key_of_get? hm
    · obtain ⟨a, _, rfl⟩ := List.mem_map.1 h
      have hn : main.name = n := Keyed.key_of_get? hm
      exact hn
  · obtain ⟨b, _, hb⟩ := List.mem_filterMap.1 h
    exact Keyed.key_of_get? hb

end Query

end StarShapes
