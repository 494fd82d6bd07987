import StarShapes.Binding.Bindings

/-!
Grounding: which stars are explained by the ray of another star.

* `groundedTargets`: the shapes through which a star was bound in full from a star that counts by
  itself or is, in turn, explained in this way. A chain of explanations never comes back to a star
  that it has passed.
* `dependencyStars`: the stars that dependencies speak of.
-/

namespace StarShapes

/-- The stars at either end of some dependency, each once. -/
def dependencyStars (edges : List Dependency) : List String :=
  distinct (edges.flatMap fun d => [d.origin, d.nested])

/-- The shapes through which `name` was bound in full from the ray of another star, where this star
is `ready` by itself or is explained likewise by stars among `rest` other than `name`. The stars in
`rest` are distinct. -/
def groundedTargets (edges : List Dependency) (ready : String → Bool) (rest : List String)
    (name : String) : List String :=
  if h : name ∈ rest then
    edges.foldl (fun found d =>
      if d.nested = name && d.full && d.origin ≠ name && !found.contains d.target &&
          (ready d.origin ||
            !(groundedTargets edges ready (rest.erase name) d.origin).isEmpty) then
        found ++ [d.target]
      else found) []
  else []
termination_by rest.length
decreasing_by
  rw [List.length_erase_of_mem h]
  exact Nat.sub_lt (List.length_pos_of_mem h) Nat.one_pos

end StarShapes
