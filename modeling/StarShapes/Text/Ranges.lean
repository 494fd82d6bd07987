/-!
Classes of characters given by ranges of code points.
-/

namespace StarShapes

/-- Whether a character lies in one of some ranges, the ends included. -/
def inRanges (ranges : List (Nat × Nat)) (c : Char) : Bool :=
  ranges.any fun (first, last) => first ≤ c.toNat && c.toNat ≤ last

theorem inRanges_append (r r' : List (Nat × Nat)) (c : Char) :
    inRanges (r ++ r') c = (inRanges r c || inRanges r' c) := by
  simp [inRanges]

end StarShapes
