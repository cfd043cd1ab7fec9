/-!
# Sets of characters

A set of characters as the ranges of their code points.
-/

namespace RouteSync.Text

/-- Whether a character lies in one of some ranges, ends included. -/
def inRanges (ranges : List (Nat × Nat)) (c : Char) : Bool :=
  ranges.any fun r => decide (r.1 ≤ c.toNat) && decide (c.toNat ≤ r.2)

end RouteSync.Text
