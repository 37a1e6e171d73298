/-!
# Sets of characters given by ranges
-/

namespace NameResolution.Unicode

/-- Whether a character lies in one of the ranges; both ends of a range belong to it. -/
def inRanges (ranges : List (Nat × Nat)) (c : Char) : Bool :=
  ranges.any fun range => range.1 ≤ c.toNat && c.toNat ≤ range.2

end NameResolution.Unicode
