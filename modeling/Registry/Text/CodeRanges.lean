/-! # CodeRanges — classes of characters by their codes

A property of characters is given by the ranges of codes that have it, each with its first and its
last code, in ascending order. -/

namespace Registry.Text

-- The first and the last codes of ranges.
abbrev CodeRanges := List (Nat × Nat)

namespace CodeRanges

def contains (ranges : CodeRanges) (c : Char) : Bool :=
  ranges.any fun (low, high) => low ≤ c.toNat && c.toNat ≤ high

end CodeRanges

end Registry.Text
