/-!
# Ranges of code points

A set of characters as a list of ranges, each with its first and its last code point.
-/

namespace Gridwalk.Text

abbrev CodeRanges := List (Nat × Nat)

namespace CodeRanges

def contains (ranges : CodeRanges) (c : Char) : Bool :=
  ranges.any fun (first, last) => first ≤ c.toNat && c.toNat ≤ last

end CodeRanges

end Gridwalk.Text
