/-! # Character ranges

Properties of characters are lists of ranges of code points, both ends included, in ascending
order.
-/

namespace RepoAtlas.Text

/-- Does the character lie in one of the ranges? -/
def inRanges (ranges : List (Nat × Nat)) (c : Char) : Bool :=
  ranges.any fun range => range.1 ≤ c.toNat && c.toNat ≤ range.2

end RepoAtlas.Text
