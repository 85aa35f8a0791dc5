/-! # The leading items of a list -/

namespace RepoAtlas

/-- The first items of a list; a negative bound leaves as many items out at the end. -/
def leading {α : Type} (bound : Int) (items : List α) : List α :=
  if 0 ≤ bound then items.take bound.toNat else items.take (items.length - bound.natAbs)

end RepoAtlas
