/-! # Amounts

Whatever can be compared with a number may stand where an amount is expected.
-/

namespace RepoAtlas

/-- A value that can be compared with a number. -/
inductive Amount where
  | flag (b : Bool)
  | whole (n : Int)
  | real (x : Float)

namespace Amount

/-- Is the amount less than one? What is no number is not. -/
def isBelowOne : Amount → Bool
  | .flag b => !b
  | .whole n => n < 1
  | .real x => x < 1.0

/-- The amount as a whole number, if it is one. -/
def whole? : Amount → Option Int
  | .flag b => some (if b then 1 else 0)
  | .whole n => some n
  | .real _ => none

end Amount

end RepoAtlas
