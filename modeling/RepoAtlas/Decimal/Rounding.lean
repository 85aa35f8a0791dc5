import RepoAtlas.Decimal.Dyadic

/-! # Rounding to a number of decimal places

Rounding takes the exact value, so a number just below a tie is never taken for the tie. What
happens to a tie is a parameter.
-/

namespace RepoAtlas

/-- Which neighbour a value half-way between two goes to. -/
inductive Tie where
  | toEven
  | awayFromZero
  deriving DecidableEq, Repr

namespace Decimal

/-- The integer nearest to a quotient of naturals. -/
def roundDiv (tie : Tie) (num den : Nat) : Nat :=
  let quotient := num / den
  let twice := 2 * (num % den)
  if twice < den then quotient
  else if den < twice then quotient + 1
  else
    match tie with
    | .awayFromZero => quotient + 1
    | .toEven => if quotient % 2 = 0 then quotient else quotient + 1

/-- The magnitude in units of the last of so many places, rounded. -/
def units (tie : Tie) (places : Nat) (v : Dyadic) : Nat :=
  roundDiv tie (v.numerator * Nat.pow 10 places) v.denominator

/-- Digits of a natural number. -/
def digits (n : Nat) : List Char := Nat.toDigits 10 n

/-- Digits, zeros in front up to the width. -/
def padded (width n : Nat) : List Char :=
  let ds := digits n
  List.replicate (width - ds.length) '0' ++ ds

/-- A count of units of the last place as a numeral with a point. -/
def withPoint (places n : Nat) : List Char :=
  digits (n / Nat.pow 10 places) ++ '.' :: padded places (n % Nat.pow 10 places)

/-- The numeral of a value with a fixed number of places. The sign of a zero is kept. -/
def fixed (tie : Tie) (places : Nat) (v : Dyadic) : String :=
  String.ofList ((if v.negative then ['-'] else []) ++ withPoint places (units tie places v))

/-- The integer nearest to a value. -/
def nearestInt (tie : Tie) (v : Dyadic) : Int :=
  if v.negative then -(units tie 0 v : Int) else units tie 0 v

/-- The float nearest to the numeral with so many places. -/
def roundPlaces (tie : Tie) (places : Nat) (x : Float) : Float :=
  match Dyadic.ofFloat? x with
  | none => x
  | some v =>
    let magnitude := Float.ofScientific (units tie places v) true places
    if v.negative then -magnitude else magnitude

end Decimal

end RepoAtlas
