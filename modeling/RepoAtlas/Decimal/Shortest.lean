import RepoAtlas.Decimal.Rounding

/-! # The fewest digits that identify a float

The numbers that round to a float form an interval around its value. For one digit, two digits and
so on, the two neighbours of the value on the decimal grid of that many digits are tested; the
first grid with a hit wins, and of two hits the nearer.
-/

namespace RepoAtlas.Decimal

/-- The number `0.d₁d₂… · 10^point` with digits `d`. -/
structure Digits where
  digits : Nat
  count : Nat
  point : Int
  deriving DecidableEq, Repr

/-- How many zeros follow the point of a quotient below one, counted from `k` on. -/
def leadingZeros (num den : Nat) : Nat → Nat → Nat
  | 0, k => k
  | fuel + 1, k => if den ≤ num * Nat.pow 10 (k + 1) then k else leadingZeros num den fuel (k + 1)

/-- The power of ten just above a positive quotient: the position of its first digit. -/
def firstPlace (num den : Nat) : Int :=
  let above := (digits (num / den)).length
  if den ≤ num then above else -(leadingZeros num den 400 0 : Nat)

/-- Does a grid point round back to the value? All numbers are in quarters of the last place of
    the mantissa; an end of the interval counts if the mantissa is even. -/
def identifies (v : Dyadic) (num den : Nat) : Bool :=
  let lowGap := if v.mantissa = Dyadic.hiddenPlace && v.exponent ≠ -1074 then 1 else 2
  let shift := v.exponent - 2
  let up := Nat.pow 2 shift.toNat
  let down := Nat.pow 2 (-shift).toNat
  let low := (4 * v.mantissa - lowGap) * up * den
  let high := (4 * v.mantissa + 2) * up * den
  let point := num * down
  if v.mantissa % 2 = 0 then low ≤ point && point ≤ high else low < point && point < high

/-- The digits of the value on the grid with so many digits, if the grid identifies it. -/
def onGrid (v : Dyadic) (place : Int) (count : Nat) : Option Nat :=
  let scale : Int := count - place
  let num := v.numerator * Nat.pow 10 scale.toNat
  let den := v.denominator * Nat.pow 10 (-scale).toNat
  let below := num / den
  let fits (n : Nat) := identifies v (n * Nat.pow 10 (-scale).toNat) (Nat.pow 10 scale.toNat)
  let nearest := roundDiv .toEven num den
  let other := if nearest = below then below + 1 else below
  if 0 < nearest && fits nearest then some nearest
  else if 0 < other && fits other then some other
  else none

/-- The fewest digits that identify a positive value. -/
def shortest (v : Dyadic) : Digits :=
  let place := firstPlace v.numerator v.denominator
  let rec find : Nat → Nat → Digits
    | 0, count => { digits := (onGrid v place count).getD 0, count, point := place }
    | fuel + 1, count =>
      match onGrid v place count with
      | some n =>
        if n = Nat.pow 10 count then { digits := 1, count := 1, point := place + 1 }
        else { digits := n, count, point := place }
      | none => find fuel (count + 1)
  find 16 1

end RepoAtlas.Decimal
