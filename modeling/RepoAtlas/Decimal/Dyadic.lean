/-! # Exact values of binary floats

A finite binary float is a mantissa times a power of two. `Dyadic` holds that value exactly, so
that rounding and comparing are integer arithmetic and statements about printed numbers can be
made about integers.
-/

namespace RepoAtlas

/-- The number `±mantissa · 2^exponent`. A negative zero is told apart. -/
structure Dyadic where
  negative : Bool
  mantissa : Nat
  exponent : Int
  deriving DecidableEq, Repr

namespace Dyadic

/-- The place of the sign in the bits of a float: two to the power of 63. -/
def signPlace : Nat := 0x8000000000000000

/-- The place of the hidden bit of a mantissa: two to the power of 52. -/
def hiddenPlace : Nat := 0x10000000000000

/-- The value of a float; none for infinities and what is not a number. -/
def ofFloat? (x : Float) : Option Dyadic :=
  let bits : Nat := x.toBits.toNat
  let negative := bits / signPlace = 1
  let biased : Nat := bits / hiddenPlace % 2048
  let fraction : Nat := bits % hiddenPlace
  if biased = 2047 then none
  else if biased = 0 then some { negative, mantissa := fraction, exponent := -1074 }
  else some { negative, mantissa := fraction + hiddenPlace, exponent := (biased : Int) - 1075 }

/-- The numerator of the magnitude. -/
def numerator (v : Dyadic) : Nat := v.mantissa * Nat.pow 2 v.exponent.toNat

/-- The denominator of the magnitude, a power of two. -/
def denominator (v : Dyadic) : Nat := Nat.pow 2 (-v.exponent).toNat

end Dyadic

end RepoAtlas
