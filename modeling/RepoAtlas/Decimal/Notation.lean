import RepoAtlas.Decimal.Shortest

/-! # How floats are written

Floats are written with the fewest digits that identify them: positionally between `0.0001` and
`10^16`, otherwise with a signed exponent of at least two digits. A whole number keeps `.0`.
-/

namespace RepoAtlas.Decimal

/-- The decisions of a float format. -/
structure Layout where
  /-- Positional if the first digit stands at most this far behind the point. -/
  leastPoint : Int
  /-- Positional if the first digit stands at most this far in front of the point. -/
  mostPoint : Int
  exponentMark : Char
  exponentWidth : Nat
  nan : String
  infinity : String

/-- The format of all floats in payloads and messages. -/
def plainLayout : Layout :=
  { leastPoint := -3, mostPoint := 16, exponentMark := 'e', exponentWidth := 2
    nan := "nan", infinity := "inf" }

/-- Lays digits out. -/
def Layout.place (layout : Layout) (d : Digits) : List Char :=
  let ds := padded d.count d.digits
  if layout.leastPoint ≤ d.point && d.point ≤ layout.mostPoint then
    if d.point ≤ 0 then
      ['0', '.'] ++ List.replicate (-d.point).toNat '0' ++ ds
    else
      let whole := d.point.toNat
      if ds.length ≤ whole then ds ++ List.replicate (whole - ds.length) '0' ++ ['.', '0']
      else ds.take whole ++ '.' :: ds.drop whole
  else
    let exponent := d.point - 1
    let mantissa :=
      match ds with
      | [] => []
      | [first] => [first]
      | first :: rest => first :: '.' :: rest
    mantissa ++ layout.exponentMark :: (if exponent < 0 then '-' else '+') ::
      padded layout.exponentWidth exponent.natAbs

/-- The text of a float. -/
def Layout.write (layout : Layout) (x : Float) : String :=
  match Dyadic.ofFloat? x with
  | none =>
    if x.isNaN then layout.nan
    else if x < 0 then "-" ++ layout.infinity
    else layout.infinity
  | some v =>
    let body := if v.mantissa = 0 then ['0', '.', '0'] else layout.place (shortest v)
    String.ofList (if v.negative then '-' :: body else body)

/-- The text of a float in payloads and messages. -/
def write (x : Float) : String := plainLayout.write x

end RepoAtlas.Decimal
