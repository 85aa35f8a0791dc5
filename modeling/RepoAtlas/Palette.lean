import RepoAtlas.Decimal.Rounding

/-! # Colours and sizes of nodes

Both depend on the identity of a cluster, on depth and on the number of lines alone, so building
an unchanged tree again gives the same picture.
-/

namespace RepoAtlas.Palette

/-- Red, green and blue of the base colours. -/
def colours : List (Nat × Nat × Nat) :=
  [(0x4e, 0xa1, 0xff), (0xff, 0x99, 0x66), (0xcc, 0x99, 0xff), (0x99, 0xff, 0x99),
   (0xff, 0xcc, 0x66), (0xff, 0x66, 0x99), (0x66, 0xff, 0xcc), (0xaa, 0xaa, 0xaa),
   (0xff, 0x66, 0x66), (0x66, 0xff, 0x66)]

/-- A number as a signed word of 32 bits. -/
def signedWord (n : Int) : Int := n.bmod 0x100000000

/-- The hash of a cluster. The shifted value is a word; the running value itself is not cut. -/
def hash (cluster : String) : Int :=
  cluster.toList.foldl
    (fun h c => c.toNat + (signedWord (signedWord h * 32) - h)) 0

/-- How strongly a colour shows at a depth: less with every level, but never below half. -/
def fade (depth : Int) : Float :=
  let faded := 1 - Float.ofInt depth * 0.08
  if faded > 0.5 then faded else 0.5

/-- A part of a colour, faded and rounded to the nearest integer. -/
def shade (part : Nat) (strength : Float) : Int :=
  match Dyadic.ofFloat? (Float.ofNat part * strength) with
  | some v => Decimal.nearestInt .toEven v
  | none => 0

/-- The colour of a cluster at a depth. -/
def colour (cluster : String) (depth : Int) : String :=
  let index := (hash cluster).natAbs % colours.length
  let (red, green, blue) := colours.getD index (0, 0, 0)
  let strength := fade depth
  let part (n : Nat) : String := toString (shade n strength)
  "rgb(" ++ part red ++ "," ++ part green ++ "," ++ part blue ++ ")"

/-- The size of a file with so many lines, between 4 and 14; none for a negative number. -/
def fileSize? (loc : Int) : Option Float :=
  if loc < 0 then none
  else
    let raw := 5 + Float.log10 (Float.ofInt (loc + 1))
    let capped := if raw < 14 then raw else 14
    some (Decimal.roundPlaces .toEven 4 (if capped > 4 then capped else 4))

/-- The size of a folder; folders near the root are larger. -/
def folderSize (depth : Int) : Float :=
  Float.ofInt (12 + max 0 (3 - depth) * 2)

end RepoAtlas.Palette
