import RepoAtlas.Text.Blank
import RepoAtlas.Text.Digit

/-! # Reading numerals

Numerals are written in the digits of any alphabet, with blanks around them. An underscore may
stand between two digits. A sign may stand in front.
-/

namespace RepoAtlas.Decimal

/-- The blanks around a numeral: all but the four separators of ASCII. -/
def isMargin (c : Char) : Bool := Text.isBlank c && !(28 ≤ c.toNat && c.toNat ≤ 31)

/-- Without the blanks around. -/
def trimmed (cs : List Char) : List Char :=
  ((cs.dropWhile isMargin).reverse.dropWhile isMargin).reverse

/-- The values of the digits at the start and what follows. An underscore is passed over if a digit
    stands before it and behind it. -/
def digitRun (afterDigit : Bool) : List Char → List Nat × List Char
  | [] => ([], [])
  | c :: rest =>
    match Text.digit? c with
    | some d =>
      let (ds, after) := digitRun true rest
      (d :: ds, after)
    | none =>
      if c = '_' && afterDigit && (rest.head?.bind Text.digit?).isSome then digitRun false rest
      else ([], c :: rest)

/-- The number that digits write. -/
def numberOf (ds : List Nat) : Nat := ds.foldl (fun n d => n * 10 + d) 0

/-- A sign, if one stands in front: is it negative? -/
def splitSign : List Char → Bool × List Char
  | '-' :: rest => (true, rest)
  | '+' :: rest => (false, rest)
  | rest => (false, rest)

/-- The most digits of a whole number that is read or written. -/
def mostDigits : Nat := 4300

/-- Has a whole number no more digits than are written? -/
def isShort (n : Int) : Bool := n.natAbs < Nat.pow 10 mostDigits

/-- Why a text is no whole number. -/
inductive WholeProblem where
  | notANumeral (text : String)
  | tooLong (count : Nat)
  deriving DecidableEq, Repr

/-- The whole number that a text writes. -/
def readWhole (text : String) : Except WholeProblem Int :=
  let (negative, body) := splitSign (trimmed text.toList)
  match digitRun false body with
  | ([], _) => .error (.notANumeral text)
  | (ds, []) =>
    if mostDigits < ds.length then .error (.tooLong ds.length)
    else .ok (if negative then -(numberOf ds : Int) else (numberOf ds : Int))
  | _ => .error (.notANumeral text)

/-- An exponent behind its mark, up to the end of the text. -/
def readExponent? : List Char → Option Int
  | [] => some 0
  | c :: rest =>
    if c = 'e' || c = 'E' then
      let (negative, body) := splitSign rest
      match digitRun false body with
      | ([], _) => none
      | (ds, []) => some (if negative then -(numberOf ds : Int) else (numberOf ds : Int))
      | _ => none
    else none

/-- The float of digits and a power of ten. Powers far outside the range of floats are cut. -/
def floatOf (ds : List Nat) (exponent : Int) : Float :=
  let bound : Int := 400 + ds.length
  let e := max (-bound) (min bound exponent)
  Float.ofScientific (numberOf ds) (e < 0) e.natAbs

/-- The magnitude that a text without sign writes. -/
def readMagnitude? (cs : List Char) : Option Float :=
  let word := String.ofList (cs.map Char.toLower)
  if word = "inf" || word = "infinity" then some (1.0 / 0.0)
  else if word = "nan" then some (0.0 / 0.0)
  else
    let (whole, rest) := digitRun false cs
    let (places, rest) :=
      match rest with
      | '.' :: more => digitRun false more
      | _ => ([], rest)
    if whole.isEmpty && places.isEmpty then none
    else (readExponent? rest).map fun e => floatOf (whole ++ places) (e - places.length)

/-- The float that a text writes. -/
def readFloat? (text : String) : Option Float :=
  let (negative, body) := splitSign (trimmed text.toList)
  (readMagnitude? body).map fun x => if negative then -x else x

end RepoAtlas.Decimal
