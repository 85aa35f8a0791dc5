import RepoAtlas.Decimal.Read
import RepoAtlas.Settings.Value
import RepoAtlas.Toml.Failure
import RepoAtlas.Json.Read

/-! # Numbers, dates and times of documents

Each reader either finds the longest value of its kind at the start of the rest or nothing. A single
underscore may stand between two digits of a number.
-/

namespace RepoAtlas.Toml

/-- Digits at the start, single underscores between them passed over, and what follows. -/
def moreDigits (isDigit : Char → Bool) : List Char → List Char × List Char
  | [] => ([], [])
  | c :: rest =>
    if isDigit c then
      let (ds, after) := moreDigits isDigit rest
      (c :: ds, after)
    else if c = '_' && (rest.head?.map isDigit).getD false then moreDigits isDigit rest
    else ([], c :: rest)

/-- Digits that start with a digit. -/
def digitsAt? (isDigit : Char → Bool) (cs : List Char) : Option (List Char × List Char) :=
  match cs with
  | c :: _ => if isDigit c then some (moreDigits isDigit cs) else none
  | [] => none

/-- The value of digits. -/
def valueOf (base : Nat) (ds : List Char) : Nat :=
  ds.foldl (fun n c => n * base + (Json.hexValue? c).getD 0) 0

/-- A whole number in another base, behind its leading zero. -/
def basedAt? (cs : List Char) : Option (Nat × List Char) :=
  let digits (base : Nat) (isDigit : Char → Bool) (rest : List Char) : Option (Nat × List Char) :=
    (digitsAt? isDigit rest).map fun (ds, after) => (valueOf base ds, after)
  match cs with
  | 'x' :: rest => digits 16 (fun c => (Json.hexValue? c).isSome) rest
  | 'b' :: rest => digits 2 (fun c => c = '0' || c = '1') rest
  | 'o' :: rest => digits 8 (fun c => '0' ≤ c && c ≤ '7') rest
  | _ => none

/-- The digits in front of a point: a lone zero, or digits that do not start with one. -/
def wholeAt? (cs : List Char) : Option (List Char × List Char) :=
  match cs with
  | '0' :: rest => some (['0'], rest)
  | cs => digitsAt? Char.isDigit cs

/-- What follows a point and digits behind it, if they stand here. -/
def skipFraction (cs : List Char) : List Char :=
  match cs with
  | '.' :: rest => ((digitsAt? Char.isDigit rest).map (·.2)).getD cs
  | cs => cs

/-- What follows an exponent, if one stands here. -/
def skipExponent (cs : List Char) : List Char :=
  match cs with
  | c :: rest =>
    if c = 'e' || c = 'E' then
      ((digitsAt? Char.isDigit (Decimal.splitSign rest).2).map (·.2)).getD cs
    else cs
  | [] => []

/-- A decimal number with its sign. -/
def decimalAt? (cs : List Char) : Option (Except Cause Value × List Char) :=
  let (negative, body) := Decimal.splitSign cs
  match wholeAt? body with
  | none => none
  | some (ds, rest) =>
    let after := skipExponent (skipFraction rest)
    if after.length < rest.length then
      let text := String.ofList (cs.take (cs.length - after.length))
      some (.ok (.float ((Decimal.readFloat? text).getD 0)), after)
    else if Decimal.mostDigits < ds.length then some (.error (.tooManyDigits ds.length), rest)
    else
      let n : Int := valueOf 10 ds
      some (.ok (.int (if negative then -n else n)), rest)

/-- A number. -/
def numberAt? (cs : List Char) : Option (Except Cause Value × List Char) :=
  match cs with
  | '0' :: rest =>
    match basedAt? rest with
    | some (n, after) => some (.ok (.int n), after)
    | none => decimalAt? cs
  | cs => decimalAt? cs

/-- A float that is no number, or infinite. -/
def specialAt? (cs : List Char) : Option (Float × List Char) :=
  let (negative, body) := Decimal.splitSign cs
  let signed (x : Float) : Float := if negative then -x else x
  match body with
  | 'i' :: 'n' :: 'f' :: rest => some (signed (1.0 / 0.0), rest)
  | 'n' :: 'a' :: 'n' :: rest => some (0.0 / 0.0, rest)
  | _ => none

/-- So many digits as a number between two bounds. -/
def fixedAt? (count low high : Nat) (cs : List Char) : Option (Nat × List Char) :=
  let ds := cs.take count
  let n := valueOf 10 ds
  if ds.length = count && ds.all Char.isDigit && low ≤ n && n ≤ high then some (n, cs.drop count)
  else none

/-- Passes one character. -/
def pass? (c : Char) (cs : List Char) : Option (List Char) :=
  match cs with
  | first :: rest => if first = c then some rest else none
  | [] => none

/-- Microseconds behind a point; digits behind the sixth are left out. -/
def microsAt (cs : List Char) : Nat × List Char :=
  match cs with
  | '.' :: rest =>
    let ds := rest.takeWhile Char.isDigit
    if ds.isEmpty then (0, cs)
    else
      let six := ds.take 6
      (valueOf 10 (six ++ List.replicate (6 - six.length) '0'), rest.dropWhile Char.isDigit)
  | cs => (0, cs)

/-- A time of day. -/
def clockAt? (cs : List Char) : Option (Clock × List Char) := do
  let (hour, rest) ← fixedAt? 2 0 23 cs
  let rest ← pass? ':' rest
  let (minute, rest) ← fixedAt? 2 0 59 rest
  let rest ← pass? ':' rest
  let (second, rest) ← fixedAt? 2 0 59 rest
  let (micros, rest) := microsAt rest
  some ({ hour, minute, second, micros }, rest)

/-- A day. -/
def dayAt? (cs : List Char) : Option (Day × List Char) := do
  let (year, rest) ← fixedAt? 4 0 9999 cs
  let rest ← pass? '-' rest
  let (month, rest) ← fixedAt? 2 1 12 rest
  let rest ← pass? '-' rest
  let (day, rest) ← fixedAt? 2 1 31 rest
  some ({ year, month, day }, rest)

/-- An offset from universal time in minutes. -/
def offsetAt? (cs : List Char) : Option (Int × List Char) :=
  match cs with
  | [] => none
  | c :: rest =>
    if c = 'Z' || c = 'z' then some (0, rest)
    else if c = '+' || c = '-' then do
      let (hours, rest) ← fixedAt? 2 0 23 rest
      let rest ← pass? ':' rest
      let (minutes, rest) ← fixedAt? 2 0 59 rest
      let n : Int := hours * 60 + minutes
      some (if c = '-' then -n else n, rest)
    else none

/-- A time of day behind a date, with a mark in between. -/
def laterClockAt? (cs : List Char) : Option (Clock × List Char) :=
  match cs with
  | c :: rest => if c = 'T' || c = 't' || c = ' ' then clockAt? rest else none
  | [] => none

/-- A moment that starts with a date. -/
def datedAt? (cs : List Char) : Option (Moment × List Char) :=
  match dayAt? cs with
  | none => none
  | some (day, rest) =>
    match laterClockAt? rest with
    | none => some (.date day, rest)
    | some (clock, rest) =>
      match offsetAt? rest with
      | some (offset, rest) => some (.dateTime day clock (some offset), rest)
      | none => some (.dateTime day clock none, rest)

/-- Is the day of the moment in the calendar? -/
def isReal : Moment → Bool
  | .date d => d.exists
  | .dateTime d _ _ => d.exists
  | .time _ => true

/-- A date, a time, or both. -/
def momentAt? (cs : List Char) : Option (Except Cause Value × List Char) :=
  match datedAt? cs with
  | some (m, rest) => some (if isReal m then .ok (.moment m) else .error .badDate, rest)
  | none => (clockAt? cs).map fun (clock, rest) => (.ok (.moment (.time clock)), rest)

/-- A number, a date or a time. -/
def simpleAt? (cs : List Char) : Option (Except Cause Value × List Char) :=
  ((momentAt? cs).or (numberAt? cs)).or
    ((specialAt? cs).map fun (x, rest) => (.ok (.float x), rest))

end RepoAtlas.Toml
