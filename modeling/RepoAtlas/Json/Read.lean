import RepoAtlas.Json.Value

/-! # Reading JSON

Blanks may stand between any two tokens. A number without a point and an exponent is whole. The
reader keeps the order of members and does not merge repeated names.
-/

namespace RepoAtlas.Json

/-- The blanks of JSON. -/
def isBlank (c : Char) : Bool := c = ' ' || c = '\n' || c = '\r' || c = '\t'

def skipBlanks (cs : List Char) : List Char := cs.dropWhile isBlank

/-- The value of a hexadecimal digit. -/
def hexValue? (c : Char) : Option Nat :=
  if c.isDigit then some (c.toNat - 48)
  else if 'a' ≤ c ∧ c ≤ 'f' then some (c.toNat - 87)
  else if 'A' ≤ c ∧ c ≤ 'F' then some (c.toNat - 55)
  else none

/-- A 16-bit unit in four hexadecimal digits. -/
def readUnit : List Char → Option (Nat × List Char)
  | a :: b :: c :: d :: rest => do
    let a ← hexValue? a
    let b ← hexValue? b
    let c ← hexValue? c
    let d ← hexValue? d
    some (a * 4096 + b * 256 + c * 16 + d, rest)
  | _ => none

/-- The character of an escape, its backslash passed. Two units may stand for one character; half
    of such a pair stands for the replacement character. -/
def readEscape : List Char → Option (Char × List Char)
  | '"' :: rest => some ('"', rest)
  | '\\' :: rest => some ('\\', rest)
  | '/' :: rest => some ('/', rest)
  | 'b' :: rest => some ('\x08', rest)
  | 'f' :: rest => some ('\x0c', rest)
  | 'n' :: rest => some ('\n', rest)
  | 'r' :: rest => some ('\r', rest)
  | 't' :: rest => some ('\t', rest)
  | 'u' :: rest => do
    let (high, rest) ← readUnit rest
    if 0xD800 ≤ high ∧ high < 0xDC00 then
      match rest with
      | '\\' :: 'u' :: more =>
        match readUnit more with
        | some (low, after) =>
          if 0xDC00 ≤ low ∧ low < 0xE000 then
            some (Char.ofNat (0x10000 + (high - 0xD800) * 1024 + (low - 0xDC00)), after)
          else some ('\uFFFD', rest)
        | none => none
      | _ => some ('\uFFFD', rest)
    else if 0xDC00 ≤ high ∧ high < 0xE000 then some ('\uFFFD', rest)
    else some (Char.ofNat high, rest)
  | _ => none

/-- The rest of a string behind its opening quote; `acc` holds what was read, latest first. -/
def readStringRest : Nat → List Char → List Char → Option (String × List Char)
  | 0, _, _ => none
  | _ + 1, _, [] => none
  | _ + 1, acc, '"' :: rest => some (String.ofList acc.reverse, rest)
  | fuel + 1, acc, '\\' :: rest =>
    match readEscape rest with
    | some (c, rest) => readStringRest fuel (c :: acc) rest
    | none => none
  | fuel + 1, acc, c :: rest =>
    if c.toNat < 32 then none else readStringRest fuel (c :: acc) rest

/-- The value of decimal digits. -/
def digitsValue (ds : List Char) : Nat := ds.foldl (fun n c => n * 10 + (c.toNat - 48)) 0

/-- An optional exponent, its sign included. -/
def readExponent : List Char → Option (Option Int × List Char)
  | c :: rest =>
    if c = 'e' ∨ c = 'E' then
      let (negative, rest) :=
        match rest with
        | '-' :: rest => (true, rest)
        | '+' :: rest => (false, rest)
        | rest => (false, rest)
      let ds := rest.takeWhile Char.isDigit
      if ds.isEmpty then none
      else
        let n : Int := digitsValue ds
        some (some (if negative then -n else n), rest.dropWhile Char.isDigit)
    else some (none, c :: rest)
  | [] => some (none, [])

/-- The float of a decimal: digits, places behind the point and an exponent. -/
def decimalFloat (negative : Bool) (mantissa : Nat) (exponent : Int) : Float :=
  let magnitude := Float.ofScientific mantissa (exponent < 0) exponent.natAbs
  if negative then -magnitude else magnitude

/-- The places behind a point, if there is a point. -/
def readPlaces : List Char → Option (List Char) × List Char
  | '.' :: rest => (some (rest.takeWhile Char.isDigit), rest.dropWhile Char.isDigit)
  | rest => (none, rest)

/-- A number behind its sign. -/
def readMagnitude (negative : Bool) (cs : List Char) : Option (Json × List Char) :=
  let whole := cs.takeWhile Char.isDigit
  if whole.isEmpty then none
  else
    let (places, rest) := readPlaces (cs.dropWhile Char.isDigit)
    match readExponent rest with
    | none => none
    | some (exponent, rest) =>
      match places, exponent with
      | none, none =>
        let n : Int := digitsValue whole
        some (.int (if negative then -n else n), rest)
      | some [], _ => none
      | _, _ =>
        let places := places.getD []
        some (.float (decimalFloat negative (digitsValue (whole ++ places))
          (exponent.getD 0 - places.length)), rest)

/-- A number. -/
def readNumber : List Char → Option (Json × List Char)
  | '-' :: rest => readMagnitude true rest
  | cs => readMagnitude false cs

mutual

/-- One value. The first argument bounds the depth and the number of items. -/
def readValue : Nat → List Char → Option (Json × List Char)
  | 0, _ => none
  | fuel + 1, cs =>
    match skipBlanks cs with
    | 'n' :: 'u' :: 'l' :: 'l' :: rest => some (.null, rest)
    | 't' :: 'r' :: 'u' :: 'e' :: rest => some (.bool true, rest)
    | 'f' :: 'a' :: 'l' :: 's' :: 'e' :: rest => some (.bool false, rest)
    | '"' :: rest =>
      match readStringRest (fuel + 1) [] rest with
      | some (s, rest) => some (.str s, rest)
      | none => none
    | '[' :: rest =>
      match skipBlanks rest with
      | ']' :: rest => some (.arr [], rest)
      | rest =>
        match readValue fuel rest with
        | some (item, rest) => readItems fuel [item] rest
        | none => none
    | '\x7b' :: rest =>
      match skipBlanks rest with
      | '\x7d' :: rest => some (.obj [], rest)
      | rest =>
        match readMember fuel rest with
        | some (member, rest) => readMembers fuel [member] rest
        | none => none
    | rest => readNumber rest

/-- The items behind the first; `acc` holds the items so far, latest first. -/
def readItems : Nat → List Json → List Char → Option (Json × List Char)
  | 0, _, _ => none
  | fuel + 1, acc, cs =>
    match skipBlanks cs with
    | ']' :: rest => some (.arr acc.reverse, rest)
    | ',' :: rest =>
      match readValue fuel rest with
      | some (item, rest) => readItems fuel (item :: acc) rest
      | none => none
    | _ => none

/-- One member of an object. -/
def readMember : Nat → List Char → Option ((String × Json) × List Char)
  | 0, _ => none
  | fuel + 1, cs =>
    match skipBlanks cs with
    | '"' :: rest =>
      match readStringRest (fuel + 1) [] rest with
      | some (name, rest) =>
        match skipBlanks rest with
        | ':' :: rest =>
          match readValue fuel rest with
          | some (value, rest) => some ((name, value), rest)
          | none => none
        | _ => none
      | none => none
    | _ => none

/-- The members behind the first; `acc` holds the members so far, latest first. -/
def readMembers : Nat → List (String × Json) → List Char → Option (Json × List Char)
  | 0, _, _ => none
  | fuel + 1, acc, cs =>
    match skipBlanks cs with
    | '\x7d' :: rest => some (.obj acc.reverse, rest)
    | ',' :: rest =>
      match readMember fuel rest with
      | some (member, rest) => readMembers fuel (member :: acc) rest
      | none => none
    | _ => none

end

/-- The value that a text is, blanks around it aside. -/
def parse? (text : String) : Option Json :=
  let cs := text.toList
  match readValue (cs.length + 1) cs with
  | some (value, rest) => if (skipBlanks rest).isEmpty then some value else none
  | none => none

end RepoAtlas.Json
