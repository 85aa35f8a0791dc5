/-! # UTF-8

Bytes are decoded one by one. The first byte of a character tells how many bytes follow and in which
range the next one must lie. Where a sequence breaks off there are two ways: `decode` lets the bytes
read so far stand for one replacement character and starts anew at the byte that broke it;
`decodeAll` gives up and tells which bytes are wrong.
-/

namespace RepoAtlas.Text

/-- A character that is not complete yet. -/
structure Unfinished where
  /-- The bits read so far. -/
  value : Nat
  /-- The range of the next byte. -/
  low : Nat
  high : Nat
  /-- How many bytes follow the next one. -/
  more : Nat
  deriving Repr

/-- What a byte at the start of a character means. -/
inductive Opening where
  | complete (c : Char)
  | unfinished (state : Unfinished)
  | broken

/-- The meaning of a first byte. -/
def opening (b : Nat) : Opening :=
  if b < 0x80 then .complete (Char.ofNat b)
  else if b < 0xC2 then .broken
  else if b < 0xE0 then .unfinished { value := b - 0xC0, low := 0x80, high := 0xBF, more := 0 }
  else if b < 0xF0 then
    .unfinished
      { value := b - 0xE0
        low := if b = 0xE0 then 0xA0 else 0x80
        high := if b = 0xED then 0x9F else 0xBF
        more := 1 }
  else if b < 0xF5 then
    .unfinished
      { value := b - 0xF0
        low := if b = 0xF0 then 0x90 else 0x80
        high := if b = 0xF4 then 0x8F else 0xBF
        more := 2 }
  else .broken

/-- What stands for bytes that are no character. -/
def replacement : Char := '\uFFFD'

/-- Goes on with a byte that cannot continue a character. -/
def reopen (b : Nat) : List Char × Option Unfinished :=
  match opening b with
  | .complete c => ([c], none)
  | .unfinished state => ([], some state)
  | .broken => ([replacement], none)

/-- The characters that one more byte completes, and what is left unfinished. -/
def nextByte (b : Nat) : Option Unfinished → List Char × Option Unfinished
  | none => reopen b
  | some state =>
    if state.low ≤ b && b ≤ state.high then
      let value := state.value * 64 + b % 64
      match state.more with
      | 0 => ([Char.ofNat value], none)
      | more + 1 => ([], some { value, low := 0x80, high := 0xBF, more })
    else
      let (chars, state) := reopen b
      (replacement :: chars, state)

/-- The characters of bytes behind what is unfinished. -/
def decodeFrom (state : Option Unfinished) : List UInt8 → List Char
  | [] => if state.isSome then [replacement] else []
  | b :: rest =>
    let (chars, state) := nextByte b.toNat state
    chars ++ decodeFrom state rest

/-- The characters of bytes. -/
def decode (bytes : List UInt8) : List Char := decodeFrom none bytes

/-- Carriage returns, alone or before a line feed, become line feeds. -/
def unifyLineEnds : List Char → List Char
  | '\r' :: '\n' :: rest => '\n' :: unifyLineEnds rest
  | '\r' :: rest => '\n' :: unifyLineEnds rest
  | c :: rest => c :: unifyLineEnds rest
  | [] => []

/-- Why bytes are no text. -/
inductive Utf8Fault where
  /-- No character starts with the byte. -/
  | opening
  /-- The byte behind does not continue the character. -/
  | continuation
  /-- The bytes end inside a character. -/
  | ending
  deriving DecidableEq, Repr

/-- What is wrong with bytes, where, and in which of them. -/
structure Utf8Problem where
  fault : Utf8Fault
  position : Nat
  bytes : List UInt8
  deriving DecidableEq, Repr

/-- Says what is wrong. -/
def Utf8Fault.reason : Utf8Fault → String
  | .opening => "invalid start byte"
  | .continuation => "invalid continuation byte"
  | .ending => "unexpected end of data"

/-- A byte in two small hexadecimal digits. -/
def byteText (b : UInt8) : String :=
  String.ofList [Nat.digitChar (b.toNat / 16), Nat.digitChar (b.toNat % 16)]

/-- The whole message: a single byte is named, of several the positions are. -/
def Utf8Problem.message (p : Utf8Problem) : String :=
  "'utf-8' codec can't decode " ++
    (match p.bytes with
      | [b] => "byte 0x" ++ byteText b ++ " in position " ++ toString p.position
      | bytes =>
        "bytes in position " ++ toString p.position ++ "-" ++
          toString (p.position + bytes.length - 1)) ++
    ": " ++ p.fault.reason

/-- The characters of bytes from a position on, behind the bytes of a character begun before. -/
def decodeAllFrom (position : Nat) (begun : Option (Unfinished × List UInt8)) :
    List UInt8 → Except Utf8Problem (List Char)
  | [] =>
    match begun with
    | none => .ok []
    | some (_, bytes) => .error { fault := .ending, position := position - bytes.length, bytes }
  | b :: rest =>
    match begun with
    | none =>
      match opening b.toNat with
      | .complete c => (decodeAllFrom (position + 1) none rest).map (c :: ·)
      | .unfinished state => decodeAllFrom (position + 1) (some (state, [b])) rest
      | .broken => .error { fault := .opening, position, bytes := [b] }
    | some (state, bytes) =>
      if state.low ≤ b.toNat && b.toNat ≤ state.high then
        let value := state.value * 64 + b.toNat % 64
        match state.more with
        | 0 => (decodeAllFrom (position + 1) none rest).map (Char.ofNat value :: ·)
        | more + 1 =>
          let next : Unfinished := { value, low := 0x80, high := 0xBF, more }
          decodeAllFrom (position + 1) (some (next, bytes ++ [b])) rest
      else .error { fault := .continuation, position := position - bytes.length, bytes }

/-- The characters of bytes, if all of them belong to characters. -/
def decodeAll (bytes : List UInt8) : Except Utf8Problem (List Char) := decodeAllFrom 0 none bytes

/-- The text of a file. -/
def ofBytes (bytes : List UInt8) : String := String.ofList (unifyLineEnds (decode bytes))

end RepoAtlas.Text
