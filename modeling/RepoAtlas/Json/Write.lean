import RepoAtlas.Decimal.Notation
import RepoAtlas.Decimal.Read
import RepoAtlas.Json.Value

/-! # Writing JSON

With an indent every item and member stands on a line of its own; without one everything is on
one line, with a blank behind each comma and colon. An empty list or object has no lines inside.
Only quotes, backslashes and control characters are escaped, unless the text has to be ASCII. A value
has no text if a whole number in it has too many digits, or if the indent is wider than any text.
-/

namespace RepoAtlas.Json

/-- The hexadecimal digits of a 16-bit unit. -/
def unitDigits (n : Nat) : List Char :=
  let digit (k : Nat) : Char := "0123456789abcdef".toList.getD (k % 16) '0'
  [digit (n / 4096), digit (n / 256), digit (n / 16), digit n]

/-- An escaped 16-bit unit. -/
def unitEscape (n : Nat) : List Char := '\\' :: 'u' :: unitDigits n

/-- A character inside a JSON string. -/
def writeChar (ascii : Bool) (c : Char) : List Char :=
  match c with
  | '"' => ['\\', '"']
  | '\\' => ['\\', '\\']
  | '\n' => ['\\', 'n']
  | '\r' => ['\\', 'r']
  | '\t' => ['\\', 't']
  | '\x08' => ['\\', 'b']
  | '\x0c' => ['\\', 'f']
  | c =>
    if c.toNat < 32 then unitEscape c.toNat
    else if ascii && 126 < c.toNat then
      if c.toNat < 0x10000 then unitEscape c.toNat
      else
        let n := c.toNat - 0x10000
        unitEscape (0xD800 + n / 1024) ++ unitEscape (0xDC00 + n % 1024)
    else [c]

/-- A JSON string with its quotes. -/
def writeString (ascii : Bool) (s : String) : List Char :=
  '"' :: s.toList.flatMap (writeChar ascii) ++ ['"']

/-- A whole number. -/
def writeInt (n : Int) : List Char :=
  if n < 0 then '-' :: Decimal.digits n.natAbs else Decimal.digits n.natAbs

/-- A line break with the indent of a depth; without an indent there are no lines. -/
def lineBreak (indent : Option Nat) (depth : Nat) : List Char :=
  match indent with
  | none => []
  | some width => '\n' :: List.replicate (width * depth) ' '

/-- What stands between two items of a depth. -/
def separator (indent : Option Nat) (depth : Nat) : List Char :=
  match indent with
  | none => [',', ' ']
  | some _ => ',' :: lineBreak indent depth

mutual

/-- The text of a value at a depth. -/
def writeAt (ascii : Bool) (indent : Option Nat) (depth : Nat) : Json → List Char
  | .null => "null".toList
  | .bool true => "true".toList
  | .bool false => "false".toList
  | .int n => writeInt n
  | .float x => (Decimal.write x).toList
  | .str s => writeString ascii s
  | .arr [] => ['[', ']']
  | .arr (item :: rest) =>
    '[' :: lineBreak indent (depth + 1) ++ writeAt ascii indent (depth + 1) item ++
      writeItems ascii indent (depth + 1) rest ++ lineBreak indent depth ++ [']']
  | .obj [] => ['\x7b', '\x7d']
  | .obj ((name, value) :: rest) =>
    '\x7b' :: lineBreak indent (depth + 1) ++ writeString ascii name ++ [':', ' '] ++
      writeAt ascii indent (depth + 1) value ++ writeMembers ascii indent (depth + 1) rest ++
      lineBreak indent depth ++ ['\x7d']

/-- The items behind the first, each with its separator. -/
def writeItems (ascii : Bool) (indent : Option Nat) (depth : Nat) : List Json → List Char
  | [] => []
  | item :: rest =>
    separator indent depth ++ writeAt ascii indent depth item ++ writeItems ascii indent depth rest

/-- The members behind the first, each with its separator. -/
def writeMembers (ascii : Bool) (indent : Option Nat) (depth : Nat) :
    List (String × Json) → List Char
  | [] => []
  | (name, value) :: rest =>
    separator indent depth ++ writeString ascii name ++ [':', ' '] ++
      writeAt ascii indent depth value ++ writeMembers ascii indent depth rest

end

mutual

/-- The whole numbers in a value, in the order of its text. -/
def ints : Json → List Int
  | .int n => [n]
  | .arr items => itemInts items
  | .obj members => memberInts members
  | _ => []

/-- The whole numbers in the items of a list. -/
def itemInts : List Json → List Int
  | [] => []
  | item :: rest => ints item ++ itemInts rest

/-- The whole numbers in the members of an object. -/
def memberInts : List (String × Json) → List Int
  | [] => []
  | (_, value) :: rest => ints value ++ memberInts rest

end

/-- Why a value has no text. -/
inductive WriteProblem where
  /-- The indent is wider than a text can be long. -/
  | wideIndent (width : Nat)
  /-- A whole number has too many digits. -/
  | longNumber (n : Int)
  deriving DecidableEq, Repr

/-- The widest indent. -/
def widestIndent : Nat := Nat.pow 2 63 - 1

/-- What stands in the way of a text. The indent comes first, as it is made before anything is
    written. -/
def writeProblem? (indent : Option Nat) (value : Json) : Option WriteProblem :=
  match indent.filter (widestIndent < ·) with
  | some width => some (.wideIndent width)
  | none => (value.ints.find? (!Decimal.isShort ·)).map .longNumber

/-- The characters of a value as a text, whatever they are. -/
def text (ascii : Bool) (indent : Option Nat) (value : Json) : String :=
  String.ofList (writeAt ascii indent 0 value)

/-- The text of a value, in ASCII if that is asked for. -/
def write (ascii : Bool) (indent : Option Nat) (value : Json) : Except WriteProblem String :=
  match writeProblem? indent value with
  | some problem => .error problem
  | none => .ok (text ascii indent value)

end RepoAtlas.Json
