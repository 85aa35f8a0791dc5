/-! # Script sources

A script is read by position. A `Source` holds its characters, the byte offset of each position
(trees are keyed by bytes) and, for each position, where the blanks and comments that start there
end. The gap table is computed once, from the right, so that skipping a gap is one look-up.
-/

namespace RepoAtlas.Script

/-- Characters that may stand between two tokens: the blanks of ASCII, the space separators of
    Unicode, the two line separators and the zero-width blanks. -/
def isGap (c : Char) : Bool :=
  let n := c.toNat
  c = ' ' || (9 ≤ n && n ≤ 13) || n = 0xA0 || n = 0x1680 || (0x2000 ≤ n && n ≤ 0x200B) ||
    n = 0x2028 || n = 0x2029 || n = 0x202F || n = 0x205F || n = 0x2060 || n = 0x3000 || n = 0xFEFF

/-- Blanks in the narrower sense of the line-end rules: separators that allow a line break. -/
def isBreakable (c : Char) : Bool :=
  let n := c.toNat
  c = ' ' || (9 ≤ n && n ≤ 13) || n = 0x1680 || (0x2000 ≤ n && n ≤ 0x2006) ||
    (0x2008 ≤ n && n ≤ 0x200A) || n = 0x2028 || n = 0x2029 || n = 0x205F || n = 0x3000

/-- The two separators of Unicode that end a line. -/
def isSeparator (c : Char) : Bool :=
  c.toNat = 0x2028 || c.toNat = 0x2029

/-- Punctuation of the language: no name contains one of these. -/
def isPunctuation (c : Char) : Bool :=
  ":;`\"'@#.,|^&<=>+-*/\\%?!~()[]\x7b\x7d".toList.contains c

/-- A character that may continue a name. Everything is allowed that is not a control character,
    a gap or punctuation, so names may be written in any alphabet. -/
def isNamePart (c : Char) : Bool :=
  if c.isAlphanum || c = '_' || c = '$' then true
  else 32 ≤ c.toNat && !isGap c && !isPunctuation c

/-- A character that may begin a name. -/
def isNameStart (c : Char) : Bool :=
  isNamePart c && !c.isDigit

/-- The first position from `i` on whose character fails the test. -/
def skipWhile (chars : Array Char) (test : Char → Bool) (i : Nat) : Nat :=
  if h : i < chars.size then
    if test chars[i] then skipWhile chars test (i + 1) else i
  else i
termination_by chars.size - i

/-- The position behind the first `*/` from `i` on, if there is one. -/
def blockCommentEnd (chars : Array Char) (i : Nat) : Option Nat :=
  if h : i + 1 < chars.size then
    if chars[i] = '*' && chars[i + 1] = '/' then some (i + 2) else blockCommentEnd chars (i + 1)
  else none
termination_by chars.size - i

/-- The position behind a comment that starts at `i`. A line comment leaves the line end alone. -/
def commentEnd (chars : Array Char) (i : Nat) : Option Nat :=
  if chars[i]? = some '/' then
    match chars[i + 1]? with
    | some '/' =>
      some (skipWhile chars (fun c => c != '\n' && c != '\r' && !isSeparator c) (i + 2))
    | some '*' => blockCommentEnd chars (i + 2)
    | _ => none
  else none

/-- Fills the gap table below position `i`; entries from `i` on are already final. -/
def gapTable (chars : Array Char) : Nat → Array Nat → Array Nat
  | 0, table => table
  | i + 1, table =>
    let here :=
      match chars[i]? with
      | none => i
      | some c =>
        if isGap c then table.getD (i + 1) (i + 1)
        else
          match commentEnd chars i with
          | some stop => table.getD stop stop
          | none => i
    gapTable chars i (table.setIfInBounds i here)

/-- Byte offsets of all positions, the end included. -/
def byteOffsets (chars : Array Char) : Array Nat :=
  (chars.foldl (fun acc c => (acc.1.push (acc.2 + c.utf8Size), acc.2 + c.utf8Size)) (#[0], 0)).1

/-- A script, ready to be read by position. -/
structure Source where
  chars : Array Char
  /-- Byte offset of every position, the end included. -/
  offsets : Array Nat
  /-- For every position, where the blanks and comments that start there end. -/
  gaps : Array Nat

namespace Source

/-- Prepares a text. -/
def ofString (text : String) : Source :=
  let chars := text.toList.toArray
  { chars
    offsets := byteOffsets chars
    gaps := gapTable chars chars.size (Array.range (chars.size + 1)) }

def size (src : Source) : Nat := src.chars.size

/-- The character at a position, NUL at the end of the text and behind it. -/
def look (src : Source) (i : Nat) : Char := src.chars.getD i '\x00'

def atEnd (src : Source) (i : Nat) : Bool := src.chars.size ≤ i

/-- Where the blanks and comments that start at `i` end. -/
def gap (src : Source) (i : Nat) : Nat := src.gaps.getD i i

def byteOffset (src : Source) (i : Nat) : Nat := src.offsets.getD i 0

/-- The text between two positions. -/
def slice (src : Source) (start stop : Nat) : String :=
  (src.chars.extract start stop).foldl String.push ""

/-- Does the text stand at the position? -/
def standsAt (src : Source) (text : List Char) (i : Nat) : Bool :=
  match text with
  | [] => true
  | c :: rest => !src.atEnd i && src.look i == c && src.standsAt rest (i + 1)

end Source

end RepoAtlas.Script
