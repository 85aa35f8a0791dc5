import RepoAtlas.Json.Read
import RepoAtlas.Toml.Failure

/-! # Blanks, comments and strings of documents

Every reader takes what is left of the document and gives back what it read and the new rest.
Control characters are allowed nowhere but as tabs and, where a text may have several lines, as line
feeds.
-/

namespace RepoAtlas.Toml

/-- What was read and what is left. -/
abbrev Reading (α : Type) := Except Failure (α × List Char)

def isSpace (c : Char) : Bool := c = ' ' || c = '\t'

def skipSpaces (cs : List Char) : List Char := cs.dropWhile isSpace

/-- Without blanks and line ends. -/
def skipLines (cs : List Char) : List Char := cs.dropWhile fun c => isSpace c || c = '\n'

/-- Is the character refused? Line feeds are allowed in texts of several lines. -/
def isRefused (lines : Bool) (c : Char) : Bool :=
  (c.toNat < 32 && c ≠ '\t' && !(lines && c = '\n')) || c.toNat = 127

/-- The first refused character is a failure at its place. -/
def checkCharacters (lines : Bool) (text rest : List Char) : Except Failure Unit :=
  match text.dropWhile (!isRefused lines ·) with
  | [] => .ok ()
  | c :: after => .error { cause := .strayCharacter c, left := after.length + 1 + rest.length }

/-- What stands in front of the first occurrence of a text, and what follows from there on. -/
def splitAtText (text : List Char) : List Char → Option (List Char × List Char)
  | [] => if text.isEmpty then some ([], []) else none
  | c :: rest =>
    if text.isPrefixOf (c :: rest) then some ([], c :: rest)
    else (splitAtText text rest).map fun (before, after) => (c :: before, after)

/-- Passes a comment, if one starts here. -/
def skipComment (cs : List Char) : Except Failure (List Char) :=
  match cs with
  | '#' :: text =>
    let rest := text.dropWhile (· != '\n')
    (checkCharacters false (text.takeWhile (· != '\n')) rest).map fun _ => rest
  | cs => .ok cs

/-- Passes blanks, line ends and comments. The first argument bounds the number of comments. -/
def skipGaps : Nat → List Char → Except Failure (List Char)
  | 0, cs => .ok cs
  | fuel + 1, cs =>
    match skipLines cs with
    | '#' :: text =>
      match skipComment ('#' :: text) with
      | .ok rest => skipGaps fuel rest
      | .error failure => .error failure
    | rest => .ok rest

/-- A literal string behind its opening quotes. -/
def literalString (quotes : List Char) (lines : Bool) (cs : List Char) : Reading (List Char) :=
  match splitAtText quotes cs with
  | none => failAt (.missingQuotes (String.ofList quotes)) []
  | some (text, rest) =>
    (checkCharacters lines text rest).map fun _ => (text, rest.drop quotes.length)

/-- The character of so many hexadecimal digits. -/
def hexCharacter (count : Nat) (cs : List Char) : Reading (List Char) :=
  match (cs.take count).mapM Json.hexValue? with
  | none => failAt .badHex cs
  | some values =>
    if values.length < count then failAt .badHex cs
    else
      let n := values.foldl (fun n d => n * 16 + d) 0
      if n < 0xD800 || (0xE000 ≤ n && n < 0x110000) then .ok ([Char.ofNat n], cs.drop count)
      else failAt .noScalar (cs.drop count)

/-- An escape behind its backslash. In a text of several lines a backslash at the end of a line
    takes the line end and all blanks behind it away. -/
def escape (lines : Bool) (cs : List Char) : Reading (List Char) :=
  match cs with
  | [] => failAt .badEscape []
  | c :: rest =>
    if lines && c = '\n' then .ok ([], skipLines rest)
    else if lines && isSpace c then
      match skipSpaces rest with
      | [] => .ok ([], [])
      | '\n' :: rest => .ok ([], skipLines rest)
      | rest => failAt .badEscape rest
    else
      match c with
      | 'u' => hexCharacter 4 rest
      | 'U' => hexCharacter 8 rest
      | 'b' => .ok (['\x08'], rest)
      | 't' => .ok (['\t'], rest)
      | 'n' => .ok (['\n'], rest)
      | 'f' => .ok (['\x0c'], rest)
      | 'r' => .ok (['\r'], rest)
      | '"' => .ok (['"'], rest)
      | '\\' => .ok (['\\'], rest)
      | _ => failAt .badEscape rest

/-- A string with escapes behind its opening quotes; `read` holds what was read, latest first. The
    first argument bounds the number of steps. -/
def escapedString (lines : Bool) : Nat → List Char → List Char → Reading (List Char)
  | 0, _, cs => failAt .unclosedString cs
  | _ + 1, _, [] => failAt .unclosedString []
  | fuel + 1, read, c :: rest =>
    if c = '"' then
      if !lines then .ok (read.reverse, rest)
      else
        match rest with
        | '"' :: '"' :: rest => .ok (read.reverse, rest)
        | rest => escapedString lines fuel ('"' :: read) rest
    else if c = '\\' then
      match escape lines rest with
      | .ok (text, rest) => escapedString lines fuel (text.reverse ++ read) rest
      | .error failure => .error failure
    else if isRefused lines c then failAt (.illegalCharacter c) (c :: rest)
    else escapedString lines fuel (c :: read) rest

/-- A text of several lines may end in one or two quotes of its own. -/
def closingQuotes (quote : Char) (text rest : List Char) : List Char × List Char :=
  match rest with
  | a :: b :: more =>
    if a = quote then
      if b = quote then (text ++ [quote, quote], more) else (text ++ [quote], b :: more)
    else (text, rest)
  | [a] => if a = quote then (text ++ [quote], []) else (text, rest)
  | [] => (text, [])

/-- Without one line end in front. -/
def dropLineEnd : List Char → List Char
  | '\n' :: rest => rest
  | cs => cs

/-- A string on one line with escapes, behind its quote. -/
def plainString (cs : List Char) : Reading (List Char) := escapedString false (cs.length + 1) [] cs

/-- A string of several lines with escapes, behind its quotes. -/
def longString (cs : List Char) : Reading (List Char) :=
  let cs := dropLineEnd cs
  (escapedString true (cs.length + 1) [] cs).map fun (text, rest) => closingQuotes '"' text rest

/-- A literal string of several lines, behind its quotes. -/
def longLiteral (cs : List Char) : Reading (List Char) :=
  (literalString ['\'', '\'', '\''] true (dropLineEnd cs)).map fun (text, rest) =>
    closingQuotes '\'' text rest

/-- Characters of keys without quotes. -/
def isBareKey (c : Char) : Bool := c.isAlphanum || c = '-' || c = '_'

/-- One part of a key. -/
def keyPart (cs : List Char) : Reading String :=
  match cs with
  | '\'' :: rest =>
    (literalString ['\''] false rest).map fun (text, rest) => (String.ofList text, rest)
  | '"' :: rest => (plainString rest).map fun (text, rest) => (String.ofList text, rest)
  | cs =>
    let part := cs.takeWhile isBareKey
    if part.isEmpty then failAt .badKeyStart cs
    else .ok (String.ofList part, cs.dropWhile isBareKey)

/-- The parts of a key behind the first, with the blanks around them. -/
def keyRest : Nat → Key → List Char → Reading Key
  | 0, key, cs => .ok (key, cs)
  | fuel + 1, key, cs =>
    match skipSpaces cs with
    | '.' :: rest =>
      match keyPart (skipSpaces rest) with
      | .ok (part, rest) => keyRest fuel (key ++ [part]) rest
      | .error failure => .error failure
    | rest => .ok (key, rest)

/-- A dotted key with the blanks behind it. -/
def key (cs : List Char) : Reading Key :=
  match keyPart cs with
  | .ok (part, rest) => keyRest (rest.length + 1) [part] rest
  | .error failure => .error failure

end RepoAtlas.Toml
