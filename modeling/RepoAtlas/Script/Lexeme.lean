import RepoAtlas.Script.Source

/-! # Lexemes

Each function answers where the lexeme that starts at a position ends, or `none` if no such
lexeme starts there. Which of them is asked for is the grammar's business: a slash begins a
pattern only where an operand is due, and text between markup tags is text only there.
-/

namespace RepoAtlas.Script

def isHex (c : Char) : Bool :=
  c.isDigit || ('a' ≤ c && c ≤ 'f') || ('A' ≤ c && c ≤ 'F')

/-- A `\u0041` or `\u{41}` escape inside a name. -/
def nameEscapeEnd (src : Source) (i : Nat) : Option Nat :=
  if src.look i = '\\' && src.look (i + 1) = 'u' then
    if src.look (i + 2) = '\x7b' then
      let stop := skipWhile src.chars isHex (i + 3)
      if i + 3 < stop && src.look stop = '\x7d' then some (stop + 1) else none
    else if [2, 3, 4, 5].all (fun k => isHex (src.look (i + k))) then some (i + 6)
    else none
  else none

/-- Continues a name: plain characters and escapes. Every round moves on, so the length of the
    text bounds the rounds. -/
def nameRest (src : Source) : Nat → Nat → Nat
  | 0, i => i
  | rounds + 1, i =>
    let j := skipWhile src.chars isNamePart i
    match nameEscapeEnd src j with
    | some k => nameRest src rounds k
    | none => j

/-- A name, keyword or not. -/
def nameEnd (src : Source) (i : Nat) : Option Nat :=
  if !src.atEnd i && isNameStart (src.look i) then some (nameRest src src.size (i + 1))
  else (nameEscapeEnd src i).map (nameRest src src.size)

/-- A private name, `#name`. -/
def privateNameEnd (src : Source) (i : Nat) : Option Nat :=
  if src.look i = '#' then nameEnd src (i + 1) else none

/-- Digits of a class, single underscores allowed between them. -/
def digitsEnd (src : Source) (digit : Char → Bool) (i : Nat) : Option Nat :=
  let rec more : Nat → Nat → Nat
    | 0, j => j
    | rounds + 1, j =>
      if digit (src.look j) then more rounds (j + 1)
      else if src.look j = '_' && digit (src.look (j + 1)) then more rounds (j + 2)
      else j
  if digit (src.look i) then some (more src.size (i + 1)) else none

/-- The exponent of a decimal number. -/
def exponentEnd (src : Source) (i : Nat) : Option Nat :=
  if src.look i = 'e' || src.look i = 'E' then
    let j := if src.look (i + 1) = '+' || src.look (i + 1) = '-' then i + 2 else i + 1
    digitsEnd src Char.isDigit j
  else none

/-- The whole part of a decimal number with a point or an exponent: no zero in front of a zero. -/
def wholeEnd (src : Source) (i : Nat) : Option Nat :=
  let nonzero (c : Char) := c.isDigit && c != '0'
  let rest (j : Nat) :=
    let k := if src.look j = '_' then j + 1 else j
    (digitsEnd src Char.isDigit k).getD j
  if src.look i = '0' then
    if nonzero (src.look (i + 1)) then some (rest (i + 2)) else some (i + 1)
  else if nonzero (src.look i) then some (rest (i + 1))
  else none

/-- A number: the longest of the notations that fits. -/
def numberEnd (src : Source) (i : Nat) : Option Nat :=
  let radix (letters : List Char) (digit : Char → Bool) : Option Nat :=
    if src.look i = '0' && letters.contains (src.look (i + 1)) then
      digitsEnd src digit (i + 2)
    else none
  let big (stop : Option Nat) : Option Nat :=
    stop.map fun j => if src.look j = 'n' then j + 1 else j
  let withExponent (j : Nat) : Nat := (exponentEnd src j).getD j
  let point : Option Nat := do
    let j ← wholeEnd src i
    if src.look j = '.' then
      some (withExponent ((digitsEnd src Char.isDigit (j + 1)).getD (j + 1)))
    else exponentEnd src j
  let fraction : Option Nat :=
    if src.look i = '.' then (digitsEnd src Char.isDigit (i + 1)).map withExponent else none
  [big (radix ['x', 'X'] isHex),
   big (radix ['b', 'B'] (fun c => c = '0' || c = '1')),
   big (radix ['o', 'O'] (fun c => '0' ≤ c && c ≤ '7')),
   big (digitsEnd src Char.isDigit i), point, fraction].foldl max none

/-- An escape in a string or template. -/
def escapeEnd (src : Source) (i : Nat) : Option Nat :=
  let octal (c : Char) := '0' ≤ c && c ≤ '7'
  if src.look i != '\\' || src.atEnd (i + 1) then none
  else
    let c := src.look (i + 1)
    if c = 'x' then
      if isHex (src.look (i + 2)) && isHex (src.look (i + 3)) then some (i + 4) else none
    else if c = 'u' then nameEscapeEnd src i
    else if octal c then
      some (if octal (src.look (i + 2)) then
        (if octal (src.look (i + 3)) then i + 4 else i + 3) else i + 2)
    else if c = '\r' && (src.look (i + 2) = '\n' || isSeparator (src.look (i + 2))) then
      some (i + 3)
    else some (i + 2)

/-- The rest of a string behind its opening quote. Behind a raw line end only blanks and comments
    may stand before the closing quote, since they are a gap between two tokens there. -/
def stringRest (src : Source) (quote : Char) : Nat → Nat → Option Nat
  | 0, _ => none
  | rounds + 1, i =>
    let plain (c : Char) := c != quote && c != '\\' && c != '\n' && c != '\r'
    let j := skipWhile src.chars plain i
    if src.atEnd j then none
    else if src.look j = quote then some (j + 1)
    else if src.look j = '\\' then
      match escapeEnd src j with
      | some k => stringRest src quote rounds k
      | none => none
    else
      let blankEnd := skipWhile src.chars isGap j
      match commentEnd src.chars blankEnd with
      | some k => stringRest src quote rounds k
      | none => if src.look blankEnd = quote && !src.atEnd blankEnd then some (blankEnd + 1) else none

/-- A string in single or double quotes. -/
def stringEnd (src : Source) (i : Nat) : Option Nat :=
  let c := src.look i
  if c = '"' || c = '\'' then stringRest src c (src.size + 1) (i + 1) else none

/-- The body of a regular expression up to its closing slash. -/
def patternRest (src : Source) : Nat → Bool → Nat → Option Nat
  | 0, _, _ => none
  | rounds + 1, inClass, i =>
    if src.atEnd i || src.look i = '\n' then none
    else if src.look i = '\\' then
      if src.atEnd (i + 1) || src.look (i + 1) = '\n' then none
      else patternRest src rounds inClass (i + 2)
    else if inClass then patternRest src rounds (src.look i != ']') (i + 1)
    else if src.look i = '[' then patternRest src rounds true (i + 1)
    else if src.look i = '/' then some i
    else patternRest src rounds false (i + 1)

/-- A regular expression with its flags. -/
def patternEnd (src : Source) (i : Nat) : Option Nat :=
  if src.look i = '/' then
    match patternRest src (src.size + 1) false (i + 1) with
    | some j =>
      if j = i + 1 then none
      else some (skipWhile src.chars (fun c => 'a' ≤ c && c ≤ 'z') (j + 1))
    | none => none
  else none

/-- Plain characters of a template, up to its end, a hole or an escape. -/
def templateTextEnd (src : Source) (i : Nat) : Option Nat :=
  let rec more : Nat → Nat → Option Nat
    | 0, _ => none
    | rounds + 1, j =>
      let c := src.look j
      if src.atEnd j || c = '\x00' then none
      else if c = '`' || c = '\\' || (c = '$' && src.look (j + 1) = '\x7b') then some j
      else more rounds (j + 1)
  match more (src.size + 1) i with
  | some j => if j = i then none else some j
  | none => none

/-- Text between markup tags. Blanks alone count as text only when they do not follow a line end. -/
def markupTextEnd (src : Source) (i : Nat) : Option Nat :=
  let rec more : Nat → Nat → Bool → Bool → Option Nat
    | 0, _, _, _ => none
    | rounds + 1, j, afterLine, sawText =>
      let c := src.look j
      if src.atEnd j || c = '\x00' || c = '<' || c = '>' || c = '\x7b' || c = '\x7d' || c = '&' then
        if sawText then some j else none
      else if c = '\n' then more rounds (j + 1) true sawText
      else
        let after := afterLine && isBreakable c
        more rounds (j + 1) after (sawText || !after)
  more (src.size + 1) i false false

/-- A character reference in markup, such as `&amp;` or `&#38;`. -/
def characterReferenceEnd (src : Source) (i : Nat) : Option Nat :=
  let closed (start stop least most : Nat) : Option Nat :=
    if start + least ≤ stop && stop ≤ start + most && src.look stop = ';' then some (stop + 1)
    else none
  if src.look i != '&' then none
  else if src.look (i + 1) = '#' then
    if src.look (i + 2) = 'x' || src.look (i + 2) = 'X' then
      closed (i + 3) (skipWhile src.chars isHex (i + 3)) 1 6
    else closed (i + 2) (skipWhile src.chars Char.isDigit (i + 2)) 1 5
  else closed (i + 1) (skipWhile src.chars Char.isAlpha (i + 1)) 1 30

/-- A name in markup: a plain name, or one with hyphens. -/
def markupNameEnd (src : Source) (i : Nat) : Option Nat :=
  let c := src.look i
  let plain (c : Char) := c.isAlphanum || c = '_' || c = '$'
  let hyphenated :=
    if plain c && !c.isDigit then
      let j := skipWhile src.chars plain i
      if src.look j = '-' then some (skipWhile src.chars (fun c => plain c || c = '-') j) else none
    else none
  max hyphenated (nameEnd src i)

/-- A quoted attribute value in markup: no escapes, but character references. -/
def markupStringEnd (src : Source) (i : Nat) : Option Nat :=
  let quote := src.look i
  let rec more : Nat → Nat → Option Nat
    | 0, _ => none
    | rounds + 1, j =>
      let c := src.look j
      if src.atEnd j then none
      else if c = quote then some (j + 1)
      else if c = '&' then
        let next := src.look (j + 1)
        if next = '#' || next.isAlpha then
          match characterReferenceEnd src j with
          | some k => more rounds k
          | none => none
        else if src.atEnd (j + 1) then none
        else more rounds (j + 2)
      else more rounds (j + 1)
  if quote = '"' || quote = '\'' then more (src.size + 1) (i + 1) else none

/-- A markup comment that runs to the end of its line, opened by `<!--` or `-->`. -/
def markupCommentEnd (src : Source) (i : Nat) : Option Nat :=
  if src.standsAt ['<', '!', '-', '-'] i || src.standsAt ['-', '-', '>'] i then
    some (skipWhile src.chars (fun c => c != '\n' && c != '\x00' && !isSeparator c) (i + 3))
  else none

/-- The first line of a program that names its interpreter. -/
def interpreterLineEnd (src : Source) (i : Nat) : Option Nat :=
  if src.look i = '#' && src.look (i + 1) = '!' then
    some (skipWhile src.chars (· != '\n') (i + 2))
  else none

/-- All signs of the language, longer ones before their own beginnings. -/
def allSigns : List String :=
  [">>>=", "...", "===", "!==", "**=", "<<=", ">>=", ">>>", "&&=", "||=", "??=", "=>", "==", "!=",
   "<=", ">=", "&&", "||", "??", "?.", "++", "--", "+=", "-=", "*=", "/=", "%=", "&=", "|=", "^=",
   "<<", ">>", "**", "\x7b", "\x7d", "(", ")", "[", "]", ".", ";", ",", "<", ">", "+", "-", "*", "/",
   "%", "&", "|", "^", "!", "~", "?", ":", "=", "@", "`"]

/-- The sign or word at a position, as long as possible; empty if there is none. A `?.` before a
    digit is a question mark and a decimal point. -/
def signAt (src : Source) (i : Nat) : String :=
  match nameEnd src i with
  | some j => src.slice i j
  | none =>
    match allSigns.find? (fun s => src.standsAt s.toList i) with
    | some "?." => if (src.look (i + 2)).isDigit then "?" else "?."
    | some s => s
    | none => ""

end RepoAtlas.Script
