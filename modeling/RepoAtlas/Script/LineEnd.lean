import RepoAtlas.Script.Lexeme

/-! # Statements that end with their line

A statement may end without a semicolon: at a closing brace, at the end of the text, or at a line
end that is not followed by a token which continues the statement. The rule depends on what came
before. After an operand (`afterOperand`) an operator may follow; after a type, a name or a keyword
none may.
-/

namespace RepoAtlas.Script

/-- Which of the three dialects of the language a script is written in. -/
inductive Dialect where
  | javascript
  | typescript
  | tsx
  deriving DecidableEq, Repr

/-- Does the dialect have types? -/
def Dialect.typed : Dialect → Bool
  | .javascript => false
  | .typescript | .tsx => true

/-- Does the dialect have markup elements as operands? -/
def Dialect.markup : Dialect → Bool
  | .typescript => false
  | .javascript | .tsx => true

/-- What stands before a possible statement end. -/
inductive Before where
  /-- An operand: an operator may follow. -/
  | operand
  /-- A type, a name or a keyword. -/
  | other
  /-- A parameter list that a body may follow. -/
  | signature
  deriving DecidableEq, Repr

namespace LineEnd

def endsLine (d : Dialect) (c : Char) : Bool :=
  c = '\n' || (!d.typed && isSeparator c)

/-- The outcome of skipping blanks and comments while looking for a line end. -/
inductive Skip where
  /-- A slash that begins no comment. -/
  | reject
  /-- A block comment on one line was passed. -/
  | sameLine (stop : Nat)
  /-- Everything up to the next token was passed. -/
  | accept (stop : Nat)

/-- The end of a block comment, its opening passed, and whether it spans lines. An unclosed one
    runs to the end of the text. -/
def blockEnd (src : Source) : Nat → Bool → Nat → Nat × Bool × Bool
  | 0, lines, i => (i, lines, false)
  | rounds + 1, lines, i =>
    if src.atEnd i then (i, lines, false)
    else if src.look i = '*' && src.look (i + 1) = '/' then (i + 2, lines, true)
    else blockEnd src rounds (lines || src.look i = '\n' || isSeparator (src.look i)) (i + 1)

/-- Skips blanks and comments. Before the line end is found (`inLine`) a closed block comment ends
    the search, unless another slash follows it. -/
def skip (src : Source) (inLine : Bool) : Nat → Bool → Nat → Skip
  | 0, _, i => .accept i
  | rounds + 1, lines, i =>
    let j := skipWhile src.chars isBreakable i
    if src.look j != '/' then .accept j
    else if src.look (j + 1) = '/' then
      skip src inLine rounds lines
        (skipWhile src.chars (fun c => c != '\x00' && c != '\n' && !isSeparator c) (j + 2))
    else if src.look (j + 1) = '*' then
      match blockEnd src (src.size + 1) lines (j + 2) with
      | (k, lines, closed) =>
        if inLine && closed && src.look k != '/' then
          if lines then .accept k else .sameLine k
        else skip src inLine rounds lines k
    else .reject

/-- Does the word `in` or `instanceof` start at the position? Both continue an operand. -/
def continuesWithWord (src : Source) (i : Nat) : Bool :=
  let plainAt (j : Nat) := (src.look j).isAlpha || 128 ≤ (src.look j).toNat
  src.standsAt ['i', 'n'] i &&
    (!plainAt (i + 2) || (src.standsAt "instanceof".toList i && !plainAt (i + 10)))

/-- The decision at the first token of a new line. -/
def endsBefore (d : Dialect) (before : Before) (src : Source) (i : Nat) : Bool :=
  let next := src.look (i + 1)
  match src.look i with
  | '`' | ',' | ';' | '*' | '%' | '>' | '<' | '=' | '?' | '^' | '|' | '&' | '/' | ':' => false
  | '.' => !d.typed && next.isDigit
  | '(' | '[' => d.typed && before != .operand
  | '\x7b' => !(d.typed && before = .signature)
  | '+' => next = '+'
  | '-' => next = '-'
  | '!' => next != '='
  | _ => !continuesWithWord src i

/-- The decision from the middle of a line, blanks before the first token included. -/
def scan (d : Dialect) (before : Before) (src : Source) : Nat → Nat → Bool
  | 0, _ => false
  | rounds + 1, i =>
    let c := src.look i
    let here (i : Nat) : Bool :=
      let c := src.look i
      if c = '\x7d' then
        if d.typed then
          let j := skipWhile src.chars isBreakable (i + 1)
          if src.look j = ':' then before = .operand else true
        else true
      else if endsLine d c then
        match skip src false (src.size + 1) false (i + 1) with
        | .reject => false
        | .sameLine j | .accept j => endsBefore d before src j
      else if isBreakable c then scan d before src rounds (i + 1)
      else false
    if src.atEnd i || c = '\x00' then true
    else if c = '/' && !d.typed then
      match skip src true (src.size + 1) false i with
      | .reject => false
      | .accept j =>
        if before != .operand && src.look j != ',' && src.look j != '=' then true else here j
      | .sameLine j => here j
    else here i

/-- Does a statement end at the position without a semicolon? A comment that was not passed by
    the scan is skipped and the question is asked again behind it. -/
def holds (d : Dialect) (before : Before) (src : Source) : Nat → Nat → Bool
  | 0, _ => false
  | rounds + 1, i =>
    scan d before src (src.size + 1) i ||
      match commentEnd src.chars (skipWhile src.chars isGap i) with
      | some j => holds d before src rounds j
      | none => false

end LineEnd

/-- Does a statement end at the position without a semicolon? -/
def Source.endsStatement (src : Source) (d : Dialect) (before : Before) (i : Nat) : Bool :=
  LineEnd.holds d before src (src.size + 1) i

end RepoAtlas.Script
