import RepoAtlas.Text.Quoted

/-! # What is wrong with a document

A failure is a cause and the place where it was noticed. Messages name the place by line and column,
both counted from one, or as the end of the document.
-/

namespace RepoAtlas.Toml

/-- A dotted key. -/
abbrev Key := List String

/-- A key in messages. -/
def keyText (key : Key) : String :=
  match key with
  | [part] => "(" ++ Text.quoted part ++ ",)"
  | parts => "(" ++ ", ".intercalate (parts.map Text.quoted) ++ ")"

/-- Why a document is refused. -/
inductive Cause where
  | badStatement
  | badValue
  | badDate
  | missingEquals
  | missingLineEnd
  | missingBracket
  | missingBrackets
  | unclosedArray
  | unclosedTable
  | unclosedString
  /-- A literal string has no end. -/
  | missingQuotes (quotes : String)
  | strayCharacter (c : Char)
  | illegalCharacter (c : Char)
  | badKeyStart
  | badEscape
  | badHex
  | noScalar
  | overwrites
  | declaredTwice (key : Key)
  | frozen (key : Key)
  | redefined (key : Key)
  | repeatedKey (key : String)
  /-- A whole number has too many digits; this message names no place. -/
  | tooManyDigits (count : Nat)
  deriving DecidableEq, Repr

/-- The message of a cause without its place. -/
def Cause.message : Cause → String
  | .badStatement => "Invalid statement"
  | .badValue => "Invalid value"
  | .badDate => "Invalid date or datetime"
  | .missingEquals => "Expected '=' after a key in a key/value pair"
  | .missingLineEnd => "Expected newline or end of document after a statement"
  | .missingBracket => "Expected ']' at the end of a table declaration"
  | .missingBrackets => "Expected ']]' at the end of an array declaration"
  | .unclosedArray => "Unclosed array"
  | .unclosedTable => "Unclosed inline table"
  | .unclosedString => "Unterminated string"
  | .missingQuotes quotes => "Expected " ++ Text.quoted quotes
  | .strayCharacter c => "Found invalid character " ++ Text.quoted (String.singleton c)
  | .illegalCharacter c => "Illegal character " ++ Text.quoted (String.singleton c)
  | .badKeyStart => "Invalid initial character for a key part"
  | .badEscape => "Unescaped '\\' in a string"
  | .badHex => "Invalid hex value"
  | .noScalar => "Escaped character is not a Unicode scalar value"
  | .overwrites => "Cannot overwrite a value"
  | .declaredTwice key => "Cannot declare " ++ keyText key ++ " twice"
  | .frozen key => "Cannot mutate immutable namespace " ++ keyText key
  | .redefined key => "Cannot redefine namespace " ++ keyText key
  | .repeatedKey key => "Duplicate inline table key " ++ Text.quoted key
  | .tooManyDigits count =>
    "Exceeds the limit (4300 digits) for integer string conversion: value has " ++ toString count ++
      " digits; use sys.set_int_max_str_digits() to increase the limit"

/-- A cause and the number of characters from its place to the end of the document. -/
structure Failure where
  cause : Cause
  left : Nat
  deriving DecidableEq, Repr

/-- A failure at the start of what is left of a document. -/
def failAt {α : Type} (cause : Cause) (rest : List Char) : Except Failure α :=
  .error { cause, left := rest.length }

/-- The place in front of so many last characters. -/
def placeText (document : List Char) (left : Nat) : String :=
  if left = 0 then "end of document"
  else
    let before := document.take (document.length - left)
    let column := (before.reverse.takeWhile (· != '\n')).length + 1
    "line " ++ toString (before.count '\n' + 1) ++ ", column " ++ toString column

/-- The message of a failure in a document. -/
def Failure.message (f : Failure) (document : List Char) : String :=
  match f.cause with
  | .tooManyDigits _ => f.cause.message
  | cause => cause.message ++ " (at " ++ placeText document f.left ++ ")"

end RepoAtlas.Toml
