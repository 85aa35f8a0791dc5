import RepoAtlas.Script.Form

/-! # Rules of the script grammar

The names of the rules, and the small vocabulary in which their forms are written. A rule exists
where a form refers to itself, and where the same form is due at one position in several
alternatives.
-/

namespace RepoAtlas.Script

/-- The rules of the grammar. Operands have a level: the loosest operator allowed inside. -/
inductive Rule where
  | program | statement | block | declaration | declarators | binding
  | expressions | expression (level : Nat) | operand | primary | constructor | newOperand
  | template | object | array | arguments | parenthesized | callSignature | formalParameters
  | pattern | destructuring | propertyName | classBody | classTail | decorator
  | element | markupHole
  | type | unionType | typeOperand | suffixedType | primaryType | typeArguments | typeParameters
  | objectType | importDeclaration | exportDeclaration
  deriving DecidableEq, Repr

/-- Forms of this grammar. -/
abbrev Phrase := Form Rule

namespace Phrase

def mark (text : String) : Phrase := .token (.mark text)
def sign (text : String) : Phrase := .token (.sign text)
def word (text : String) : Phrase := .token (.word text)
def name (barred : List String) : Phrase := .token (.name barred)
def label (barred : List String) : Phrase := .token (.label barred)
def lexeme (lexeme : Lexeme) : Phrase := .token (.lexeme lexeme .other)
def nothing : Phrase := .seq []

/-- The form, or nothing. -/
def opt (phrase : Phrase) : Phrase := .alt [phrase, nothing]

/-- Any of the words. -/
def words (texts : List String) : Phrase := .alt (texts.map word)

/-- Any of the signs, as long as possible. -/
def signs (texts : List String) : Phrase := .alt (texts.map sign)

/-- One or more, with commas between them. -/
def commas (phrase : Phrase) : Phrase := .seq [phrase, .many (.seq [mark ",", phrase])]

/-- Any number of places with commas between them, each of which may be empty. -/
def slots (phrase : Phrase) : Phrase := .seq [opt phrase, .many (.seq [mark ",", opt phrase])]

/-- Inside brackets: line ends and the surroundings do not matter. -/
def closed (phrase : Phrase) : Phrase := .within (fun _ => Mode.closed) phrase

/-- The parts of a statement: its line may end it. -/
def open_ (phrase : Phrase) : Phrase :=
  .within (fun _ => { Mode.closed with lineEnds := true }) phrase

def parens (phrase : Phrase) : Phrase := .seq [mark "(", closed phrase, mark ")"]
def brackets (phrase : Phrase) : Phrase := .seq [mark "[", closed phrase, mark "]"]
def braces (phrase : Phrase) : Phrase := .seq [mark "\x7b", closed phrase, mark "\x7d"]

/-- No line end ends the statement here, or it could not. -/
def continues (before : Before) : Phrase :=
  .alt [.allowed (fun mode => !mode.lineEnds), .token (.sameStatement before)]

/-- The end of a statement: a semicolon or the end of the line. -/
def semicolon (before : Before) : Phrase := .alt [mark ";", .token (.lineEnd before)]

/-- An operand of any kind, without commas. -/
def operandOnly : Phrase := .rule (.expression 0)

/-- An initial value. -/
def initializer : Phrase := .seq [sign "=", operandOnly]

/-- Spread operands. -/
def spread : Phrase := .branch .other (.seq [mark "...", operandOnly])

/-- What the parameter belongs to is written with types in the typed dialects only. -/
def typedOnly (d : Dialect) (phrase : Phrase) : List Phrase := if d.typed then [phrase] else []

/-- A type behind a colon. -/
def typeAnnotation : Phrase := .seq [mark ":", .rule .type]

/-- A type behind a colon, where the dialect has types. -/
def optionalType (d : Dialect) : Phrase := if d.typed then opt typeAnnotation else nothing

end Phrase

/-- Words that are never names in the untyped dialect. -/
def reservedWords : List String :=
  ["break", "case", "catch", "class", "const", "continue", "debugger", "default", "delete", "do",
   "else", "enum", "extends", "false", "finally", "for", "function", "if", "import", "in",
   "instanceof", "new", "null", "return", "super", "switch", "this", "throw", "true", "try",
   "typeof", "var", "void", "while", "with"]

/-- Words that cannot be bound. In the typed dialects a keyword is a name wherever it does not
    start something else. -/
def unbindable (d : Dialect) : List String := if d.typed then [] else reservedWords

/-- Words that start an operand of their own, so they name none. -/
def operandWords (d : Dialect) : List String :=
  if d.typed then
    ["typeof", "void", "delete", "await", "yield", "new", "this", "super", "true", "false", "null",
     "undefined", "function", "class", "import"]
  else reservedWords ++ ["await", "yield", "undefined"]

/-- Words that start a statement of their own, so no operand starts one with them. -/
def statementWords (d : Dialect) : List String :=
  ["debugger", "var", "const", "if", "switch", "for", "while", "do", "try", "with", "break",
   "continue", "return", "throw"]
    ++ if d.typed then ["abstract", "interface", "enum"] else []

end RepoAtlas.Script
