import RepoAtlas.Script.Grammar.Operand

/-! # Types

Types occur in the typed dialects only. They are read for their extent: a type leaves nothing
that could be called, except where it asks for the type of a call.
-/

namespace RepoAtlas.Script

open Phrase

/-- Words with a meaning of their own at the start of a type. -/
def typeWords : List String :=
  ["typeof", "keyof", "infer", "unique", "readonly", "abstract", "import", "asserts", "true",
   "false", "null", "undefined", "void", "const", "this"]

def typeArgumentsForm : Phrase :=
  .seq [mark "<", closed (.seq [commas (.rule .type), opt (mark ",")]), mark ">"]

def typeParametersForm : Phrase :=
  let parameter : Phrase :=
    .seq
      [opt (.seq [word "const", .ahead (label [])]), label [],
       opt (.seq [.alt [word "extends", mark ":"], .rule .type]),
       opt (.seq [mark "=", .rule .type])]
  .seq [mark "<", closed (.seq [commas parameter, opt (mark ",")]), mark ">"]

/-- A type, conditional or not. -/
def typeForm : Phrase :=
  .seq
    [.rule .unionType,
     opt (.seq
       [continues .other, word "extends", .rule .unionType, mark "?", closed (.rule .type),
        mark ":", .rule .type])]

/-- Types joined by bars and ampersands; any number may also stand in front. -/
def unionTypeForm : Phrase :=
  let joint : Phrase := .alt [mark "|", mark "&"]
  .seq
    [.many joint, .rule .typeOperand,
     .many (.seq [continues .other, joint, .many joint, .rule .typeOperand])]

def typeOperandForm : Phrase :=
  .alt
    [.seq [opt (.rule .typeParameters), .rule .formalParameters, mark "=>", resultType],
     .seq
       [opt (word "abstract"), word "new", opt (.rule .typeParameters), .rule .formalParameters,
        mark "=>", .rule .type],
     .seq [word "readonly", .rule .type],
     .seq [word "infer", label [], opt (.seq [word "extends", .rule .unionType])],
     .branch .other (.seq
       [word "import", .rule .arguments,
        .many (.seq [mark ".", .alt [label [], lexeme .privateName]])]),
     .rule .suffixedType]

/-- A type with brackets behind it: an array or a look-up. -/
def suffixedTypeForm : Phrase :=
  .seq [.rule .primaryType, .many (.seq [continues .other, brackets (opt (.rule .type))])]

/-- What a type query may look up in brackets. -/
def queryIndex : Phrase :=
  .alt
    [words ["any", "number", "boolean", "string", "symbol", "void", "unknown", "never", "object"],
     lexeme .string, lexeme .number]

/-- What a type query may ask about. -/
def queryForm : Phrase :=
  .grow
    (.alt
      [.branch .other (.seq [word "import", .rule .arguments]), .branch .other (word "this"),
       name []])
    .other
    [(".", false, .member, .seq [mark ".", .alt [label [], lexeme .privateName]]),
     ("?.", false, .member, .seq [mark "?.", .alt [label [], lexeme .privateName]]),
     ("?.", false, .subscript, .seq [mark "?.", brackets queryIndex]),
     ("[", false, .subscript, brackets queryIndex),
     ("(", false, .call, .rule .arguments),
     ("<", false, .other, .rule .typeArguments)]

/-- A member of a tuple type. -/
def tupleMember : Phrase :=
  .alt
    [.seq [mark "...", label [], mark ":", .rule .type],
     .seq [label [], opt (mark "?"), mark ":", .rule .type],
     .seq [mark "...", .rule .type],
     .seq [.rule .type, opt (mark "?")]]

def primaryTypeForm : Phrase :=
  .alt
    [parens (.rule .type),
     .rule .objectType,
     .seq [brackets (.seq [opt (commas tupleMember), opt (mark ",")])],
     lexeme .string,
     lexeme .number,
     .seq [.alt [mark "-", mark "+"], lexeme .number],
     .branch .other (.seq
       [mark "`",
        .many (.alt
          [.token (.tight .templateText),
           .seq [.token (.tightMark "$\x7b"), closed (.rule .type), mark "\x7d"]]),
        .token (.tightMark "`")]),
     .branch .other (.seq [word "typeof", queryForm]),
     .seq [word "keyof", .rule .suffixedType],
     .seq [word "unique", word "symbol"],
     mark "*",
     .seq [mark "?", .rule .primaryType],
     words ["this", "const", "true", "false", "null", "undefined", "void"],
     .seq
       [label typeWords, .many (.seq [mark ".", label []]), opt (.rule .typeArguments)]]

/-- An index signature or the head of a mapped type. -/
def indexSignature : Phrase :=
  let mapped : Phrase :=
    .seq [label [], word "in", .rule .type, opt (.seq [word "as", .rule .type])]
  .seq
    [opt (.seq [opt (.alt [mark "-", mark "+"]), word "readonly"]),
     brackets (.alt [.seq [label [], mark ":", .rule .type], mapped]),
     .alt [mark "-?:", mark "+?:", mark "?:", mark ":"],
     .rule .type]

/-- A method without a body. -/
def methodSignature : Phrase :=
  .seq
    (memberModifiers ++
      [opt (modifier "async"), methodMark, .rule .propertyName, opt (mark "?"),
       .rule .callSignature])

/-- The members of an object type, each ended by a comma, a semicolon or its line. -/
def objectTypeForm : Phrase :=
  let construct : Phrase :=
    .seq
      [opt (word "abstract"), word "new", opt (.rule .typeParameters), .rule .formalParameters,
       opt typeAnnotation]
  let property : Phrase :=
    .seq
      (memberModifiers ++ [.rule .propertyName, opt (mark "?"), opt typeAnnotation])
  let member : Phrase :=
    .alt
      [.rule .exportDeclaration, construct, .rule .callSignature, indexSignature, methodSignature,
       property]
  let separator : Phrase := .alt [mark ",", mark ";", .token (.lineEnd .other)]
  .seq
    [.alt [mark "\x7b|", mark "\x7b"],
     open_ (opt (.seq
       [opt (.alt [mark ",", mark ";"]), member, .many (.seq [separator, member]),
        opt separator])),
     .alt [mark "|\x7d", mark "\x7d"]]

end RepoAtlas.Script
