import RepoAtlas.Script.Grammar.Types

/-! # Statements and declarations

A statement that a word announces is tried before a statement that is only an operand, and a block
before an object. A word such as `type` announces a statement only if the rest of it follows;
otherwise it is a name.
-/

namespace RepoAtlas.Script

open Phrase

/-- Something that a declaration binds. -/
def bindingForm (d : Dialect) : Phrase :=
  if d.typed then
    .alt
      [.seq [name [], mark "!", typeAnnotation],
       .seq [.alt [name [], .rule .destructuring], opt typeAnnotation]]
  else .alt [name (unbindable d), .rule .destructuring]

/-- The rest of a variable declaration. With an initial value the statement ends behind an
    operand, without one behind a name or a type. -/
def declaratorsForm : Phrase :=
  .alt
    [.seq [.rule .binding, initializer,
      .alt [.seq [mark ",", .rule .declarators], semicolon .operand]],
     .seq [.rule .binding, .alt [.seq [mark ",", .rule .declarators], semicolon .other]]]

/-- A declaration of variables. Where operators that are words may follow the name `let`, they
    are not bound by a declaration. -/
def variableDeclaration (d : Dialect) : Phrase :=
  let wordOperators : List String := if d.typed then ["as", "satisfies", "in", "instanceof"] else []
  .alt
    ([.seq [words ["var", "const"], .rule .declarators],
      .seq [word "let", .unless (words wordOperators), .rule .declarators]] ++
     (if d.typed then [] else
       [.seq [opt (word "await"), word "using", .token (.sameStatement .operand),
         .rule .declarators]]))

def functionDeclaration (d : Dialect) : Phrase :=
  .seq
    [opt (word "async"), word "function", opt (mark "*"), name (unbindable d),
     .rule .callSignature,
     if d.typed then .alt [.rule .block, semicolon .signature] else .rule .block]

/-- The name of a class is missing only in an operand. -/
def className (d : Dialect) : Phrase :=
  if d.typed then label ["extends", "implements"] else label reservedWords

/-- Everything of a class behind its name. -/
def classHeritage (d : Dialect) : Phrase :=
  if d.typed then
    let value : Phrase :=
      .alt
        [.seq
           [.rule (.expression Level.chain), opt (.rule .typeArguments),
            .ahead (.alt [mark ",", mark "\x7b", word "implements"])],
         operandOnly]
    .seq
      [opt (.rule .typeParameters),
       opt (.seq [word "extends", commas value]),
       opt (.seq [word "implements", commas (.rule .type)])]
  else opt (.seq [word "extends", operandOnly])

def classTailForm (d : Dialect) : Phrase :=
  closed (.seq [opt (className d), classHeritage d, .rule .classBody])

def classDeclaration (d : Dialect) : Phrase :=
  .seq
    [.many (.rule .decorator),
     .seq (typedOnly d (opt (word "abstract"))),
     word "class", .ahead (className d), .rule .classTail]

/-- The members of a class. -/
def classBodyForm (d : Dialect) : Phrase :=
  let staticBlock : Phrase := .seq [word "static", .rule .block]
  let fieldModifiers : Phrase :=
    if d.typed then
      .seq
        [opt (.alt
           [.seq [modifier "declare", opt accessibility],
            .seq [accessibility, opt (modifier "declare")]]),
         .alt
           [modifier "accessor",
            .seq [modifier "abstract", opt (modifier "readonly")],
            .seq [modifier "readonly", modifier "abstract"],
            .seq
              [opt (modifier "static"), opt (modifier "override"), opt (modifier "readonly")]]]
    else opt (modifier "static")
  let field : Phrase :=
    .seq
      ([.many (.rule .decorator), fieldModifiers, .rule .propertyName] ++
       (if d.typed then [opt (.alt [mark "?", mark "!"]), opt typeAnnotation] else []))
  let fieldEnd (before : Before) : Phrase :=
    if d.typed then .alt [semicolon before, mark ","] else semicolon before
  let abstractMethod : Phrase :=
    .seq
      [opt accessibility, modifier "abstract", opt (modifier "override"),
       methodMark, .rule .propertyName, opt (mark "?"), .rule .callSignature]
  let signatures : List Phrase :=
    if d.typed then
      [.seq [.alt [methodSignature, abstractMethod], .alt [semicolon .signature, mark ","]],
       .seq [indexSignature, fieldEnd .other]]
    else []
  .seq
    [mark "\x7b",
     open_ (.many (.alt
       ([mark ";", staticBlock,
         .seq [methodForm d, opt (if d.typed then semicolon .other else mark ";")]] ++
        signatures ++
        [.seq [field, initializer, fieldEnd .operand], .seq [field, fieldEnd .other]]))),
     mark "\x7d"]

/-- The name of something exported, which may be any word or a string. -/
def exportName : Phrase := .alt [label [], lexeme .string]

/-- One name of an import list. The words `type` and `typeof` may be names themselves. -/
def importSpecifier (d : Dialect) : Phrase :=
  let own : Phrase := label (unbindable d)
  let plain : List Phrase := [.seq [exportName, word "as", own], own]
  let marked : List Phrase :=
    if d.typed then
      [.seq [words ["type", "typeof"], exportName, word "as", own],
       .seq [words ["type", "typeof"], own]]
    else []
  let ended (phrase : Phrase) : Phrase := .seq [phrase, .ahead (.alt [mark ",", mark "\x7d"])]
  .alt ((marked ++ plain).map ended)

/-- Names in braces. -/
def nameList (phrase : Phrase) : Phrase :=
  braces (.seq [opt (commas phrase), opt (mark ",")])

/-- What an import statement binds. -/
def importClause (d : Dialect) : Phrase :=
  let everything : Phrase := .seq [mark "*", word "as", label (unbindable d)]
  let some_ : Phrase := .alt [everything, nameList (importSpecifier d)]
  let first : List String := if d.typed then ["typeof"] else reservedWords
  .branch .other (.alt [some_, .seq [label first, opt (.seq [mark ",", some_])]])

/-- The string that an import statement names. -/
def importedString : Phrase := .token (.lexeme .string .string)

def importForm (d : Dialect) : Phrase :=
  let source : Phrase := .seq [importClause d, word "from", importedString]
  let external : Phrase :=
    .branch .other (.seq
      [label [], mark "=", word "require", mark "(", lexeme .string, mark ")"])
  let attributeWords : List String := if d.typed then ["with", "assert"] else ["with"]
  .branch .importStatement (.seq
    [word "import",
     .alt
       (typedOnly d (.seq [words ["type", "typeof"], .alt [source, external]]) ++
        [source, importedString] ++ typedOnly d external),
     opt (.seq
       [.token (.sameStatement .other), words attributeWords, .branch .other (.rule .object)]),
     semicolon .other])

/-- A second name for a member of a namespace. -/
def importAlias : Phrase :=
  .seq
    [word "import", label [], mark "=", label [], .many (.seq [mark ".", label []]),
     semicolon .other]

def exportForm (d : Dialect) : Phrase :=
  let ended (phrase : Phrase) : Phrase := .seq [phrase, .ahead (.alt [mark ",", mark "\x7d"])]
  let plain : List Phrase := [.seq [exportName, word "as", exportName], exportName]
  let marked : List Phrase :=
    if d.typed then
      [.seq [words ["type", "typeof"], exportName, word "as", exportName],
       .seq [words ["type", "typeof"], exportName]]
    else []
  let clause : Phrase := nameList (.alt ((marked ++ plain).map ended))
  let source : Phrase := .seq [word "from", lexeme .string]
  let reexport : Phrase :=
    .seq
      [.alt
        [.seq [mark "*", source],
         .seq [mark "*", word "as", exportName, source],
         .seq [clause, opt (.seq [.token (.sameStatement .other), source])]],
       semicolon .other]
  let typedExports : List Phrase :=
    if d.typed then
      [.seq [word "type", clause, opt source, semicolon .other],
       .seq [sign "=", operandOnly, semicolon .operand],
       .seq [word "as", word "namespace", label [], semicolon .other],
       .rule .importDeclaration]
    else []
  .branch .other (.seq
    [.many (.rule .decorator), word "export",
     .alt
       ([reexport, .rule .declaration,
         .seq
           [word "default",
            .alt [.rule .declaration, .seq [operandOnly, semicolon .operand]]]] ++
        typedExports)])

/-- Declarations that only the typed dialects have. -/
def typedDeclarations : List Phrase :=
  let dotted : Phrase := .seq [label [], .many (.seq [mark ".", label []])]
  let namespace_ : Phrase :=
    .seq
      [words ["module", "namespace"], .token (.sameStatement .operand),
       .alt [lexeme .string, dotted], opt (.rule .block)]
  let typeAlias : Phrase :=
    .seq
      [word "type", label [], opt (.rule .typeParameters), mark "=", .rule .type, semicolon .other]
  let parent : Phrase := .seq [dotted, opt (.rule .typeArguments)]
  let interface : Phrase :=
    .seq
      [word "interface", label [], opt (.rule .typeParameters),
       opt (.seq [word "extends", commas parent]), .rule .objectType]
  let enumMember : Phrase := .seq [.rule .propertyName, opt initializer]
  let enumeration : Phrase :=
    .seq
      [opt (word "const"), word "enum", label [],
       braces (opt (.seq [commas enumMember, opt (mark ",")]))]
  let ambient : Phrase :=
    .seq
      [word "declare", .token (.sameStatement .operand),
       .alt
         [.rule .declaration,
          .seq [word "global", .rule .block],
          .seq [word "module", mark ".", label [], typeAnnotation, semicolon .other]]]
  [typeAlias, interface, enumeration, namespace_, ambient, importAlias]

def declarationForm (d : Dialect) : Phrase :=
  .alt
    ((if d.typed then typedDeclarations else []) ++
     [functionDeclaration d, classDeclaration d, variableDeclaration d])

def blockForm : Phrase :=
  .seq [mark "\x7b", open_ (.seq [.many (.rule .statement), .token .markupComments]), mark "\x7d"]

/-- The parentheses of a loop, in both shapes. -/
def loopHead (d : Dialect) : Phrase :=
  let bound : Phrase := .alt [name (unbindable d), .rule .destructuring]
  let operator : Phrase := words ["in", "of"]
  let overItems : Phrase :=
    .seq
      [.alt
        [.seq
           [.alt
              [.seq [.rule .destructuring, .ahead operator],
               .place (.rule (.expression Level.chain)), .rule .parenthesized],
            operator],
         .seq
           [word "var", bound, opt (.within ({ · with noIn := true }) initializer), operator],
         .seq [words ["let", "const"], bound, operator]],
       .rule .expressions]
  let counted : Phrase :=
    .seq
      [.alt
        [open_ (variableDeclaration d),
         .seq [.rule .expressions, mark ";"],
         mark ";"],
       .alt [.seq [.rule .expressions, mark ";"], mark ";"],
       opt (.rule .expressions)]
  .alt
    [.seq [opt (word "await"), parens overItems],
     parens counted]

def statementForm (d : Dialect) : Phrase :=
  let condition : Phrase := closed (.rule .parenthesized)
  let statement : Phrase := .rule .statement
  let jump (text : String) : Phrase :=
    .seq
      [word text,
       .alt
         [.seq [.token (.sameStatement .other), label (unbindable d), semicolon .other],
          semicolon .other]]
  let case_ : Phrase :=
    .seq
      [.alt [.seq [word "case", closed (.rule .expressions)], word "default"], mark ":",
       .many (.seq [.unless (words ["case", "default"]), statement])]
  let catch_ : Phrase :=
    .seq
      [word "catch",
       opt (parens (.seq
         [.alt [name (unbindable d), .rule .destructuring], optionalType d])),
       .rule .block]
  -- A destructuring assignment. Braces with a single name or nothing inside are a block.
  let blockOnly : Phrase := .seq [mark "\x7b", opt (label []), mark "\x7d"]
  let destructured : Phrase :=
    .seq
      [.unless blockOnly, .ahead (.seq [mark "\x7b", .ahead (.alt [label [], mark "..."])]),
       .ahead (.seq [.rule .destructuring, sign "="]), .rule .expressions, semicolon .operand]
  open_ (.seq
    [.token .markupComments,
     .alt
       [destructured,
        .rule .block,
        mark ";",
        .rule .importDeclaration,
        .rule .exportDeclaration,
        .rule .declaration,
        .seq [word "if", condition, statement, opt (.seq [word "else", statement])],
        .seq [word "for", loopHead d, statement],
        .seq [word "while", condition, statement],
        .seq [word "do", statement, word "while", condition, opt (semicolon .other)],
        .seq
          [word "switch", condition, mark "\x7b", .many case_, mark "\x7d"],
        .seq
          [word "try", .rule .block, opt catch_, opt (.seq [word "finally", .rule .block])],
        .seq [word "with", condition, statement],
        .seq
          [word "return",
           .alt
             [.seq [continues .other, .rule .expressions, semicolon .operand], semicolon .other]],
        .seq [word "throw", .rule .expressions, semicolon .operand],
        jump "break",
        jump "continue",
        .seq [word "debugger", semicolon .other],
        .seq [label (operandWords d ++ statementWords d), mark ":", statement],
        .seq [.unless (words (statementWords d)), .rule .expressions, semicolon .operand]]])

/-- A whole program. -/
def programForm : Phrase :=
  .seq
    [opt (lexeme .interpreterLine), .many (.rule .statement), .token .markupComments,
     .token .finish]

end RepoAtlas.Script
