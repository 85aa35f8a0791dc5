import RepoAtlas.Script.Grammar.Rule

/-! # Operands

Operands, patterns and markup elements. An operand is something that stands alone (`operand`) and
what follows it (`steps`). Levels say how tightly a step binds; an assignment may follow wherever
the operand so far can be assigned to, however tight the surroundings are.
-/

namespace RepoAtlas.Script

open Phrase

namespace Level

def conditional : Nat := 1
def either : Nat := 2
def both : Nat := 3
def bitOr : Nat := 4
def bitXor : Nat := 5
def bitAnd : Nat := 6
def equality : Nat := 7
def relation : Nat := 8
def shift : Nat := 9
def sum : Nat := 10
def product : Nat := 11
def power : Nat := 12
def unary : Nat := 13
def update : Nat := 14
def assignment : Nat := 15
def chain : Nat := 16

end Level

/-- A template with its holes. -/
def templateForm : Phrase :=
  .branch .other (.seq
    [mark "`",
     .many (.alt
       [.token (.tight .templateText), .token (.tight .escape),
        .seq [.token (.tightMark "$\x7b"), closed (.rule .expressions), mark "\x7d"]]),
     .token (.tightMark "`")])

/-- The argument list of a call. Empty places are allowed anywhere. -/
def argumentsForm : Phrase :=
  .branch .arguments (parens (slots (.alt [spread, operandOnly])))

def arrayForm : Phrase := .branch .other (brackets (slots (.alt [spread, operandOnly])))

/-- The name of a property. -/
def propertyNameForm (barred : List String) : Phrase :=
  .alt [label barred, lexeme .privateName, lexeme .string, lexeme .number, brackets operandOnly]

/-- A word in front of a member's name. It is a modifier only if a name can still follow. -/
def modifier (text : String) : Phrase :=
  .seq [word text, .ahead (.alt
    [label [], lexeme .privateName, lexeme .string, lexeme .number, mark "[", mark "*"])]

/-- Any of the modifiers. -/
def anyModifier (texts : List String) : Phrase := .alt (texts.map modifier)

/-- A word that says from where a member may be used. -/
def accessibility : Phrase := anyModifier ["public", "private", "protected"]

/-- What makes a method an accessor or a generator. -/
def methodMark : Phrase := opt (.alt [modifier "get", modifier "set", mark "*"])

/-- The modifiers of a method or of a property of a type, in the only order that they may have. -/
def memberModifiers : List Phrase :=
  [opt accessibility, opt (modifier "static"), opt (modifier "override"), opt (modifier "readonly")]

/-- A method with its body, in a class or an object. -/
def methodForm (d : Dialect) : Phrase :=
  .seq ([.many (.rule .decorator)] ++
    (if d.typed then memberModifiers else [opt (modifier "static")]) ++
    [opt (modifier "async"), methodMark, .rule .propertyName] ++
    typedOnly d (opt (mark "?")) ++
    [.rule .callSignature, .rule .block])

def objectForm (d : Dialect) : Phrase :=
  .branch .other (braces (slots (.alt
    [spread,
     methodForm d,
     .seq [.rule .propertyName, mark ":", operandOnly],
     label (unbindable d)])))

/-- A pattern with an optional default. -/
def patternWithDefault : Phrase := .seq [.rule .pattern, opt initializer]

def patternForm : Phrase :=
  .alt
    [.rule .destructuring,
     .seq [mark "...", .alt [.rule .destructuring, .place (.rule (.expression Level.chain))]],
     .place (.rule (.expression Level.chain))]

def destructuringForm (d : Dialect) : Phrase :=
  .alt
    [braces (slots (.alt
       [.seq [.rule .propertyName, mark ":", patternWithDefault],
        .seq [mark "...", .alt [.rule .destructuring, .place (.rule (.expression Level.chain))]],
        .seq [.rule .destructuring, initializer],
        .seq [label (unbindable d), opt initializer]])),
     brackets (slots patternWithDefault)]

/-- One parameter of a function. -/
def parameterForm (d : Dialect) : Phrase :=
  if d.typed then
    let before (texts : List String) : Phrase :=
      opt (.seq [words texts, .ahead (.alt [label [], mark "\x7b", mark "[", mark "..."])])
    .seq
      [.many (.rule .decorator),
       before ["public", "private", "protected"], before ["override"], before ["readonly"],
       .alt [word "this", .rule .pattern],
       opt (mark "?"), opt typeAnnotation, opt initializer]
  else patternWithDefault

def formalParametersForm (d : Dialect) : Phrase :=
  parens (opt (.seq [commas (parameterForm d), opt (mark ",")]))

/-- A claim about a parameter, in place of a result type. -/
def typePredicate : Phrase := .seq [.alt [word "this", label []], word "is", .rule .type]

/-- The result of a function: a type, a claim, or an assertion. -/
def resultType : Phrase :=
  .alt
    [.seq [word "asserts", .alt [typePredicate, word "this", label []]],
     typePredicate,
     .rule .type]

/-- Type parameters, parameters and result of a function. -/
def callSignatureForm (d : Dialect) : Phrase :=
  if d.typed then
    .seq [opt (.rule .typeParameters), .rule .formalParameters, opt (.seq [mark ":", resultType])]
  else .rule .formalParameters

/-- The parameters of an arrow function. Where a colon belongs to a conditional around the
    function, it has no result type. -/
def arrowParameters (d : Dialect) : Phrase :=
  .alt
    [.seq [.allowed (·.plainArrow), opt (.rule .typeParameters), .rule .formalParameters],
     .seq [.allowed (fun mode => !mode.plainArrow), .rule .callSignature],
     name (operandWords d)]

def arrowForm (d : Dialect) : Phrase :=
  .branch .other (.seq
    [.alt
       [.seq [word "async", arrowParameters d, mark "=>"],
        .seq [arrowParameters d, mark "=>"]],
     .alt [.rule .block, operandOnly]])

/-- A function as an operand. -/
def functionForm (d : Dialect) : Phrase :=
  .branch .other (.seq
    [opt (word "async"), word "function", opt (mark "*"), opt (name (unbindable d)),
     .rule .callSignature, .rule .block])

/-- What may follow an operand, together with the level of each step. -/
def leveledSteps (d : Dialect) : List (Nat × String × Bool × BranchKind × Phrase) :=
  let binary (level : Nat) (texts : List String) :=
    texts.map fun text =>
      (level, text, false, BranchKind.other, Form.seq [sign text, .rule (.expression (level + 1))])
  let binaryWord (text : String) (guard : List Phrase) :=
    [(Level.relation, text, false, BranchKind.other,
      Form.seq (guard ++ [word text, .rule (.expression (Level.relation + 1))]))]
  let assignment (texts : List String) :=
    texts.map fun text =>
      (Level.assignment, text, true, BranchKind.other, Form.seq [sign text, operandOnly])
  let property : Phrase := .alt [label [], lexeme .privateName]
  let typeArguments : Phrase := .seq [.ahead (sign "<"), .rule .typeArguments]
  let operandStart : Phrase := .alt
    [label [], lexeme .number, lexeme .string, mark "(", mark "[", mark "\x7b", mark "!", mark "~",
     mark "+", mark "-", mark "<", mark "`", mark "/", mark "@"]
  let typed : List (Nat × String × Bool × BranchKind × Phrase) :=
    [(Level.chain, "!", false, .nonNull, sign "!"),
     (Level.chain, "<", false, .call, .seq [typeArguments, .rule .arguments]),
     (Level.chain, "<", false, .call, .seq [typeArguments, .rule .template]),
     (Level.chain, "<", false, .other,
      .seq [typeArguments, .alt
        [.seq [.allowed (·.lineEnds), .token (.lineEnd .operand)],
         .ahead (words ["in", "instanceof", "as", "satisfies", "of"]),
         .unless (.alt [operandStart, sign "="])]])]
  let castWords : List (Nat × String × Bool × BranchKind × Phrase) :=
    [(Level.relation, "as", false, .other,
      .seq [word "as", .alt [word "const", .rule .type]]),
     (Level.relation, "satisfies", false, .other, .seq [word "satisfies", .rule .type])]
  [(Level.chain, ".", false, .member, .seq [mark ".", property]),
   (Level.chain, "?.", false, .member, .seq [mark "?.", property]),
   (Level.chain, "?.", false, .subscript, .seq [mark "?.", brackets (.rule .expressions)]),
   (Level.chain, "?.", false, .call, .seq
     ([mark "?."] ++ typedOnly d (opt (.rule .typeArguments)) ++ [.rule .arguments])),
   (Level.chain, "[", false, .subscript, brackets (.rule .expressions)),
   (Level.chain, "(", false, .call, .rule .arguments),
   (Level.chain, "`", false, .call, .rule .template),
   (Level.update, "++", false, .other, sign "++"),
   (Level.update, "--", false, .other, sign "--")] ++
  (if d.typed then typed else []) ++
  [(Level.power, "**", false, .other, .seq [sign "**", .rule (.expression Level.power)])] ++
  binary Level.product ["*", "/", "%"] ++
  binary Level.sum ["+", "-"] ++
  binary Level.shift ["<<", ">>", ">>>"] ++
  binary Level.relation ["<", "<=", ">", ">="] ++
  binaryWord "instanceof" [] ++
  binaryWord "in" [.allowed (fun mode => !mode.noIn)] ++
  (if d.typed then castWords else []) ++
  binary Level.equality ["==", "!=", "===", "!=="] ++
  binary Level.bitAnd ["&"] ++
  binary Level.bitXor ["^"] ++
  binary Level.bitOr ["|"] ++
  binary Level.both ["&&"] ++
  binary Level.either ["||"] ++
  binary Level.conditional ["??"] ++
  [(Level.conditional, "?", false, .other, .seq
    [.token .conditional,
     .alt
       [.seq [.within ({ · with lineEnds := false }) operandOnly, mark ":"],
        .seq [.within ({ · with lineEnds := false, plainArrow := true }) operandOnly, mark ":"]],
     operandOnly])] ++
  assignment
    ["=", "+=", "-=", "*=", "/=", "%=", "^=", "&=", "|=", ">>=", ">>>=", "<<=", "**=", "&&=", "||=",
     "??="]

/-- The steps that bind at least as tightly as the level. -/
def steps (d : Dialect) (level : Nat) : List (String × Bool × BranchKind × Phrase) :=
  (leveledSteps d).filterMap fun step => if level ≤ step.1 then some step.2 else none

/-- The steps inside the operand of `new`: the first argument list belongs to `new` itself. -/
def constructorSteps (d : Dialect) : List (String × Bool × BranchKind × Phrase) :=
  (steps d Level.chain).filter fun step => step.1 != "(" && step.1 != "<" && step.2.2.1 != .call ||
    step.1 == "`"

/-- An operand with a `new` in front. -/
def newForm (d : Dialect) : Phrase :=
  .branch .other (.alt
    [.seq [word "new", mark ".", word "target"],
     .seq ([word "new", .rule .constructor] ++
       typedOnly d (opt (.seq [.ahead (sign "<"), .rule .typeArguments])) ++
       [opt (.seq [continues .operand, .rule .arguments])])])

/-- Operands that a member, a call or a template may follow directly. -/
def primaryForm (d : Dialect) : Phrase :=
  let literal (text : String) : Phrase := .branch .other (word text)
  .alt
    ([.rule .template,
      lexeme .number,
      .token (.lexeme .string .string),
      lexeme .pattern,
      .rule .parenthesized,
      .rule .array,
      .rule .object,
      functionForm d,
      .branch .other (.seq [.many (.rule .decorator), word "class", .rule .classTail]),
      literal "this", literal "super", literal "true", literal "false", literal "null",
      literal "undefined",
      .branch .other (.seq [word "import", mark ".", word "meta"]),
      .branch .other (.seq [word "import", .ahead (.alt [mark "(", mark ".", mark "`"])])] ++
     (if d.markup then [.rule .element] else []) ++
     [name (operandWords d)])

/-- Operands that stand alone. -/
def operandForm (d : Dialect) : Phrase :=
  let unary : Phrase :=
    .branch .other (.seq
      [.alt [signs ["!", "~", "-", "+"], words ["typeof", "void", "delete"]],
       .rule (.expression Level.unary)])
  let update : Phrase :=
    .branch .other (.seq [signs ["++", "--"], .rule (.expression Level.update)])
  let await : Phrase := .branch .other (.seq [word "await", .rule (.expression Level.unary)])
  let yield : Phrase :=
    .branch .other (.seq
      [word "yield",
       .alt [.seq [mark "*", operandOnly], .seq [continues .operand, operandOnly], nothing]])
  let membership : Phrase := .seq [lexeme .privateName, .ahead (word "in")]
  let destructured : Phrase := .branch .other (.seq [.rule .destructuring, initializer])
  let resource : Phrase :=
    .branch .other (.seq
      [word "using", .place (.rule (.expression Level.chain)), initializer])
  -- In the typed dialects `new` is a name where nothing can be constructed.
  let newName : Phrase :=
    .seq [name [], .alt
      [.token (.lineEnd .operand),
       .ahead (.alt (["=", ",", ";", ")", "]", "\x7d", ":", "*", "%", "&", "|", "^"].map mark))]]
  .seq
    [.token .markupComments,
     .alt
       ([arrowForm d, unary, update, await, yield, .rule .newOperand, membership, destructured,
         resource] ++
        (if d = .typescript then
          [.branch .other (.seq [.rule .typeArguments, .rule (.expression Level.unary)])]
         else []) ++
        [.rule .primary] ++
        typedOnly d (.seq [.ahead (word "new"), newName]))]

def parenthesizedForm (d : Dialect) : Phrase :=
  .branch .parenthesized (parens (.seq [.rule .expressions, optionalType d]))

/-- A decorator: a name, a member, a call of one of these, or something in parentheses. -/
def decoratorForm (d : Dialect) : Phrase :=
  let target : Phrase :=
    .grow (name (unbindable d)) .other [(".", false, .member, .seq [mark ".", label []])]
  .branch .other (.seq
    [mark "@",
     .alt ([.branch .call (.seq
              ([target] ++ typedOnly d (opt (.rule .typeArguments)) ++ [.rule .arguments])),
            target] ++ typedOnly d (.rule .parenthesized))])

/-- Something in braces inside markup. -/
def markupHoleForm : Phrase :=
  .branch .other (braces (opt (.alt [spread, .rule .expressions])))

/-- A markup element or fragment. -/
def elementForm (d : Dialect) : Phrase :=
  let elementName : Phrase :=
    .alt
      [.seq [lexeme .markupName, mark ":", lexeme .markupName],
       .seq [label [], mark ".", label [], .many (.seq [mark ".", label []])],
       lexeme .markupName]
  let value : Phrase := .alt [lexeme .markupString, .rule .markupHole, .rule .element]
  let attributeName : Phrase :=
    .seq [lexeme .markupName, opt (.seq [mark ":", lexeme .markupName])]
  let oneAttribute : Phrase :=
    .alt [.rule .markupHole, .seq [attributeName, opt (.seq [mark "=", value])]]
  let opening : Phrase :=
    .seq ([elementName] ++ typedOnly d (opt (.rule .typeArguments)) ++ [.many oneAttribute])
  let child : Phrase :=
    .alt
      [.token (.tight .markupText), lexeme .characterReference, .rule .markupHole, .rule .element]
  let closing : Phrase := .seq [.many child, mark "</", opt elementName, mark ">"]
  .branch .other (closed (.seq
    [mark "<",
     .alt [.seq [opening, .alt [mark "/>", .seq [mark ">", closing]]], .seq [mark ">", closing]]]))

end RepoAtlas.Script
