import RepoAtlas.Script.Grammar.Statement

/-! # Reading a script

The three dialects share one grammar; what differs hangs on the dialect inside the forms. A script
either has a parse tree or it has none: an unfinished or misplaced token anywhere leaves the whole
text without one.
-/

namespace RepoAtlas.Script

/-- The form of each rule. -/
def ruleForm (d : Dialect) : Rule → Phrase
  | .program => programForm
  | .statement => statementForm d
  | .block => blockForm
  | .declaration => declarationForm d
  | .declarators => declaratorsForm
  | .binding => bindingForm d
  | .expressions => Phrase.commas Phrase.operandOnly
  | .expression level => .grow (.rule .operand) .operand (steps d level)
  | .operand => operandForm d
  | .primary => primaryForm d
  | .constructor =>
    .grow (.alt [.rule .newOperand, .rule .primary]) .operand (constructorSteps d)
  | .newOperand => newForm d
  | .template => templateForm
  | .object => objectForm d
  | .array => arrayForm
  | .arguments => argumentsForm
  | .parenthesized => parenthesizedForm d
  | .callSignature => callSignatureForm d
  | .formalParameters => formalParametersForm d
  | .pattern => patternForm
  | .destructuring => destructuringForm d
  | .propertyName => propertyNameForm (if d.typed then ["abstract", "accessor"] else [])
  | .classBody => classBodyForm d
  | .classTail => classTailForm d
  | .decorator => decoratorForm d
  | .element => elementForm d
  | .markupHole => markupHoleForm
  | .type => typeForm
  | .unionType => unionTypeForm
  | .typeOperand => typeOperandForm
  | .suffixedType => suffixedTypeForm
  | .primaryType => primaryTypeForm
  | .typeArguments => typeArgumentsForm
  | .typeParameters => typeParametersForm
  | .objectType => objectTypeForm
  | .importDeclaration => importForm d
  | .exportDeclaration => exportForm d

/-- The grammar of a dialect. -/
def grammar (d : Dialect) : Grammar Rule := { dialect := d, form := ruleForm d }

/-- The parse tree of a script, if the script has one. -/
def parse (d : Dialect) (text : String) : Option Tree :=
  let src := Source.ofString text
  ((grammar d).read .program src).map fun found =>
    .branch .other 0 (src.byteOffset src.size) found.trees

end RepoAtlas.Script
