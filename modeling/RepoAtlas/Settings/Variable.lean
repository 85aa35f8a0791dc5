import RepoAtlas.Decimal.Read
import RepoAtlas.Settings.Field
import RepoAtlas.Settings.Value
import RepoAtlas.Text.Lowercase

/-! # Settings in variables

Environment variables are texts. What a text stands for depends on its setting; a text that stands
for nothing of that kind is refused.
-/

namespace RepoAtlas

/-- Named texts of the environment. -/
abbrev Variables := List (String × String)

/-- Why the text of a variable has no value. -/
inductive VariableProblem where
  | noFlag (text : String)
  | noWhole (problem : Decimal.WholeProblem)
  | noReal (text : String)
  deriving DecidableEq, Repr

/-- Why a text is no whole number. -/
def Decimal.WholeProblem.message : Decimal.WholeProblem → String
  | .notANumeral text => "invalid literal for int() with base 10: " ++ Text.quoted text
  | .tooLong count =>
    "Exceeds the limit (" ++ toString Decimal.mostDigits ++
      " digits) for integer string conversion: value has " ++ toString count ++
      " digits; use sys.set_int_max_str_digits() to increase the limit"

/-- Why the text has no value. -/
def VariableProblem.message : VariableProblem → String
  | .noFlag text => "expected true/false, got '" ++ text ++ "'"
  | .noWhole problem => problem.message
  | .noReal text => "could not convert string to float: " ++ Text.quoted text

/-- The words for yes and no. -/
def yesWords : List String := ["true", "1", "yes", "on"]
def noWords : List String := ["false", "0", "no", "off"]

/-- The value of a variable's text; a sequence has none. -/
def VariableKind.read (kind : VariableKind) (text : String) :
    Except VariableProblem (Option Value) :=
  match kind with
  | .sequence => .ok none
  | .text => .ok (some (.text text))
  | .flag =>
    let word := Text.lower text
    if yesWords.contains word then .ok (some (.bool true))
    else if noWords.contains word then .ok (some (.bool false))
    else .error (.noFlag text)
  | .whole =>
    match Decimal.readWhole text with
    | .ok n => .ok (some (.int n))
    | .error problem => .error (.noWhole problem)
  | .real =>
    match Decimal.readFloat? text with
    | some x => .ok (some (.float x))
    | none => .error (.noReal text)

end RepoAtlas
