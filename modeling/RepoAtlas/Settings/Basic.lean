import RepoAtlas.Amount
import RepoAtlas.History.Churn
import RepoAtlas.Language
import RepoAtlas.Problem
import RepoAtlas.Settings.Field
import RepoAtlas.Settings.Value
import RepoAtlas.Text.Split

/-! # Settings

The settings of one build. They are made from a table of given values: every name has to be that of
a setting, extensions are brought into one form, and modes and amounts are checked in a fixed order.
Other values are kept as they were given.
-/

namespace RepoAtlas

/-- How much is logged. -/
inductive Verbosity where
  | quiet
  | normal
  | verbose
  deriving DecidableEq, Repr

namespace Verbosity

/-- The name of a verbosity in settings. -/
def name : Verbosity → String
  | .quiet => "quiet"
  | .normal => "normal"
  | .verbose => "verbose"

/-- All verbosities. -/
def all : List Verbosity := [.quiet, .normal, .verbose]

/-- The verbosity of a name. -/
def ofName? (name : String) : Option Verbosity := all.find? (·.name == name)

end Verbosity

namespace Amount

/-- The amount that a value is. -/
def ofValue? : Value → Option Amount
  | .bool b => some (.flag b)
  | .int n => some (.whole n)
  | .float x => some (.real x)
  | _ => none

/-- The amount as a value. -/
def toValue : Amount → Value
  | .flag b => .bool b
  | .whole n => .int n
  | .real x => .float x

end Amount

/-- What a setting requires of its value. -/
inductive Requirement where
  | nonempty
  | oneOf (choices : List String)
  | atLeastOne
  | positive
  deriving DecidableEq, Repr

/-- Says what is required. -/
def Requirement.reason : Requirement → String
  | .nonempty => "at least one is required"
  | .oneOf choices => "expected one of " ++ ", ".intercalate choices
  | .atLeastOne => "must be at least 1"
  | .positive => "must be positive"

/-- Why a table makes no settings. -/
inductive SettingsProblem where
  /-- The name is not that of a setting. -/
  | unknown (name : String)
  /-- The name belongs to the settings themselves. -/
  | reserved (name : String)
  /-- A list is expected and the value of this kind has no items. -/
  | noItems (kind : String)
  /-- A number is expected and the value of this kind cannot be compared with one. -/
  | noOrder (kind : String)
  /-- The value is not as its setting requires. -/
  | invalid (setting : Setting) (value : String) (requirement : Requirement)
  /-- A text is needed and a whole number has too many digits for it. -/
  | tooLong
  deriving DecidableEq, Repr

namespace SettingsProblem

/-- The one name that every call of the settings has by itself. -/
def reservedName : String := "self"

/-- What is wrong with the table. -/
def message : SettingsProblem → String
  | .unknown name =>
    "AnalysisConfig.__init__() got an unexpected keyword argument '" ++ name ++ "'"
  | .reserved name =>
    "AnalysisConfig.__init__() got multiple values for argument '" ++ name ++ "'"
  | .noItems kind => "'" ++ kind ++ "' object is not iterable"
  | .noOrder kind => "'<' not supported between instances of '" ++ kind ++ "' and 'int'"
  | .invalid setting value requirement =>
    (Problem.invalidSetting setting.name value requirement.reason).text
  | .tooLong =>
    "Exceeds the limit (" ++ toString Decimal.mostDigits ++
      " digits) for integer string conversion; use sys.set_int_max_str_digits() to increase the limit"

/-- The problem as it is reported: an invalid value by its setting, all else as a configuration that
    cannot be used. A number that cannot be written is not reported. -/
def toProblem? : SettingsProblem → Option Problem
  | .invalid setting value requirement =>
    some (.invalidSetting setting.name value requirement.reason)
  | .tooLong => none
  | p => some (.configuration ("Invalid configuration: " ++ p.message) [])

end SettingsProblem

/-- The settings of one build. -/
structure Settings where
  /-- The extensions of listed files, with a dot and in small letters. -/
  extensions : List String
  /-- The names of folders that are never entered. -/
  excludedDirs : List Value
  ignoreFile : Value
  respectIgnoreFile : Value
  includeFolders : Value
  relativeFirst : Value
  churnMode : History.ChurnMode
  gitTimeoutSeconds : Amount
  /-- How many questions are asked of git at once, if that is set. -/
  workers : Option Amount
  topN : Amount
  verbosity : Verbosity
  explainModel : Value
  explainMaxChars : Amount

namespace Settings

/-- The value of a setting when nothing is given. -/
def preset : Setting → Value
  | .extensions => .list (Language.sourceExtensions.map .text)
  | .excludedDirs => .list (Language.excludedDirectories.map .text)
  | .ignoreFile => .text ".gitignore"
  | .respectIgnoreFile => .bool true
  | .includeFolders => .bool true
  | .relativeFirst => .bool false
  | .churnMode => .text "history"
  | .gitTimeoutSeconds => .int 10
  | .workers => .none
  | .topN => .int 5
  | .verbosity => .text "normal"
  | .explainModel => .text "gemini-2.5-flash"
  | .explainMaxChars => .int 3000

/-- The value that a table gives for a setting. -/
def givenOr (given : Table) (s : Setting) : Value := (given.lookup s.name).getD (preset s)

/-- An extension in its one form; none if nothing but blanks is given. -/
def extensionForm (text : String) : Option String :=
  let bare := Text.lower (Text.strip text)
  if bare = "" then none
  else if Text.startsWith bare "." then some bare
  else some ("." ++ bare)

/-- The items of a value. -/
def itemsOf (v : Value) : Except SettingsProblem (List Value) :=
  match v.parts? with
  | some items => .ok items
  | none => .error (.noItems v.kindName)

/-- The text of a value. -/
def textOf (v : Value) : Except SettingsProblem String :=
  if v.isWritable then .ok v.write else .error .tooLong

/-- The extensions that a value lists. -/
def extensionsOf (v : Value) : Except SettingsProblem (List String) := do
  let items ← itemsOf v
  let texts ← items.mapM textOf
  return texts.filterMap extensionForm

/-- Refuses a value of a setting. -/
def refuse {α : Type} (s : Setting) (requirement : Requirement) (v : Value) :
    Except SettingsProblem α := do
  throw (.invalid s (← textOf v) requirement)

/-- The choice that a value names. -/
def choiceOf {α : Type} (s : Setting) (ofName? : String → Option α) (choices : List String)
    (v : Value) : Except SettingsProblem α :=
  let named : Option α :=
    match v with
    | .text name => ofName? name
    | _ => none
  match named with
  | some choice => .ok choice
  | none => refuse s (.oneOf choices) v

/-- The amount that a value is; it has to be one at least. -/
def amountOf (s : Setting) (requirement : Requirement) (v : Value) :
    Except SettingsProblem Amount :=
  match Amount.ofValue? v with
  | none => .error (.noOrder v.kindName)
  | some amount =>
    if amount.isBelowOne then refuse s requirement v else .ok amount

/-- The amount of a value that may be missing. -/
def amountOf? (s : Setting) (v : Value) : Except SettingsProblem (Option Amount) :=
  match v with
  | .none => .ok none
  | v => (amountOf s .atLeastOne v).map some

/-- What is wrong with a name in a table of settings. -/
def nameProblem? (name : String) : Option SettingsProblem :=
  if name = SettingsProblem.reservedName then some (.reserved name)
  else if (Setting.ofName? name).isSome then none
  else some (.unknown name)

/-- The settings that a table makes. All names are checked before any value. -/
def ofTable (given : Table) : Except SettingsProblem Settings := do
  if let some problem := given.findSome? fun (name, _) => nameProblem? name then
    throw problem
  let value := givenOr given
  let extensions ← extensionsOf (value .extensions)
  let excludedDirs ← itemsOf (value .excludedDirs)
  if extensions.isEmpty then
    throw (.invalid .extensions "()" .nonempty)
  let churnMode ←
    choiceOf .churnMode History.ChurnMode.ofName? (History.ChurnMode.all.map (·.name))
      (value .churnMode)
  let verbosity ←
    choiceOf .verbosity Verbosity.ofName? (Verbosity.all.map (·.name)) (value .verbosity)
  let gitTimeoutSeconds ← amountOf .gitTimeoutSeconds .atLeastOne (value .gitTimeoutSeconds)
  let workers ← amountOf? .workers (value .workers)
  let topN ← amountOf .topN .atLeastOne (value .topN)
  let explainMaxChars ← amountOf .explainMaxChars .positive (value .explainMaxChars)
  return { extensions, excludedDirs, ignoreFile := value .ignoreFile
           respectIgnoreFile := value .respectIgnoreFile
           includeFolders := value .includeFolders, relativeFirst := value .relativeFirst
           churnMode, gitTimeoutSeconds, workers, topN, verbosity
           explainModel := value .explainModel, explainMaxChars }

/-- The value of a setting. -/
def get (s : Settings) : Setting → Value
  | .extensions => .list (s.extensions.map .text)
  | .excludedDirs => .list s.excludedDirs
  | .ignoreFile => s.ignoreFile
  | .respectIgnoreFile => s.respectIgnoreFile
  | .includeFolders => s.includeFolders
  | .relativeFirst => s.relativeFirst
  | .churnMode => .text s.churnMode.name
  | .gitTimeoutSeconds => s.gitTimeoutSeconds.toValue
  | .workers => (s.workers.map (·.toValue)).getD .none
  | .topN => s.topN.toValue
  | .verbosity => .text s.verbosity.name
  | .explainModel => s.explainModel
  | .explainMaxChars => s.explainMaxChars.toValue

/-- All values by name. -/
def table (s : Settings) : Table := Setting.all.map fun setting => (setting.name, s.get setting)

/-- The most workers that are used unasked, and how many if the processors are not known. -/
def mostWorkers : Nat := 8
def usualWorkers : Nat := 4

/-- How many questions are asked of git at once on a machine with so many processors. -/
def effectiveWorkers (s : Settings) (processors : Option Nat) : Amount :=
  match s.workers with
  | some amount => amount
  | none =>
    let known := processors.filter (· ≠ 0)
    .whole (min (known.getD usualWorkers) mostWorkers : Nat)

end Settings

end RepoAtlas
