import RepoAtlas.Index
import RepoAtlas.Settings.Basic
import RepoAtlas.Settings.Variable
import RepoAtlas.Toml.Read

/-! # Loading settings

Settings are given in five layers: a document in the home folder, a document in the working folder,
a document that the caller names, variables of the environment, and values of the caller. A later
layer wins over an earlier one, setting by setting; what no layer gives keeps its preset. Values are
checked once, after all layers are joined.
-/

namespace RepoAtlas

/-- Why a document gives no settings. -/
inductive DocumentProblem where
  | access (problem : AccessProblem) (path : Path)
  | encoding (problem : Text.Utf8Problem)
  | contents (message : String)

/-- Why settings are not loaded. -/
inductive LoadProblem where
  /-- The caller is told what is wrong with the configuration. -/
  | configuration (problem : Problem)
  /-- A whole number has too many digits for the text that is needed of it. -/
  | tooLong
  /-- No home folder is known. -/
  | homeless
  /-- It cannot be told whether there is a document. -/
  | access (problem : AccessProblem)
  deriving DecidableEq

/-- What is wrong with the document. -/
def DocumentProblem.message : DocumentProblem → String
  | .access problem path => problem.message path
  | .encoding problem => problem.message
  | .contents message => message

namespace Settings

/-- The name of the table that holds the settings of a document shared with others. -/
def sectionName : String := "orbyt"

/-- The settings of a document: those of its own table if it has one, all of them otherwise. -/
def sectionOf (document : Table) : Table :=
  match document.lookup sectionName with
  | some (.table members) => members
  | _ => document

/-- The settings in a document. -/
def readDocument (d : Disk) (path : Path) : Except DocumentProblem Table :=
  match d.bytes path with
  | .error problem => .error (.access problem path)
  | .ok bytes =>
    match Text.decodeAll bytes with
    | .error problem => .error (.encoding problem)
    | .ok cs =>
      match Toml.read cs with
      | .error message => .error (.contents message)
      | .ok document => .ok (sectionOf document)

/-- The settings in a document that is called so in messages. -/
def documentLayer (d : Disk) (calling : String) (path : Path) : Except Problem Table :=
  match readDocument d path with
  | .ok table => .ok table
  | .error problem =>
    .error (.configuration
      ("Invalid " ++ calling ++ " '" ++ path.text ++ "': " ++ problem.message) [])

/-- The settings in a document; those for an absent one if there is none. -/
def layerOr (d : Disk) (calling : String) (path : Path) (absent : Except Problem Table) :
    Except LoadProblem Table :=
  match d.hasEntry path with
  | .error problem => .error (.access problem)
  | .ok here => (if here then documentLayer d calling path else absent).mapError .configuration

/-- The settings in a document that may be absent. -/
def optionalLayer (d : Disk) (calling : String) (path : Path) : Except LoadProblem Table :=
  layerOr d calling path (.ok [])

/-- The settings in a document that the caller names. -/
def namedLayer (d : Disk) : Option Path → Except LoadProblem Table
  | none => .ok []
  | some path =>
    layerOr d "config file" path
      (.error (.configuration ("Config file not found: " ++ path.text) []))

/-- The settings in variables. -/
def variableLayer (environment : Variables) : List Setting → Except Problem Table
  | [] => .ok []
  | setting :: rest =>
    match environment.lookup setting.variableName with
    | none => variableLayer environment rest
    | some text =>
      match setting.variableKind.read text with
      | .error problem =>
        .error (.configuration
          ("Invalid " ++ setting.variableName ++ ": " ++ problem.message) [])
      | .ok value =>
        (variableLayer environment rest).map fun table =>
          (value.map fun v => (setting.name, v)).toList ++ table

/-- Is a value given and counted as yes? -/
def isOn (given : Table) (name : String) : Bool := ((given.lookup name).map (·.isYes)).getD false

/-- The settings of the caller: missing values set nothing, and two flags stand for verbosities, of
    which being quiet wins. -/
def callerLayer (given : Table) : Table :=
  let plain := given.filter fun (name, value) =>
    !value.isMissing && name ≠ "verbose" && name ≠ "quiet"
  let wished :=
    if isOn given "quiet" then some Verbosity.quiet
    else if isOn given "verbose" then some Verbosity.verbose
    else none
  plain ++ (wished.map fun v => (Setting.verbosity.name, Value.text v.name)).toList

/-- Puts the values of a table over those of another. -/
def overlay (lower upper : Table) : Table :=
  upper.foldl (fun table (name, value) => putLast name value table) lower

/-- The home folder: the one that a variable names, else the one that the accounts of the machine
    name. A tilde stands for a home folder itself, so no name begins with one. -/
def homeOf (d : Disk) (environment : Variables) : Option Path :=
  ((environment.lookup "HOME").or d.home).bind fun text =>
    let bare := (text.toList.reverse.dropWhile (· = '/')).reverse
    if bare.isEmpty then some (Path.bare .root)
    else if bare.head? = some '~' then none
    else some (Path.parse (String.ofList bare))

/-- The names of the documents in the home folder and in the working folder. -/
def homeDocument : String := ".orbyt.toml"
def projectDocument : String := "orbyt.toml"

/-- The layers from the first to the last. -/
def layers (d : Disk) (environment : Variables) (document : Option Path) (given : Table) :
    Except LoadProblem (List Table) := do
  let home ← (homeOf d environment).elim (.error .homeless) .ok
  let global ← optionalLayer d "global config" (home.join (Path.parse homeDocument))
  let project ← optionalLayer d "project config" (d.here.join (Path.parse projectDocument))
  let named ← namedLayer d document
  let ofVariables ← (variableLayer environment Setting.all).mapError .configuration
  return [global, project, named, ofVariables, callerLayer given]

/-- The settings that all layers together give. -/
def load (d : Disk) (environment : Variables) (document : Option Path) (given : Table) :
    Except LoadProblem Settings :=
  match layers d environment document given with
  | .error problem => .error problem
  | .ok all =>
    match ofTable (all.foldl overlay []) with
    | .ok settings => .ok settings
    | .error problem => .error ((problem.toProblem?.map .configuration).getD .tooLong)

end Settings

end RepoAtlas
