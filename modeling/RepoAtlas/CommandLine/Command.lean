import RepoAtlas.CommandLine.Switch
import RepoAtlas.Decimal.Read
import RepoAtlas.Disk.Access
import RepoAtlas.History.Churn

/-! # Commands

What a command line asks for. Values are checked as they are read: a configuration has to be a file,
an output no folder, a number of files one at least, a way of counting commits one of the known
ones. A command line that asks for nothing is a wrong use.
-/

namespace RepoAtlas.CommandLine

/-- What is asked of a graph. -/
structure GraphRequest where
  path : Path
  output : Option Path
  noFolders : Bool
  relativeFirst : Bool
  churn : Option History.ChurnMode
  config : Option Path
  deriving DecidableEq

/-- What is asked of a summary. -/
structure StatsRequest where
  path : Path
  top : Option Int
  json : Bool
  churn : Option History.ChurnMode
  config : Option Path
  deriving DecidableEq

/-- What is asked of a node. -/
structure LocateRequest where
  path : Path
  node : String
  config : Option Path
  deriving DecidableEq

/-- What is asked of a file. -/
structure ExplainRequest where
  file : Path
  model : Option String
  raw : Bool
  config : Option Path
  deriving DecidableEq

/-- What a command line asks for. -/
inductive Command where
  | version
  | help
  | graph (request : GraphRequest) (verbose quiet : Bool)
  | stats (request : StatsRequest) (verbose quiet : Bool)
  | locate (request : LocateRequest)
  | explain (request : ExplainRequest)

/-- The letters that a ligature or an old form of a letter stands for. -/
def foldedLetters (c : Char) : List Char :=
  match c with
  | 'ſ' => ['s']
  | 'ﬀ' => ['f', 'f']
  | 'ﬁ' => ['f', 'i']
  | 'ﬅ' => ['s', 't']
  | 'ﬆ' => ['s', 't']
  | c => [c.toLower]

/-- The way of counting commits that a word names, in any case. -/
def churnOf? (word : String) : Option History.ChurnMode :=
  History.ChurnMode.ofName? (String.ofList (word.toList.flatMap foldedLetters))

/-- The value of a switch that may be missing, if it is as it has to be. -/
def checked {α : Type} (g : Given) (s : Switch) (read? : String → Option α) :
    Option (Option α) :=
  match g.value? s with
  | none => some none
  | some word => (read? word).map some

/-- A configuration: a file that exists. -/
def configOf? (d : Disk) (word : String) : Option Path :=
  if word = "" then none
  else
    let path := Path.parse word
    match d.find path with
    | .ok (_, .folder _ _) => none
    | .ok _ => some path
    | .error _ => none

/-- An output: anything but a folder. -/
def outputOf? (d : Disk) (word : String) : Option Path :=
  let path := Path.parse word
  match d.find path with
  | .ok (_, .folder _ _) => if word = "" then some path else none
  | _ => some path

/-- A number of files: one at least. -/
def topOf? (word : String) : Option Int :=
  match Decimal.readWhole word with
  | .ok n => if n < 1 then none else some n
  | .error _ => none

/-- The path of a word that may be left out: then it is the working folder. -/
def placeOf : List String → Option Path
  | [] => some (Path.parse ".")
  | [word] => some (Path.parse word)
  | _ => none

namespace Command

/-- The graph that is asked for. -/
def graphOf? (d : Disk) (words : List String) : Option Command := do
  let known := [.output, .noFolders, .relativeFirst, .churn, .config, .verbose, .quiet, .help]
  let g ← read known true words
  if g.has .help then return .help
  let output ← checked g .output (outputOf? d)
  let churn ← checked g .churn churnOf?
  let config ← checked g .config (configOf? d)
  let path ← placeOf g.words
  return .graph
    { path, output, noFolders := g.has .noFolders, relativeFirst := g.has .relativeFirst, churn
      config } (g.has .verbose) (g.has .quiet)

/-- The summary that is asked for. -/
def statsOf? (d : Disk) (words : List String) : Option Command := do
  let g ← read [.top, .json, .churn, .config, .verbose, .quiet, .help] true words
  if g.has .help then return .help
  let top ← checked g .top topOf?
  let churn ← checked g .churn churnOf?
  let config ← checked g .config (configOf? d)
  let path ← placeOf g.words
  return .stats { path, top, json := g.has .json, churn, config } (g.has .verbose) (g.has .quiet)

/-- The node that is asked for. -/
def locateOf? (d : Disk) (words : List String) : Option Command := do
  let g ← read [.config, .help] true words
  if g.has .help then return .help
  let config ← checked g .config (configOf? d)
  match g.words with
  | [path, node] => return .locate { path := Path.parse path, node, config }
  | _ => none

/-- The file that is asked for. -/
def explainOf? (d : Disk) (words : List String) : Option Command := do
  let g ← read [.model, .raw, .config, .help] true words
  if g.has .help then return .help
  let config ← checked g .config (configOf? d)
  match g.words with
  | [file] =>
    return .explain
      { file := Path.parse file, model := g.value? .model, raw := g.has .raw, config }
  | _ => none

/-- The command of a name with its words. -/
def named? (d : Disk) (name : String) (words : List String) : Option Command :=
  match name with
  | "graph" => graphOf? d words
  | "stats" => statsOf? d words
  | "locate" => locateOf? d words
  | "explain" => explainOf? d words
  | _ => none

/-- The switches that stand in front of commands. -/
def generalSwitches : List Switch := [.version, .help]

/-- The version or help, whichever is asked for first. -/
def general? (g : Given) : Option Command :=
  match g.switches with
  | (.version, _) :: _ => some .version
  | (.help, _) :: _ => some .help
  | _ => none

/-- What a command line asks for, if anything. The version and help go before commands, even behind
    two dashes. -/
def ofWords? (d : Disk) (words : List String) : Option Command := do
  let g ← read generalSwitches false words
  match general? g with
  | some command => return command
  | none =>
    match g.words with
    | [] => none
    | name :: rest =>
      (named? d name rest).or ((read generalSwitches false (name :: rest)).bind general?)

end Command

end RepoAtlas.CommandLine
