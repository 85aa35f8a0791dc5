import RepoAtlas.CommandLine.Command
import RepoAtlas.Explanation.Request
import RepoAtlas.Report
import RepoAtlas.Settings.Load
import RepoAtlas.Survey

/-! # Running commands

A command turns what surrounds the program into an outcome: what is printed, which file is written
and how the program ends. Problems that are known beforehand are reported; others stop the command.
-/

namespace RepoAtlas.CommandLine

open Console

/-- What surrounds the program. -/
structure Surroundings where
  disk : Disk
  machine : Machine
  environment : Variables
  /-- The language model. -/
  ask : String → Explanation.Reply
  printer : Printer
  /-- The width of the terminal. -/
  width : Nat

/-- What stops a command without a report. -/
inductive Crash where
  /-- A setting is a whole number of too many digits. -/
  | settings
  /-- No home folder is known. -/
  | homeless
  /-- It cannot be told what is at a path that the command needs. -/
  | access (problem : AccessProblem)
  | survey (problem : SurveyProblem)
  | payload (problem : PayloadProblem)

/-- Why a command does not end well. -/
inductive Halt where
  /-- Lines are printed, and that is all. -/
  | reported (lines : List String)
  | crashed (crash : Crash)

/-- A file that is written. -/
structure WrittenFile where
  path : Path
  text : String
  /-- Was there no such file before? -/
  isNew : Bool

/-- What a command does. -/
structure Effect where
  lines : List String
  written : Option WrittenFile

/-- How the program ends. -/
structure Outcome where
  exit : Nat
  output : String
  crash : Option Crash
  written : Option WrittenFile

/-- The version of the program. -/
def versionText : String := "0.1.0"

/-- The ends of a program: well, with a problem, used in a wrong way. -/
def Outcome.well : Nat := 0
def Outcome.problem : Nat := 1
def Outcome.misuse : Nat := 2

namespace Surroundings

/-- The lines of some markup. -/
def say (s : Surroundings) (markup : String) : List String := paragraph s.width (s.printer.text markup)

/-- The report of an error. -/
def errorLines (s : Surroundings) (message : String) : List String :=
  s.say ("[red]Error:[/red] " ++ s.printer.escape message)

/-- Stops with the report of a problem. -/
def report {α : Type} (s : Surroundings) (p : Problem) : Except Halt α :=
  .error (.reported (s.errorLines p.text))

/-- The settings for what the command line gives. -/
def settings (s : Surroundings) (config : Option Path) (given : Table) : Except Halt Settings :=
  match Settings.load s.disk s.environment config given with
  | .ok settings => .ok settings
  | .error (.configuration p) => s.report p
  | .error .tooLong => .error (.crashed .settings)
  | .error .homeless => .error (.crashed .homeless)
  | .error (.access p) => .error (.crashed (.access p))

/-- The graph of a folder; what is no folder is reported. -/
def graphOf (s : Surroundings) (path : Path) (settings : Settings) : Except Halt RepoGraph :=
  match s.disk.isFolder path with
  | .error p => .error (.crashed (.access p))
  | .ok false => s.report (.invalidPath path "not a directory")
  | .ok true =>
    match RepoGraph.survey s.disk s.machine settings (some path) with
    | .ok g => .ok g
    | .error p => .error (.crashed (.survey p))

/-- A value with a problem of its payload. -/
def payload {α : Type} : Except PayloadProblem α → Except Halt α
  | .ok a => .ok a
  | .error p => .error (.crashed (.payload p))

/-- A value that sets nothing if it is missing. -/
def optional (v : Option Value) : Value := v.getD .none

/-- The settings that a way of counting, and the wishes to see more or less, stand for. -/
def commonGiven (churn : Option History.ChurnMode) (verbose quiet : Bool) : Table :=
  [(Setting.churnMode.name, optional (churn.map fun mode => .text mode.name)),
   ("verbose", .bool verbose), ("quiet", .bool quiet)]

/-- A flag that sets a value when it is given. -/
def flagGiven (setting : Setting) (given value : Bool) : Table :=
  if given then [(setting.name, .bool value)] else []

/-- The lines of a text that is printed as it is. -/
def echo (text : String) : List String := Text.split '\n' text

/-- Prints the graph or writes it to a file. -/
def runGraph (s : Surroundings) (r : GraphRequest) (verbose quiet : Bool) : Except Halt Effect := do
  let settings ← s.settings r.config
    (commonGiven r.churn verbose quiet ++ flagGiven .includeFolders r.noFolders false ++
      flagGiven .relativeFirst r.relativeFirst true)
  let g ← s.graphOf r.path settings
  let text ← payload (g.render (some 2))
  match r.output with
  | none => return { lines := echo text, written := none }
  | some output =>
    match s.disk.placeOf output with
    | .error p => throw (.reported (s.errorLines (p.message output)))
    | .ok place =>
      let lines := s.say ("Wrote [bold]" ++ toString g.stats.totalFiles ++
        "[/bold] files to [cyan]" ++ s.printer.escape output.text ++ "[/cyan]")
      return { lines
               written := some { path := Path.parse ("/" ++ Path.joined place), text := text ++ "\n"
                                 isNew := !(s.disk.find output).isOk } }

/-- Prints the summary of a graph, as JSON or as a report. -/
def runStats (s : Surroundings) (r : StatsRequest) (verbose quiet : Bool) : Except Halt Effect := do
  let settings ← s.settings r.config
    (commonGiven r.churn verbose quiet ++ [(Setting.topN.name, optional (r.top.map .int))])
  let g ← s.graphOf r.path settings
  if r.json then
    let json ← payload g.stats.toJson
    let text ← payload (json.rendered true (some 2))
    return { lines := echo text, written := none }
  else return { lines := Report.ofGraph s.printer g Report.usualClusters s.width, written := none }

/-- Prints the path behind a node. Nodes do not depend on histories. -/
def runLocate (s : Surroundings) (r : LocateRequest) : Except Halt Effect := do
  let settings ← s.settings r.config (commonGiven (some .off) false true)
  let g ← s.graphOf r.path settings
  match g.nodePath? r.node with
  | some path => return { lines := echo path, written := none }
  | none =>
    throw (.reported (s.say ("[yellow]No node with id '" ++ s.printer.escape r.node ++
      "'.[/yellow]")))

/-- How many characters of a file are sent. That has to be whole once something is sent. -/
def boundOf (settings : Settings) (key : Option String) : Except Halt Int :=
  match settings.explainMaxChars.whole? with
  | some bound => .ok bound
  | none =>
    if key.isSome then .error (.crashed (.survey (.misfit .explainMaxChars)))
    else .ok Explanation.usualBound

/-- Prints the explanation of a file; as it is, if it has none of the tiers for readers who know
    something. -/
def runExplain (s : Surroundings) (r : ExplainRequest) : Except Halt Effect := do
  let settings ← s.settings r.config
    [(Setting.explainModel.name, optional (r.model.map .text))]
  match s.disk.readSource r.file with
  | .error p => s.report p
  | .ok source =>
    let key := Explanation.keyOf? none s.environment
    let bound ← boundOf settings key
    let text := Explanation.explain s.ask key bound r.file source
    let e := Explanation.ofText text
    if r.raw || (e.intermediate = "" && e.technical = "") then
      return { lines := echo text, written := none }
    else return { lines := Report.ofExplanation s.printer r.file.name e s.width, written := none }

/-- What a command does. -/
def perform (s : Surroundings) : Command → Except Halt Effect
  | .version =>
    .ok { lines := s.say ("[bold cyan]Orbyt[/bold cyan] version [green]" ++ versionText ++
            "[/green]")
          written := none }
  | .help => .ok { lines := [], written := none }
  | .graph r verbose quiet => s.runGraph r verbose quiet
  | .stats r verbose quiet => s.runStats r verbose quiet
  | .locate r => s.runLocate r
  | .explain r => s.runExplain r

/-- Lines with their ends. -/
def joined (lines : List String) : String := String.join (lines.map (· ++ "\n"))

/-- The outcome of a command line. -/
def run (s : Surroundings) (words : List String) : Outcome :=
  match Command.ofWords? s.disk words with
  | none => { exit := Outcome.misuse, output := "", crash := none, written := none }
  | some command =>
    match s.perform command with
    | .ok effect =>
      { exit := Outcome.well, output := joined effect.lines, crash := none
        written := effect.written }
    | .error (.reported lines) =>
      { exit := Outcome.problem, output := joined lines, crash := none, written := none }
    | .error (.crashed crash) =>
      { exit := Outcome.problem, output := "", crash := some crash, written := none }

end Surroundings

end RepoAtlas.CommandLine
