import RepoAtlas.Graph.Builder
import RepoAtlas.Graph.Payload
import RepoAtlas.History.Churn
import RepoAtlas.Index
import RepoAtlas.Problem
import RepoAtlas.Scan
import RepoAtlas.Scanned
import RepoAtlas.Settings.Basic

/-! # Surveying a repository

The whole way from a folder to its graph: files are listed, their commits are counted, each file is
read once, specifiers are resolved among the files that could be read, and nodes, edges and summary
are put together. Files that cannot be read leave no trace. How scripts are parsed, what the lines of
an ignore file mean and what git replies is up to the machine.
-/

namespace RepoAtlas

/-- What reads scripts and what compiles ignore files. -/
structure Tools where
  reader : Script.Reader
  compile : Ignore.Compiler

/-- The tools of this library. -/
def Tools.builtIn : Tools := { reader := .ofGrammar, compile := Ignore.compile }

/-- What a survey goes by besides a disk and settings. -/
structure Machine extends Tools where
  git : History.Git
  /-- How many processors there are, if that is known. -/
  processors : Option Nat

/-- Why a repository cannot be surveyed. -/
inductive SurveyProblem where
  /-- It cannot be told where a path leads. -/
  | path (problem : PathProblem)
  | ignore (problem : IgnoreProblem)
  /-- A setting has a value of a kind that is of no use where it is needed. -/
  | misfit (setting : Setting)
  /-- Commits cannot be counted. -/
  | counting (trouble : History.Trouble)
  /-- A file has no place below the root. -/
  | misplaced (problem : BuildProblem)

namespace Disk

/-- The text of a source file. -/
def readSource (d : Disk) (path : Path) : Except Problem String :=
  match d.text path with
  | .ok text => .ok text
  | .error problem => .error (.fileAccess path ("Cannot read file: " ++ problem.message path))

/-- The files that can be read, with their metrics and specifiers. -/
def readFiles (d : Disk) (reader : Script.Reader) (commits : History.Counts) (files : List Path) :
    List ScannedFile :=
  files.filterMap fun path =>
    match d.readSource path with
    | .ok text => some (ScannedFile.ofText reader path text ((commits.lookup path).getD 0))
    | .error _ => none

end Disk

namespace Survey

/-- The ignore rules that the settings ask for. -/
def rules (d : Disk) (compile : Ignore.Compiler) (settings : Settings) (root : Path) :
    Except SurveyProblem (Option (String → Bool)) :=
  if settings.respectIgnoreFile.isYes then
    match settings.ignoreFile with
    | .text name => (d.ignoreRules compile root name).mapError .ignore
    | _ => .error (.misfit .ignoreFile)
  else .ok none

/-- The names among the excluded ones. Lists and tables are no members of a set. -/
def excludedNames (excluded : List Value) : Except SurveyProblem (List String) :=
  if excluded.any (·.hasParts) then .error (.misfit .excludedDirs)
  else .ok (excluded.filterMap (·.text?))

/-- The listed files of a root without links. -/
def files (d : Disk) (compile : Ignore.Compiler) (settings : Settings) (root : Path) :
    Except SurveyProblem (List Path) := do
  let rules ← rules d compile settings root
  let excluded ← excludedNames settings.excludedDirs
  let selection : Selection :=
    { extensions := settings.extensions, excluded, ignored := Ignore.ignoredBy rules }
  (d.scan root selection).mapError .path

/-- The commits of the listed files. -/
def counts (d : Disk) (machine : Machine) (settings : Settings) (root : Path) (files : List Path) :
    Except History.Trouble History.Counts :=
  (History.collect d machine.git settings.gitTimeoutSeconds
    (settings.effectiveWorkers machine.processors) root files settings.churnMode).map (·.1)

/-- The summary; the bound on the most edited files has to be whole if there are files. -/
def summary (settings : Settings) (store : Store) : Except SurveyProblem Stats :=
  match settings.topN.whole? with
  | some top => .ok (Stats.ofStore store top)
  | none => if store.files.isEmpty then .ok Stats.empty else .error (.misfit .topN)

/-- The graph of files that were read. -/
def graphOf (settings : Settings) (root : Path) (scanned : List ScannedFile) :
    Except SurveyProblem RepoGraph := do
  let index := Index.ofPaths (scanned.map (·.path))
  let imports := resolveAll index settings.relativeFirst.isYes
    (scanned.map fun file => (file.path, file.specifiers))
  match Store.build root settings.includeFolders.isYes scanned imports with
  | .error problem => throw (.misplaced problem)
  | .ok store =>
    let stats ← summary settings store
    return { root := some root, store, stats }

/-- The graph of a root without links. -/
def graphAt (d : Disk) (machine : Machine) (settings : Settings) (root : Path) :
    Except SurveyProblem RepoGraph := do
  let files ← files d machine.compile settings root
  let commits ← (counts d machine settings root files).mapError .counting
  graphOf settings root (d.readFiles machine.reader commits files)

end Survey

/-- The graph of a folder; the empty graph if there is no such folder. -/
def RepoGraph.survey (d : Disk) (machine : Machine) (settings : Settings) (folder : Option Path) :
    Except SurveyProblem RepoGraph :=
  match folder with
  | none => .ok RepoGraph.empty
  | some folder =>
    match d.isFolder folder with
    | .error problem => .error (.path (.access problem))
    | .ok false => .ok RepoGraph.empty
    | .ok true =>
      match d.resolve folder with
      | .error problem => .error (.path (.unresolvable problem))
      | .ok root => Survey.graphAt d machine settings root

end RepoAtlas
