import RepoAtlas.CommandLine.Run

/-! # The program

Brings what surrounds a command line into a value, runs it, and carries out what it asks for. First
only what lies on the way to the words of the command line is read; once the command is known,
everything below the path that it is about. No other program is started and nothing is sent
anywhere, so files have no history and explanations fail.
-/

namespace RepoAtlas.Program

open CommandLine

/-- How deep folders are read. -/
def mostDepth : Nat := 256

/-- The text of a place. -/
def placeText (place : List String) : String := "/" ++ Path.joined place

/-- The name in a folder. -/
def itemAt (folder : List String) (name : String) : IO.FS.DirEntry :=
  { root := placeText folder, fileName := name }

/-- The bytes of a file. -/
def readFile (item : IO.FS.DirEntry) : IO Entry := do
  try return .file (← IO.FS.readBinFile item.path).toList true
  catch _ => return .file [] false

/-- The place that a link leads to, or a place where nothing is. -/
def readLink (item : IO.FS.DirEntry) : IO Entry := do
  try return .link (← IO.FS.realPath item.path).toString
  catch _ => return .link (item.path.toString ++ "/missing")

/-- What a name stands for, with everything below it. Folders that are never surveyed unless they
    are asked for are left empty. -/
def readEntry : Nat → IO.FS.DirEntry → IO Entry
  | 0, _ => return .folder [] .full
  | depth + 1, item => do
    match (← item.path.symlinkMetadata).type with
    | .file => readFile item
    | .symlink => readLink item
    | .other => return .other
    | .dir =>
      try
        let entries ← (← item.path.readDir).toList.mapM fun inner => do
          if Language.excludedDirectories.contains inner.fileName then
            return (inner.fileName, ← readEntry 0 inner)
          else return (inner.fileName, ← readEntry depth inner)
        return .folder entries .full
      catch _ => return .folder [] .unlisted

/-- Puts what lies on the way of names from a folder among entries, and what is at its end as deep
    as is said. -/
def readWay (depth links : Nat) (reached todo : List String) (entries : Entries) : IO Entries :=
  match todo with
  | [] => return entries
  | ".." :: rest => readWay depth links reached.dropLast rest entries
  | name :: rest => do
    let place := reached ++ [name]
    let item := itemAt reached name
    try
      match (← item.path.symlinkMetadata).type with
      | .symlink =>
        let entry ← readLink item
        match links, entry with
        | links + 1, .link target =>
          readWay depth links [] ((Path.parse target).parts ++ rest)
            (Entries.insert entry place entries)
        | _, _ => return Entries.insert entry place entries
      | .dir =>
        let entry ← readEntry (if rest.isEmpty then depth else 0) item
        readWay depth links place rest (Entries.insert entry place entries)
      | _ => return Entries.insert (← readEntry 1 item) place entries
    catch _ => return entries
termination_by (links, todo.length)

/-- Reads what a path of a disk leads to. -/
def readPath (depth : Nat) (d : Disk) (path : Path) : IO Disk := do
  return { d with entries := ← readWay depth Disk.mostLinks [] (d.absolute path).parts d.entries }

/-- The paths that a word of the command line may stand for: all of it, the value behind its equals
    sign, and the value behind its letter. -/
def pathsOf (word : String) : List Path :=
  let cs := word.toList
  let values := if cs.head? = some '-' then [(cs.dropWhile (· != '=')).drop 1, cs.drop 2] else [cs]
  (values.filter (!·.isEmpty)).map fun value => Path.parse (String.ofList value)

/-- The path that a command is about. -/
def subjectOf : Command → Option Path
  | .graph request _ _ => some request.path
  | .stats request _ _ => some request.path
  | .locate request => some request.path
  | .explain request => some request.file
  | .version | .help => none

/-- The variables of the environment that are of use. -/
def readVariables : IO Variables := do
  let names := "HOME" :: Explanation.keyVariable :: Setting.all.map (·.variableName)
  let found ← names.mapM fun name => do return (← IO.getEnv name).map ((name, ·))
  return found.filterMap id

/-- The width of a terminal of unknown width. -/
def usualWidth : Nat := 80

/-- What surrounds the program. -/
def readSurroundings (words : List String) : IO Surroundings := do
  let environment ← readVariables
  let here := Path.parse (← IO.currentDir).toString
  let documents :=
    (Settings.homeOf Disk.empty environment).toList.map (·.join (Path.parse Settings.homeDocument)) ++
      [Path.parse Settings.projectDocument]
  let shallow ← (documents ++ words.flatMap pathsOf).foldlM (readPath 0) { Disk.empty with here }
  let subject := (Command.ofWords? shallow words).bind subjectOf
  let disk ← subject.toList.foldlM (readPath mostDepth) shallow
  let width := ((← IO.getEnv "COLUMNS").bind (·.toNat?)).getD usualWidth
  let machine : Machine := { Tools.builtIn with git := .absent, processors := none }
  return { disk, machine, environment, width, printer := .plain
           ask := fun _ => .failed "no network" }

/-- What is said of a path that leads nowhere. -/
def unresolvableText : Unresolvable → String
  | .nul => "A path holds a NUL"
  | .loop => "A path leads into a loop of links"

/-- What is said of a survey that failed. -/
def surveyText : SurveyProblem → String
  | .path (.access problem) => problem.reason
  | .path (.unresolvable problem) => unresolvableText problem
  | .ignore (.access problem) => problem.reason
  | .ignore (.rule problem) => problem.message
  | .misfit setting => "Setting '" ++ setting.name ++ "' has a value of no use"
  | .counting (.unresolvable problem) => unresolvableText problem
  | .counting _ => "Commits cannot be counted with these settings"
  | .misplaced _ => "A file has no place in the graph"

/-- What is said of a command that was stopped. -/
def crashText : Crash → String
  | .settings => SettingsProblem.tooLong.message
  | .homeless => "Could not determine home directory."
  | .access problem => problem.reason
  | .survey problem => surveyText problem
  | .payload _ => "The graph cannot be written"

/-- Carries out an outcome. -/
def carryOut (outcome : Outcome) : IO UInt32 := do
  if let some file := outcome.written then IO.FS.writeFile file.path.text file.text
  IO.print outcome.output
  if let some crash := outcome.crash then IO.eprintln (crashText crash)
  return outcome.exit.toUInt32

end RepoAtlas.Program

/-- Runs the words of a command line. -/
def main (words : List String) : IO UInt32 := do
  RepoAtlas.Program.carryOut ((← RepoAtlas.Program.readSurroundings words).run words)
