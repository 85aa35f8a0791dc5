import RepoAtlas.Disk.Access
import RepoAtlas.History.Git
import RepoAtlas.History.Log

/-! # Counting commits

A session asks git about one folder. It asks for the root of the working tree once and for the
commits of each file once; later answers are those of the first time. A question that fails counts
as no commits. A question that is refused stops the call that needed it, and so does a root that
cannot be resolved; the session goes on.
-/

namespace RepoAtlas.History

/-- The number of commits by path. -/
abbrev Counts := List (Path × Int)

/-- What is wrong with the number of questions that are asked at once. -/
inductive PoolProblem where
  /-- None is asked at all. -/
  | empty
  /-- It is no number: none is ever asked, and the answers are waited for. -/
  | endless
  deriving DecidableEq, Repr

/-- What is wrong with so many questions at once. -/
def poolProblem? : Amount → Option PoolProblem
  | .flag b => if b then none else some .empty
  | .whole n => if n ≤ 0 then some .empty else none
  | .real x => if x.isNaN then some .endless else if x ≤ 0.0 then some .empty else none

/-- What stops a call. -/
inductive Trouble where
  /-- The folder that is asked about, or the root that git names for it, cannot be resolved. -/
  | unresolvable (problem : Unresolvable)
  | refused (refusal : Refusal)
  | pool (problem : PoolProblem)
  deriving DecidableEq, Repr

/-- What a session knows. -/
structure Session where
  disk : Disk
  git : Git
  /-- How many seconds a question may take. -/
  patience : Amount
  /-- How many questions are asked at once. -/
  workers : Amount
  /-- The folder that is asked about, without links. -/
  folder : Path
  /-- The root of the working tree; the outer option tells whether it was asked for. -/
  top : Option (Option Path)
  /-- The counts of single files that were asked for. -/
  known : Counts
  /-- The questions that git had its say on so far, oldest first. -/
  asked : List Question

namespace Session

/-- A session about a folder without links. -/
def start (disk : Disk) (git : Git) (patience workers : Amount) (folder : Path) : Session :=
  { disk, git, patience, workers, folder, top := none, known := [], asked := [] }

/-- Asks one question. A refused question leaves no trace. -/
def ask (s : Session) (q : Question) : Except Trouble (Option String) × Session :=
  match s.git.answer s.patience s.asked q with
  | .ok reply => (.ok reply, { s with asked := s.asked ++ [q] })
  | .error refusal => (.error (.refused refusal), s)

/-- The root of the working tree that a reply names. -/
def topOf (disk : Disk) (reply : Option String) : Except Trouble (Option Path) :=
  match reply with
  | some out =>
    let text := Text.strip out
    if text = "" then .ok none
    else
      match disk.resolve (Path.parse text) with
      | .ok top => .ok (some top)
      | .error problem => .error (.unresolvable problem)
  | none => .ok none

/-- The root of the working tree, if there is one. Whatever comes of it, it is not asked for
    again. -/
def toplevel (s : Session) : Except Trouble (Option Path) × Session :=
  match s.top with
  | some top => (.ok top, s)
  | none =>
    let s := { s with top := some none }
    if s.git.installed then
      match s.ask (.toplevel s.folder) with
      | (.error trouble, s) => (.error trouble, s)
      | (.ok reply, s) =>
        match topOf s.disk reply with
        | .error trouble => (.error trouble, s)
        | .ok top => (.ok top, { s with top := some top })
    else (.ok none, s)

/-- The counts of the wanted files by what the log says. -/
def countsOf (top : Path) (wanted : List Path) (touches : Touches) : Counts :=
  touches.foldl (fun counts (name, commits) =>
    let path := top.join (Path.parse name)
    if wanted.contains path then putLast path (commits.length : Int) counts else counts) []

/-- The counts of files by the log of the whole working tree. -/
def historyCounts (s : Session) (files : List Path) : Except Trouble Counts × Session :=
  match s.toplevel with
  | (.error trouble, s) => (.error trouble, s)
  | (.ok none, s) => (.ok [], s)
  | (.ok (some top), s) =>
    if files.isEmpty then (.ok [], s)
    else
      match s.ask (.log top) with
      | (.error trouble, s) => (.error trouble, s)
      | (.ok reply, s) => (.ok ((reply.map fun log => countsOf top files (ofLog log)).getD []), s)

/-- The number of different lines that are not blank. -/
def countLines (out : String) : Int :=
  (((Text.lines out).filter fun line => !Text.isBlankText line).eraseDups.length : Int)

/-- The number of commits that touch a file. -/
def fileCount (s : Session) (file : Path) : Except Trouble Int × Session :=
  match s.known.lookup file with
  | some count => (.ok count, s)
  | none =>
    match s.ask (.commitsOf s.folder file) with
    | (.error trouble, s) => (.error trouble, s)
    | (.ok reply, s) =>
      let count := (reply.map countLines).getD 0
      (.ok count, { s with known := putLast file count s.known })

/-- The counts of the files one after the other, up to the first that cannot be asked about. -/
def fileCounts (s : Session) : List Path → Except Trouble Counts × Session
  | [] => (.ok [], s)
  | file :: rest =>
    match s.fileCount file with
    | (.error trouble, s) => (.error trouble, s)
    | (.ok count, s) =>
      match fileCounts s rest with
      | (.error trouble, s) => (.error trouble, s)
      | (.ok counts, s) => (.ok ((file, count) :: counts), s)

/-- The counts that are not zero, by file. -/
def positives (counts : Counts) : Counts :=
  (counts.filter fun (_, count) => 0 < count).foldl
    (fun counts (file, count) => putLast file count counts) []

/-- The counts of files by one question each; files without commits are left out. -/
def perFileCounts (s : Session) (files : List Path) : Except Trouble Counts × Session :=
  match s.toplevel with
  | (.error trouble, s) => (.error trouble, s)
  | (.ok none, s) => (.ok [], s)
  | (.ok (some _), s) =>
    if files.isEmpty then (.ok [], s)
    else
      match poolProblem? s.workers with
      | some problem => (.error (.pool problem), s)
      | none =>
        match s.fileCounts files with
        | (.error trouble, s) => (.error trouble, s)
        | (.ok counts, s) => (.ok (positives counts), s)

end Session

end RepoAtlas.History
