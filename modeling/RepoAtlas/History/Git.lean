import RepoAtlas.Amount
import RepoAtlas.Path

/-! # Questions to git

Everything that is asked of git, with the command that asks it, and what may come back. How git
behaves is a function from the questions asked before and the new question to the reply, so that it
may answer the same question differently each time. Some questions are refused before git has its
say: no command holds a NUL, and a wait has to be a number that is not too large.
-/

namespace RepoAtlas.History

/-- What is asked, and in which folder. -/
inductive Question where
  /-- The root of the working tree that holds a folder. -/
  | toplevel (folder : Path)
  /-- The log of a whole working tree with the names of the files that each commit touches. -/
  | log (top : Path)
  /-- The commits that touch one file. -/
  | commitsOf (folder file : Path)
  deriving DecidableEq

namespace Question

/-- The command that asks. -/
def command : Question → List String
  | .toplevel folder => ["git", "-C", folder.text, "rev-parse", "--show-toplevel"]
  | .log top =>
    ["git", "-C", top.text, "log", "-z", "--format=commit:%H", "--name-only", "--no-renames",
      "--diff-merges=combined"]
  | .commitsOf folder file => ["git", "-C", folder.text, "log", "--format=%H", "--", file.text]

/-- How many times the configured patience a question may take. The log of everything takes
    longest. -/
def patience : Question → Nat
  | .log _ => 6
  | _ => 1

end Question

/-- What comes back. -/
inductive Reply where
  | finished (code : Int) (out : String)
  | timedOut
  | missing
  deriving DecidableEq, Repr

/-- The text of a reply that succeeded. -/
def Reply.text? : Reply → Option String
  | .finished code out => if code = 0 then some out else none
  | _ => none

/-- Why a question is refused. -/
inductive Refusal where
  /-- A NUL stands in a word of the command. -/
  | nul
  /-- The time to wait is no number. -/
  | noNumber
  /-- The time to wait is more than can be counted. -/
  | tooLong
  deriving DecidableEq, Repr

/-- How many milliseconds can be waited. -/
def longestWait : Nat := 2147483647

/-- What is wrong with a wait of so many times an amount of seconds. -/
def waitProblem? (times : Nat) : Amount → Option Refusal
  | .flag _ => none
  | .whole n => if longestWait < n * times * 1000 then some .tooLong else none
  | .real x =>
    let wait := x * Float.ofNat times * 1000.0
    if wait.isNaN then some .noNumber
    else if Float.ofNat longestWait < wait then some .tooLong
    else none

/-- How git behaves. -/
structure Git where
  /-- Is there a git at all? -/
  installed : Bool
  reply : List Question → Question → Reply

namespace Git

/-- No git. -/
def absent : Git := { installed := false, reply := fun _ _ => .missing }

/-- What a question comes to with so much patience: the text of a reply that succeeded, nothing for
    other replies. There is no wait for a git that cannot be started. -/
def answer (git : Git) (patience : Amount) (asked : List Question) (q : Question) :
    Except Refusal (Option String) :=
  if q.command.any (·.toList.contains '\x00') then .error .nul
  else
    match git.reply asked q with
    | .missing => .ok none
    | reply =>
      match waitProblem? q.patience patience with
      | some refusal => .error refusal
      | none => .ok reply.text?

end Git

end RepoAtlas.History
