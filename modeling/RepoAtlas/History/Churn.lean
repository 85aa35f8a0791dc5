import RepoAtlas.History.Call

/-! # Churn

How often files were changed, by one of two ways of asking git, or not at all. Files without history
are absent.
-/

namespace RepoAtlas.History

/-- How commits are counted. -/
inductive ChurnMode where
  /-- By one log of the whole working tree. -/
  | history
  /-- By one question for each file. -/
  | perFile
  | off
  deriving DecidableEq, Repr

namespace ChurnMode

/-- The name of a mode in settings. -/
def name : ChurnMode → String
  | .history => "history"
  | .perFile => "per_file"
  | .off => "off"

/-- All modes. -/
def all : List ChurnMode := [.history, .perFile, .off]

/-- The mode of a name. -/
def ofName? (name : String) : Option ChurnMode := all.find? (·.name == name)

end ChurnMode

/-- The commits of files in a folder and the questions that were needed to count them. -/
def collect (disk : Disk) (git : Git) (patience workers : Amount) (folder : Path) (files : List Path)
    (mode : ChurnMode) : Except Trouble (Counts × List Question) :=
  if mode = .off || files.isEmpty then .ok ([], [])
  else
    match disk.resolve folder with
    | .error problem => .error (.unresolvable problem)
    | .ok place =>
      let session := Session.start disk git patience workers place
      let (counts, session) :=
        if mode = .perFile then session.perFileCounts files else session.historyCounts files
      counts.map (·, session.asked)

end RepoAtlas.History
