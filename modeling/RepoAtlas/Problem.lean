import RepoAtlas.Path

/-! # Reported problems

What a caller is told when something cannot be done. A problem has a message and named details, and
belongs to a family of problems.
-/

namespace RepoAtlas

/-- The families of problems. -/
inductive ProblemFamily where
  | any
  | analysis
  | fileAccess
  | parsing
  | configuration
  | invalidPath
  | invalidSetting
  deriving DecidableEq, Repr

/-- The family that a family belongs to. -/
def ProblemFamily.parent? : ProblemFamily → Option ProblemFamily
  | .any => none
  | .analysis => some .any
  | .configuration => some .any
  | .fileAccess => some .analysis
  | .parsing => some .analysis
  | .invalidPath => some .configuration
  | .invalidSetting => some .configuration

/-- The families that a family belongs to, nearest first. -/
def ProblemFamily.ancestors (f : ProblemFamily) : List ProblemFamily :=
  match f.parent? with
  | none => []
  | some parent => parent :: parent.parent?.toList

/-- A problem. -/
inductive Problem where
  | any (message : String) (details : List (String × String))
  | analysis (message : String) (details : List (String × String))
  | configuration (message : String) (details : List (String × String))
  /-- A file cannot be opened or read. -/
  | fileAccess (path : Path) (reason : String)
  /-- The text of a file is not of its language. -/
  | parsing (path : Path) (language reason : String)
  /-- A path is not what it has to be. -/
  | invalidPath (path : Path) (reason : String)
  /-- A setting has a value that it cannot have. -/
  | invalidSetting (key value reason : String)
  deriving DecidableEq

namespace Problem

/-- The family of a problem. -/
def family : Problem → ProblemFamily
  | .any _ _ => .any
  | .analysis _ _ => .analysis
  | .configuration _ _ => .configuration
  | .fileAccess _ _ => .fileAccess
  | .parsing _ _ _ => .parsing
  | .invalidPath _ _ => .invalidPath
  | .invalidSetting _ _ _ => .invalidSetting

/-- What happened. -/
def message : Problem → String
  | .any message _ => message
  | .analysis message _ => message
  | .configuration message _ => message
  | .fileAccess path _ => "Cannot access file: " ++ path.text
  | .parsing path language _ => "Failed to parse " ++ language ++ " file: " ++ path.text
  | .invalidPath path _ => "Invalid path: " ++ path.text
  | .invalidSetting key value _ => "Invalid configuration for " ++ key ++ ": " ++ value

/-- Where and why it happened. -/
def details : Problem → List (String × String)
  | .any _ details => details
  | .analysis _ details => details
  | .configuration _ details => details
  | .fileAccess path reason => [("filepath", path.text), ("reason", reason)]
  | .parsing path language reason =>
    [("filepath", path.text), ("language", language), ("reason", reason)]
  | .invalidPath path reason => [("path", path.text), ("reason", reason)]
  | .invalidSetting key value reason => [("key", key), ("value", value), ("reason", reason)]

/-- The message with the details behind it, if there are any. -/
def text (p : Problem) : String :=
  if p.details.isEmpty then p.message
  else
    p.message ++ " (" ++ ", ".intercalate (p.details.map fun (key, value) => key ++ "=" ++ value) ++
      ")"

end Problem

end RepoAtlas
