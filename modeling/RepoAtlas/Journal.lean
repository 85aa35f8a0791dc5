import RepoAtlas.Text.Split

/-! # Records of what happens

Records have a level and the name of their origin. A journal keeps those of its own level and above;
in a file each is one line.
-/

namespace RepoAtlas

/-- How grave a record is. -/
inductive Level where
  | debug
  | info
  | warning
  | error
  | critical
  deriving DecidableEq, Repr

namespace Level

/-- The rank of a level. -/
def rank : Level → Nat
  | .debug => 10
  | .info => 20
  | .warning => 30
  | .error => 40
  | .critical => 50

/-- The name of a level in records. -/
def name : Level → String
  | .debug => "DEBUG"
  | .info => "INFO"
  | .warning => "WARNING"
  | .error => "ERROR"
  | .critical => "CRITICAL"

/-- All levels. -/
def all : List Level := [.debug, .info, .warning, .error, .critical]

/-- The level of a name. -/
def ofName? (name : String) : Option Level := all.find? (·.name == name)

end Level

/-- Where records go: to the terminal, and to a file if there is one. -/
structure Journal where
  threshold : Level
  hasFile : Bool
  deriving DecidableEq, Repr

/-- A record. -/
structure Record where
  origin : String
  level : Level
  text : String
  deriving DecidableEq, Repr

namespace Journal

/-- The journal for two wishes, of which quiet wins. -/
def ofWishes (verbose quiet hasFile : Bool) : Journal :=
  { threshold := if quiet then .error else if verbose then .debug else .warning, hasFile }

/-- How many places records go to. -/
def targets (j : Journal) : Nat := if j.hasFile then 2 else 1

/-- The name that all origins begin with. -/
def rootName : String := "orbyt"

/-- The full name of an origin. -/
def originName (name : String) : String :=
  if name = "" || name = rootName then rootName
  else if Text.startsWith name (rootName ++ ".") then name
  else rootName ++ "." ++ name

/-- A text with blanks behind it up to the width. -/
def padded (width : Nat) (text : String) : String :=
  text ++ String.ofList (List.replicate (width - text.length) ' ')

/-- The line of a record behind its time. -/
def line (r : Record) : String := padded 8 r.level.name ++ " " ++ r.origin ++ ": " ++ r.text

/-- The lines of the records that the journal keeps. -/
def lines (j : Journal) (records : List Record) : List String :=
  (records.filter fun r => j.threshold.rank ≤ r.level.rank).map line

end Journal

end RepoAtlas
