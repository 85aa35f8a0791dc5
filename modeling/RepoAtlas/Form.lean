import RepoAtlas.Report
import RepoAtlas.Text.Quoted

/-! # Forms of a graph

A graph is shown either as JSON for a viewer or as a report for a terminal.
-/

namespace RepoAtlas

/-- A form in which a graph is shown. -/
inductive Form where
  | json
  | report
  deriving DecidableEq, Repr

namespace Form

/-- The name of a form. -/
def name : Form → String
  | .json => "json"
  | .report => "rich"

/-- All forms. -/
def all : List Form := [.json, .report]

/-- The form of a name. -/
def ofName? (name : String) : Option Form := all.find? (·.name == name)

/-- What is answered to a name that no form has. -/
def unknownMessage (name : String) : String :=
  "Unknown formatter: " ++ Text.quoted name ++ ". Choose from: " ++
    ", ".intercalate (all.map (·.name))

end Form

end RepoAtlas
