import RepoAtlas.Language
import RepoAtlas.Measure
import RepoAtlas.Script.Imports

/-! # Scanned files

What is kept of a file once its text was read: its metrics and, for a script, the specifiers it
imports.
-/

namespace RepoAtlas

/-- A file that was read: its path, its metrics and the specifiers it imports. -/
structure ScannedFile where
  path : Path
  metrics : Metrics
  specifiers : List String

/-- The specifiers of a file; only scripts import something. -/
def specifiersOf (reader : Script.Reader) (path : Path) (text : String) : List String :=
  match Language.dialect? path with
  | some dialect => reader.importsOf dialect text
  | none => []

/-- What is kept of a file with this text and so many commits. -/
def ScannedFile.ofText (reader : Script.Reader) (path : Path) (text : String) (commits : Int) :
    ScannedFile :=
  { path, metrics := Metrics.ofText text commits, specifiers := specifiersOf reader path text }

end RepoAtlas
