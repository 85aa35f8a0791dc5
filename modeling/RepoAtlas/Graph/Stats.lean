import RepoAtlas.Graph.Store
import RepoAtlas.Leading

/-! # Summary of a graph

How many files and clusters there are, how complex a file is on average, and which files were
edited most. Folders never count. Of files with equally many commits the one that was scanned
first comes first.
-/

namespace RepoAtlas

/-- One of the most edited files. -/
structure ChurnEntry where
  /-- The name that is shown. -/
  file : String
  commits : Int
  path : String
  deriving DecidableEq, Repr

/-- The summary of a graph. -/
structure Stats where
  totalFiles : Int
  clusters : Int
  avgComplexity : Float
  mostEdited : List ChurnEntry
  deriving Repr

namespace Stats

/-- The summary of a graph without files. -/
def empty : Stats := { totalFiles := 0, clusters := 0, avgComplexity := 0, mostEdited := [] }

/-- The mean of some whole numbers. -/
def mean (values : List Int) : Float :=
  values.foldl (fun sum n => sum + Float.ofInt n) 0 / Float.ofNat values.length

/-- Files with at least one commit, most commits first, ties in scan order. -/
def ranking (files : List FileNode) : List FileNode :=
  (files.filter fun f => 0 < f.commits).mergeSort fun a b => b.commits ≤ a.commits

/-- How a file is listed among the most edited. -/
def entryOf (f : FileNode) : ChurnEntry := { file := f.label, commits := f.commits, path := f.path }

/-- The summary of a graph with at most so many of the most edited files. -/
def ofStore (store : Store) (top : Int) : Stats :=
  let files := store.files
  if files.isEmpty then empty
  else
    { totalFiles := files.length
      clusters := (files.map (·.cluster)).eraseDups.length
      avgComplexity := mean (files.map (·.complexity))
      mostEdited := (leading top (ranking files)).map entryOf }

end Stats

end RepoAtlas
