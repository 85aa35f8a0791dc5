import RepoAtlas.Path

/-! # Nodes and edges

Files and folders share one space of ids: a file is known by its absolute path, a folder by its
path relative to the root of the repository. Edges are typed; source, target and kind identify an
edge.
-/

namespace RepoAtlas

/-- The cluster of files that lie directly in the root. No folder has this id. -/
def rootCluster : String := "."

/-- What an edge means. -/
inductive EdgeKind where
  /-- A file imports a file. -/
  | imports
  /-- A folder holds a folder or a file. -/
  | hierarchy
  /-- Files of a folder import files of another. -/
  | rollup
  deriving DecidableEq, Repr

/-- The name of a kind in payloads. -/
def EdgeKind.name : EdgeKind → String
  | .imports => "import"
  | .hierarchy => "hierarchy"
  | .rollup => "rollup"

/-- The kind of a name. -/
def EdgeKind.ofName? (name : String) : Option EdgeKind :=
  [EdgeKind.imports, .hierarchy, .rollup].find? (·.name == name)

/-- A file of the repository. -/
structure FileNode where
  id : String
  label : String
  /-- The folder that holds the file, or the root cluster. -/
  cluster : String
  path : String
  loc : Int
  complexity : Int
  commits : Int
  color : String
  size : Float
  deriving Repr

/-- A folder with at least one file below it. -/
structure FolderNode where
  id : String
  label : String
  depth : Int
  path : String
  color : String
  size : Float
  deriving Repr

/-- A node of the graph. -/
inductive Node where
  | file (file : FileNode)
  | folder (folder : FolderNode)
  deriving Repr

namespace Node

def id : Node → String
  | .file f => f.id
  | .folder f => f.id

/-- The path in the file system behind a node. -/
def path : Node → String
  | .file f => f.path
  | .folder f => f.path

def file? : Node → Option FileNode
  | .file f => some f
  | .folder _ => none

def folder? : Node → Option FolderNode
  | .file _ => none
  | .folder f => some f

end Node

/-- A directed edge. -/
structure Edge where
  source : String
  target : String
  kind : EdgeKind
  /-- For imports: do the two files lie in different folders? -/
  interFolder : Bool
  deriving DecidableEq, Repr

/-- What identifies an edge. -/
def Edge.key (e : Edge) : String × String × EdgeKind := (e.source, e.target, e.kind)

end RepoAtlas
