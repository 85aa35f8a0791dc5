import RepoAtlas.Graph.Store
import RepoAtlas.Palette
import RepoAtlas.Scanned

/-! # Building the graph

The folders of all files come first, each before the folders in it, and are linked to their
parents. Then come the files, each with the link from its folder, and then the imports, each
followed by the link between the two folders if it is the first to cross there.
-/

namespace RepoAtlas

/-- Why a graph cannot be built. -/
inductive BuildProblem where
  /-- A file does not lie under the root. -/
  | outside (path : Path)
  /-- A file has a negative number of lines. -/
  | negativeLines (path : Path)
  /-- An edge has an end that is no node. -/
  | edge (problem : EdgeProblem)

namespace Builder

/-- A path as components below the root. -/
def below (root path : Path) : Except BuildProblem (List String) :=
  match path.relativeTo? root with
  | some rest => .ok rest.parts
  | none => .error (.outside path)

/-- The id of the folder that holds what has these components. -/
def folderOf (parts : List String) : String :=
  if parts.dropLast.isEmpty then rootCluster else Path.joined parts.dropLast

/-- The folder that holds a file. -/
def owningFolder (root path : Path) : Except BuildProblem String :=
  (below root path).map folderOf

/-- The non-empty lists that a list begins with, shortest first. -/
def beginnings {α : Type} : List α → List (List α)
  | [] => []
  | a :: rest => [a] :: (beginnings rest).map (a :: ·)

/-- The folders above a file as components, outermost first, the root left out. -/
def folderChain (parts : List String) : List (List String) := beginnings parts.dropLast

/-- The items of a list, each where it first occurs. -/
def distinct {α : Type} [BEq α] (items : List α) : List α :=
  items.foldl (fun seen a => if seen.contains a then seen else seen ++ [a]) []

/-- The node of a folder given by its components. -/
def folderNode (root : Path) (parts : List String) : FolderNode :=
  let id := Path.joined parts
  let depth : Int := parts.length
  { id
    label := parts.getLast?.getD ""
    depth
    path := (root.join (Path.parse id)).text
    color := Palette.colour id depth
    size := Palette.folderSize depth }

/-- Adds an edge; tells whether it was added. -/
def link (store : Store) (source target : String) (kind : EdgeKind) (interFolder : Bool) :
    Except BuildProblem (Bool × Store) :=
  match store.addEdge { source, target, kind, interFolder } with
  | .ok result => .ok result
  | .error problem => .error (.edge problem)

/-- Adds the link from the parent of a folder, if it has a parent. -/
def addFolderLink (store : Store) (parts : List String) : Except BuildProblem Store :=
  if parts.dropLast.isEmpty then .ok store
  else
    let parent := Path.joined parts.dropLast
    if store.hasNode parent then
      (link store parent (Path.joined parts) .hierarchy false).map (·.2)
    else .ok store

/-- The folders of all files, each where it first occurs. -/
def foldersOf (root : Path) (files : List ScannedFile) :
    Except BuildProblem (List (List String)) :=
  (files.mapM fun file => below root file.path).map fun all =>
    distinct (all.flatMap folderChain)

/-- Adds the folders of all files and the links between them. -/
def addFolders (root : Path) (files : List ScannedFile) (store : Store) :
    Except BuildProblem Store := do
  let folders ← foldersOf root files
  let nodes := folders.foldl (fun s parts => (s.addNode (.folder (folderNode root parts))).2) store
  folders.foldlM addFolderLink nodes

/-- The node of a file in a folder. -/
def fileNode (cluster : String) (file : ScannedFile) (size : Float) : FileNode :=
  let depth : Int := cluster.toList.count '/' + 2
  { id := file.path.text
    label := file.path.name
    cluster
    path := file.path.text
    loc := file.metrics.loc
    complexity := file.metrics.complexity
    commits := file.metrics.commits
    color := Palette.colour cluster depth
    size }

/-- Adds a file and, if folders are nodes, the link from its folder. -/
def addFile (root : Path) (withFolders : Bool) (store : Store) (file : ScannedFile) :
    Except BuildProblem Store := do
  let cluster ← owningFolder root file.path
  match Palette.fileSize? file.metrics.loc with
  | none => .error (.negativeLines file.path)
  | some size =>
    let (added, store) := store.addNode (.file (fileNode cluster file size))
    if added && withFolders && store.hasNode cluster then
      (link store cluster file.path.text .hierarchy false).map (·.2)
    else .ok store

/-- Adds one import and, if it crosses folders for the first time there, the link between the
    folders. An import of the file itself or of what is no node adds nothing. -/
def addImport (root : Path) (withFolders : Bool) (importer : Path) (fromFolder : String)
    (store : Store) (target : Path) : Except BuildProblem Store :=
  if target.text == importer.text || !store.hasNode target.text then .ok store
  else do
    let toFolder ← owningFolder root target
    let crosses := fromFolder != toFolder
    let (added, store) ← link store importer.text target.text .imports crosses
    if added && crosses && withFolders && store.hasNode fromFolder && store.hasNode toFolder then
      (link store fromFolder toFolder .rollup false).map (·.2)
    else .ok store

/-- Adds the imports of one file, if it is a node. -/
def addImports (root : Path) (withFolders : Bool) (store : Store)
    (imports : Path × List Path) : Except BuildProblem Store :=
  if store.hasNode imports.1.text then do
    let fromFolder ← owningFolder root imports.1
    imports.2.foldlM (addImport root withFolders imports.1 fromFolder) store
  else .ok store

end Builder

open Builder in
/-- The graph of files and of the files they import. -/
def Store.build (root : Path) (withFolders : Bool) (files : List ScannedFile)
    (imports : List (Path × List Path)) : Except BuildProblem Store := do
  let folders ← if withFolders then addFolders root files Store.empty else .ok Store.empty
  let nodes ← files.foldlM (addFile root withFolders) folders
  imports.foldlM (addImports root withFolders) nodes

end RepoAtlas
