import RepoAtlas.Disk.Access
import RepoAtlas.Ignore.Rules
import RepoAtlas.Text.Lowercase

/-! # Listing the files of a folder

Folders are walked depth first, the entries of each in the order of their names. Ignored entries are
left out, and so are folders with an excluded name, folders that cannot be opened and links. Of the
files those with a listed extension are kept.
-/

namespace RepoAtlas

/-- Which files are listed. -/
structure Selection where
  /-- The listed extensions, in any case. -/
  extensions : List String
  /-- The names of folders that are never entered. -/
  excluded : List String
  /-- Is a path below the root ignored? Folders are asked for with a slash at the end. -/
  ignored : String → Bool

namespace Selection

/-- Has the name a listed extension? -/
def accepts (s : Selection) (name : String) : Bool :=
  (s.extensions.map Text.lower).contains (Text.lower (Path.extensionOf name))

mutual

/-- The files at and below an entry, each as the names on the way to it. A folder is opened if it can
    be reached and listed. -/
def filesAt (s : Selection) (way : List String) (reached : Bool) (name : String) :
    Entry → List (List String)
  | .file _ _ =>
    let here := way ++ [name]
    if s.accepts name && !s.ignored (Path.joined here) then [here] else []
  | .folder entries rights =>
    let here := way ++ [name]
    if reached && rights.list && !s.excluded.contains name &&
        !s.ignored (Path.joined here ++ "/") then
      ((filesIn s here rights.search entries).mergeSort fun a b => a.1 ≤ b.1).flatMap (·.2)
    else []
  | .link _ => []
  | .other => []

/-- The files at and below each entry of a folder, with the name of the entry. -/
def filesIn (s : Selection) (way : List String) (reached : Bool) :
    Entries → List (String × List (List String))
  | [] => []
  | (name, entry) :: rest =>
    (name, filesAt s way reached name entry) :: filesIn s way reached rest

end

/-- The files below a folder, as the names on the way from it. -/
def files (s : Selection) (entries : Entries) (rights : Rights) : List (List String) :=
  if rights.list then
    ((s.filesIn [] rights.search entries).mergeSort fun a b => a.1 ≤ b.1).flatMap (·.2)
  else []

end Selection

/-- Why there are no ignore rules although there may be an ignore file. -/
inductive IgnoreProblem where
  /-- It cannot be told whether there is a file. -/
  | access (problem : AccessProblem)
  /-- A line of the file is no rule. -/
  | rule (problem : Ignore.RuleProblem)
  deriving DecidableEq

namespace Disk

/-- The listed files below a folder without links; none if there is no such folder. -/
def listing (d : Disk) (root : Path) (s : Selection) : List Path :=
  match d.find root with
  | .ok (_, .folder entries rights) =>
    (s.files entries rights).map fun way => root.join (Path.parse (Path.joined way))
  | _ => []

/-- The listed files below the folder that a path leads to. -/
def scan (d : Disk) (folder : Path) (s : Selection) : Except PathProblem (List Path) := do
  let root ← (d.resolve folder).mapError .unresolvable
  let isFolder ← (d.isFolder root).mapError .access
  return if isFolder then d.listing root s else []

/-- The text of the ignore file in a folder; none if there is no file or it cannot be read. -/
def ignoreText (d : Disk) (root : Path) (name : String) : Except AccessProblem (Option String) :=
  let candidate := root.join (Path.parse name)
  (d.isFile candidate).map fun isFile => if isFile then (d.text candidate).toOption else none

/-- The rules of the ignore file in a folder: what its lines are compiled to. -/
def ignoreRules (d : Disk) (compile : Ignore.Compiler) (root : Path) (name : String) :
    Except IgnoreProblem (Option (String → Bool)) :=
  match d.ignoreText root name with
  | .error problem => .error (.access problem)
  | .ok none => .ok none
  | .ok (some text) => ((compile (Text.lines text)).map some).mapError .rule

end Disk

/-- The paths that optional rules ignore. -/
def Ignore.ignoredBy (rules : Option (String → Bool)) (path : String) : Bool :=
  match rules with
  | some ignores => ignores path
  | none => false

end RepoAtlas
