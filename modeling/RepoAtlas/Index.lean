import RepoAtlas.Language
import RepoAtlas.Text.Blank

/-! # The index of file names and the resolution of specifiers

An index finds a path by its last component. A later path of the same name replaces an earlier one,
but the name keeps its place. A specifier is resolved by its own last part, by that part with the
suffix of a script, and at last by the first name that it ends with; on request a relative
specifier is first looked up where it points to.
-/

namespace RepoAtlas

/-- Puts a value under a key. A known key keeps its place, a new one goes to the end. -/
def putLast {α β : Type} [BEq α] (key : α) (value : β) : List (α × β) → List (α × β)
  | [] => [(key, value)]
  | (k, v) :: rest => if k == key then (k, value) :: rest else (k, v) :: putLast key value rest

/-- The paths of a repository by name, in the order in which names first occur. -/
structure Index where
  entries : List (String × Path)
  /-- All paths, repetitions included. -/
  paths : List Path

namespace Index

/-- The index of a list of paths. -/
def ofPaths (paths : List Path) : Index :=
  { entries := paths.foldl (fun entries p => putLast p.name p entries) []
    paths }

/-- The path of a name. -/
def get? (index : Index) (name : String) : Option Path := index.entries.lookup name

/-- The number of names. -/
def size (index : Index) : Nat := index.entries.length

/-- The first name that the specifier ends with. -/
def suffixMatch? (index : Index) (specifier : String) : Option Path :=
  (index.entries.find? fun entry => Text.endsWith specifier entry.1).map (·.2)

/-- The names that several paths bear, each with all of them. -/
def collisions (index : Index) : List (String × List Path) :=
  index.entries.filterMap fun (name, _) =>
    let bearers := index.paths.filter (·.name == name)
    if 1 < bearers.length then some (name, bearers) else none

end Index

namespace Resolution

/-- Does the specifier point from the importing file? -/
def isRelative (specifier : String) : Bool :=
  specifier == "." || specifier == ".." || Text.startsWith specifier "./" ||
    Text.startsWith specifier "../"

/-- Removes the dots of a path: a `..` cancels the component before it. At a root nothing is
    above; elsewhere the dots stay at the start. `above` holds the components so far, latest
    first. -/
def cancelDots (rooted : Bool) (above : List String) : List String → List String
  | [] => above.reverse
  | ".." :: rest =>
    match above with
    | [] => if rooted then cancelDots rooted [] rest else cancelDots rooted [".."] rest
    | ".." :: _ => cancelDots rooted (".." :: above) rest
    | _ :: below => cancelDots rooted below rest
  | part :: rest => cancelDots rooted (part :: above) rest

/-- The text of a path whose dots are removed. -/
def normalText (p : Path) : String :=
  let parts := cancelDots p.isAbsolute [] p.parts
  if p.anchor = .relative && parts.isEmpty then "." else p.anchor.text ++ Path.joined parts

/-- The paths that a relative specifier may mean: where it points to, with the suffixes of scripts,
    and the index scripts of a directory there. -/
def candidates (importer : Path) (specifier : String) : List Path :=
  let target := normalText (importer.parent.join (Path.parse specifier))
  let inside := if Text.endsWith target "/" then target else target ++ "/"
  let suffixes := Language.scriptSuffixes.map (·.1)
  (target :: suffixes.map (target ++ ·) ++ suffixes.map (inside ++ "index" ++ ·)).map Path.parse

/-- The file that a relative specifier points to. -/
def pointedAt? (index : Index) (importer : Path) (specifier : String) : Option Path :=
  (candidates importer specifier).find? index.paths.contains

/-- The file named like the last part of the specifier, with a suffix of a script if need be. -/
def named? (index : Index) (specifier : String) : Option Path :=
  let base := Text.afterLast '/' specifier
  if base = "" then none
  else ("" :: Language.scriptSuffixes.map (·.1)).findSome? fun suffix => index.get? (base ++ suffix)

end Resolution

open Resolution in
/-- The file that a specifier means, if it means one. -/
def resolve (index : Index) (importer : Option Path) (relativeFirst : Bool) (specifier : String) :
    Option Path :=
  let specifier := Text.strip specifier
  if specifier = "" then none
  else
    let pointed :=
      match importer with
      | some importer =>
        if relativeFirst && isRelative specifier then pointedAt? index importer specifier else none
      | none => none
    (pointed.or (named? index specifier)).or (index.suffixMatch? specifier)

/-- The files that the specifiers of each importer mean, in order; what means none is dropped. -/
def resolveAll (index : Index) (relativeFirst : Bool) (specifiers : List (Path × List String)) :
    List (Path × List Path) :=
  specifiers.map fun (importer, specs) =>
    (importer, specs.filterMap (resolve index (some importer) relativeFirst))

end RepoAtlas
