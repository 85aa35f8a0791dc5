import RepoAtlas.Disk.Entry
import RepoAtlas.Index
import RepoAtlas.Text.Quoted
import RepoAtlas.Text.Utf8

/-! # Finding and reading entries

A path is followed name by name from the root of the disk; links are followed as they are met, and
`..` leads to the folder above the one that was reached. Too many links are taken for a loop. To
resolve a path is to spell out where it leads, as far as there is something: links are replaced by
what they point to, however many they are, and a loop is found by meeting a link inside itself.
-/

namespace RepoAtlas

/-- A tree of entries, the folder where relative paths start, and the home folder that the accounts
    of the machine name for its user, if they name one. -/
structure Disk where
  entries : Entries
  here : Path
  home : Option String := none

/-- Why an entry cannot be found or opened. -/
inductive AccessProblem where
  | missing
  | denied
  | notFolder
  | isFolder
  | tooLong
  | loop
  deriving DecidableEq, Repr

namespace AccessProblem

/-- The number of a problem. -/
def number : AccessProblem → Nat
  | .missing => 2
  | .denied => 13
  | .notFolder => 20
  | .isFolder => 21
  | .tooLong => 36
  | .loop => 40

/-- What happened. -/
def reason : AccessProblem → String
  | .missing => "No such file or directory"
  | .denied => "Permission denied"
  | .notFolder => "Not a directory"
  | .isFolder => "Is a directory"
  | .tooLong => "File name too long"
  | .loop => "Too many levels of symbolic links"

/-- The message for a path. -/
def message (p : AccessProblem) (path : Path) : String :=
  "[Errno " ++ toString p.number ++ "] " ++ p.reason ++ ": " ++ Text.quoted path.text

/-- Does the problem mean that there is nothing? Others leave it open. -/
def isAbsence : AccessProblem → Bool
  | .missing | .notFolder | .loop => true
  | .denied | .isFolder | .tooLong => false

end AccessProblem

/-- Why a path cannot be resolved. -/
inductive Unresolvable where
  /-- A NUL stands in it. -/
  | nul
  /-- Its links lead in a circle. -/
  | loop
  deriving DecidableEq, Repr

/-- Why it cannot be told where a path leads. -/
inductive PathProblem where
  | access (problem : AccessProblem)
  | unresolvable (problem : Unresolvable)
  deriving DecidableEq, Repr

/-- Does a NUL stand in the text of the path? -/
def Path.hasNul (p : Path) : Bool := p.text.toList.contains '\x00'

namespace Disk

/-- The disk without entries. -/
def empty : Disk := { entries := [], here := Path.bare .root }

/-- The topmost folder. -/
def root (d : Disk) : Entry := .folder d.entries .full

/-- A path from the topmost folder on. -/
def absolute (d : Disk) (p : Path) : Path := if p.isAbsolute then p else d.here.join p

/-- The entry at the end of a chain of names that holds no links and no `..`. -/
def at? (d : Disk) (parts : List String) : Option Entry := d.root.at? parts

/-- The path of a chain of names from the topmost folder on. -/
def pathOf (place : List String) : Path := Path.parse ("/" ++ Path.joined place)

/-- How many links are followed on one way. -/
def mostLinks : Nat := 40

/-- How many bytes the name of an entry has at most, and how many a path that is looked up. -/
def longestName : Nat := 255
def longestPath : Nat := 4095

/-- Follows names from a folder that was reached, and links while some are left; gives the place
    without links and the entry there. -/
def follow (d : Disk) (links : Nat) (reached todo : List String) :
    Except AccessProblem (List String × Entry) :=
  match todo with
  | [] =>
    match d.at? reached with
    | some e => .ok (reached, e)
    | none => .error .missing
  | name :: rest =>
    match d.at? reached with
    | some (.folder entries rights) =>
      if !rights.search then .error .denied
      else if name = ".." then d.follow links reached.dropLast rest
      else
        match entries.lookup name with
        | none => .error (if longestName < name.utf8ByteSize then .tooLong else .missing)
        | some (.link target) =>
          match links with
          | 0 => .error .loop
          | links + 1 =>
            let goal := Path.parse target
            d.follow links (if goal.isAbsolute then [] else reached) (goal.parts ++ rest)
        | some _ => d.follow links (reached ++ [name]) rest
    | some _ => .error .notFolder
    | none => .error .missing
termination_by (links, todo.length)

/-- The entry of a path and its place without links. -/
def find (d : Disk) (p : Path) : Except AccessProblem (List String × Entry) :=
  d.follow mostLinks [] (d.absolute p).parts

/-- What a path leads to, if there is something. There is nothing under a text with a NUL. -/
def lookUp (d : Disk) (p : Path) : Except AccessProblem (Option Entry) :=
  if p.hasNul then .ok none
  else if longestPath < p.text.utf8ByteSize then .error .tooLong
  else
    match d.find p with
    | .ok (_, e) => .ok (some e)
    | .error problem => if problem.isAbsence then .ok none else .error problem

/-- Is there something at the path? -/
def hasEntry (d : Disk) (p : Path) : Except AccessProblem Bool := (d.lookUp p).map (·.isSome)

/-- Is the path a folder? -/
def isFolder (d : Disk) (p : Path) : Except AccessProblem Bool :=
  (d.lookUp p).map fun
    | some (.folder _ _) => true
    | _ => false

/-- Is the path a file? -/
def isFile (d : Disk) (p : Path) : Except AccessProblem Bool :=
  (d.lookUp p).map fun
    | some (.file _ _) => true
    | _ => false

/-- The bytes of a file. -/
def bytes (d : Disk) (p : Path) : Except AccessProblem (List UInt8) :=
  match d.find p with
  | .ok (_, .file bytes readable) => if readable then .ok bytes else .error .denied
  | .ok (_, .folder _ _) => .error .isFolder
  | .ok _ => .ok []
  | .error problem => .error problem

/-- The text of a file. -/
def text (d : Disk) (p : Path) : Except AccessProblem String := (d.bytes p).map Text.ofBytes

/-- The place where a file of this path would be written. -/
def placeOf (d : Disk) (p : Path) : Except AccessProblem (List String) :=
  match d.find p with
  | .ok (place, .file _ readable) => if readable then .ok place else .error .denied
  | .ok (_, .folder _ _) => .error .isFolder
  | .ok (place, _) => .ok place
  | .error .missing =>
    match d.find p.parent with
    | .ok (place, .folder _ _) => .ok (place ++ [p.name])
    | .ok _ => .error .notFolder
    | .error problem => .error problem
  | .error problem => .error problem

/-- What the link at a place points to, if there is a link that can be reached. -/
def linkAt? (d : Disk) (place : List String) : Option String :=
  match d.root.reach? place with
  | some (.link target) => some target
  | _ => none

/-- How many links there are besides some. -/
def linksBeside (d : Disk) (met : List (List String)) : Nat :=
  (d.root.linkPlaces.filter fun place => !met.contains place).length

theorem linksBeside_cons_lt {d : Disk} {met : List (List String)} {place : List String}
    {target : String} (link : d.linkAt? place = some target) (unmet : place ∉ met) :
    d.linksBeside (place :: met) < d.linksBeside met := by
  have listed : place ∈ d.root.linkPlaces := by
    unfold linkAt? at link
    split at link
    · rename_i found
      exact Entry.mem_linkPlaces found
    · cases link
  have fewer : d.linksBeside (place :: met) =
      ((d.root.linkPlaces.filter fun other => !met.contains other).filter (· ≠ place)).length := by
    rw [linksBeside, List.filter_filter]
    congr 2
    funext other
    by_cases same : other = place <;> simp [same]
  rw [fewer, linksBeside, List.length_filter_lt_length_iff_exists]
  exact ⟨place, List.mem_filter.mpr ⟨listed, by simpa using unmet⟩, by simp⟩

/-- Resolves names from a folder that was reached while the links in `met` are being resolved: links
    are replaced by what they point to, `..` takes back the name before it, and names of nothing are
    kept. At a link that is met again the rest is left as it is; whether that happened is told,
    too. -/
def resolveFrom (d : Disk) (met : List (List String)) (reached todo : List String) :
    List String × Bool :=
  match todo with
  | [] => (reached, true)
  | name :: rest =>
    if name = ".." then d.resolveFrom met reached.dropLast rest
    else
      let here := reached ++ [name]
      match _link : d.linkAt? here with
      | none => d.resolveFrom met here rest
      | some target =>
        if _unmet : here ∈ met then (here ++ rest, false)
        else
          let goal := Path.parse target
          match d.resolveFrom (here :: met) (if goal.isAbsolute then [] else reached) goal.parts with
          | (place, true) => d.resolveFrom met place rest
          | (place, false) => (place ++ rest, false)
termination_by (d.linksBeside met, todo.length)
decreasing_by
  · exact Prod.Lex.right _ (Nat.lt_succ_self _)
  · exact Prod.Lex.right _ (Nat.lt_succ_self _)
  · exact Prod.Lex.left _ _ (linksBeside_cons_lt _link _unmet)
  · exact Prod.Lex.right _ (Nat.lt_succ_self _)

/-- The path without links and without `..`. -/
def resolve (d : Disk) (p : Path) : Except Unresolvable Path :=
  if p.hasNul then .error .nul
  else
    let (place, _) := d.resolveFrom [] [] (d.absolute p).parts
    let plain := pathOf (Resolution.cancelDots true [] place)
    match d.find plain with
    | .error .loop => .error .loop
    | _ => .ok plain

end Disk

end RepoAtlas
