import RepoAtlas.Text.Split

/-! # Paths

A path is an anchor and a list of components. Repeated slashes, slashes at the end and `.` leave no
trace; `..` is a component like any other. Exactly two slashes at the start are an anchor of their
own, so such a path lies under no other root.
-/

namespace RepoAtlas

/-- Where a path starts. -/
inductive Anchor where
  | relative
  | root
  | doubleRoot
  deriving DecidableEq, Repr, Hashable

/-- The text of an anchor. -/
def Anchor.text : Anchor → String
  | .relative => ""
  | .root => "/"
  | .doubleRoot => "//"

/-- A component is not empty, not `.`, and has no slash. -/
def isComponent (s : String) : Bool := s ≠ "" && s ≠ "." && !s.toList.contains '/'

/-- A path by its components. -/
structure Path where
  anchor : Anchor
  parts : List String
  /-- Every part is a component. -/
  proper : ∀ part ∈ parts, isComponent part
  deriving DecidableEq

namespace Path

/-- How a text starts. -/
def anchorOf (cs : List Char) : Anchor :=
  match cs with
  | '/' :: '/' :: '/' :: _ => .root
  | '/' :: '/' :: _ => .doubleRoot
  | '/' :: _ => .root
  | _ => .relative

/-- The path that a text names. -/
def parse (s : String) : Path :=
  { anchor := anchorOf s.toList
    parts := (Text.split '/' s).filter isComponent
    proper := fun _ h => (List.mem_filter.mp h).2 }

/-- The path that starts at an anchor and has no components. -/
def bare (anchor : Anchor) : Path := { anchor, parts := [], proper := by simp }

/-- The components joined by slashes. -/
def joined (parts : List String) : String := "/".intercalate parts

/-- The text of a path. The empty relative path is a dot. -/
def text (p : Path) : String :=
  if p.anchor = .relative && p.parts.isEmpty then "." else p.anchor.text ++ joined p.parts

def isAbsolute (p : Path) : Bool := p.anchor ≠ .relative

/-- The last component, empty if there is none. -/
def name (p : Path) : String := p.parts.getLast?.getD ""

/-- The path without its last component. -/
def parent (p : Path) : Path :=
  { p with
    parts := p.parts.dropLast
    proper := fun part h => p.proper part (List.dropLast_subset _ h) }

/-- The second path, taken from the first unless it has an anchor of its own. -/
def join (p q : Path) : Path :=
  if q.anchor = .relative then
    { anchor := p.anchor
      parts := p.parts ++ q.parts
      proper := fun part h => (List.mem_append.mp h).elim (p.proper part) (q.proper part) }
  else q

/-- The path one component below. -/
def child (p : Path) (name : String) : Path := p.join (parse name)

/-- The path as seen from a root, if it lies at the root or below it. -/
def relativeTo? (p root : Path) : Option Path :=
  if p.anchor = root.anchor && root.parts.isPrefixOf p.parts then
    some
      { anchor := .relative
        parts := p.parts.drop root.parts.length
        proper := fun part h => p.proper part (List.mem_of_mem_drop h) }
  else none

/-- The ending of a name from its last dot on. A dot that is the first or the last character starts
    no suffix. -/
def suffixOf (name : String) : String :=
  let cs := name.toList
  let ending := (cs.reverse.takeWhile (· != '.')).reverse
  let stem := cs.length - ending.length
  if 1 < stem && !ending.isEmpty then String.ofList ('.' :: ending) else ""

/-- The suffix of the last component. -/
def suffix (p : Path) : String := suffixOf p.name

/-- The ending of a name as files are selected by it: dots at the start never count, so a name of
    dots and one word has none. -/
def extensionOf (name : String) : String :=
  let cs := name.toList.dropWhile (· == '.')
  if cs.contains '.' then
    String.ofList ('.' :: (cs.reverse.takeWhile (· != '.')).reverse)
  else ""

end Path

end RepoAtlas
