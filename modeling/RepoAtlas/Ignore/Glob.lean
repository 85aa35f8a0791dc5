/-! # Globs

A glob is read piece by piece from left to right. Each piece says which rests of a text may follow
it, so a text matches if some rest is left after the last piece. No piece but the ones that say so
runs across a slash.
-/

namespace RepoAtlas.Ignore

/-- A set of characters in brackets. -/
structure CharSet where
  negated : Bool
  /-- Both ends of each range belong to it; a single character is a range of its own. -/
  ranges : List (Char × Char)
  deriving DecidableEq, Repr

/-- Is the character in the set? -/
def CharSet.has (set : CharSet) (c : Char) : Bool :=
  set.negated != set.ranges.any fun range => range.1 ≤ c && c ≤ range.2

/-- One piece of a glob. -/
inductive Piece where
  /-- Exactly this character. -/
  | char (c : Char)
  /-- A character of a set, even a slash. -/
  | oneOf (set : CharSet)
  /-- Any character but a slash. -/
  | one
  /-- Any run of characters without a slash, even an empty one. -/
  | run
  /-- Nothing, or any folders up to a slash. -/
  | foldersBefore
  /-- Nothing, or a slash and what follows. -/
  | foldersBetween
  /-- The end of a name: a slash, or the end of the text, a last line feed aside. -/
  | nameEnd
  /-- Any one character that is no line feed, after anything. -/
  | anything
  /-- A slash, after anything. -/
  | anywhereSlash
  deriving DecidableEq, Repr

/-- Does every range of the piece start before it ends? -/
def Piece.isSound : Piece → Bool
  | .oneOf set => set.ranges.all fun range => range.1 ≤ range.2
  | _ => true

/-- The text and what is left of it after each of its characters as long as they pass. -/
def restsAfter (test : Char → Bool) : List Char → List (List Char)
  | [] => [[]]
  | c :: rest => (c :: rest) :: if test c then restsAfter test rest else []

/-- The rests that start with a slash, without it. -/
def behindSlash (rests : List (List Char)) : List (List Char) :=
  rests.filterMap fun
    | '/' :: rest => some rest
    | _ => none

/-- The rests that are left behind at least one character of the line. -/
def restsOnLine (text : List Char) : List (List Char) := (restsAfter (· != '\n') text).drop 1

/-- What may be left of a text after a piece. -/
def Piece.rests (piece : Piece) (text : List Char) : List (List Char) :=
  match piece with
  | .char c =>
    match text with
    | first :: rest => if first = c then [rest] else []
    | [] => []
  | .oneOf set =>
    match text with
    | first :: rest => if set.has first then [rest] else []
    | [] => []
  | .one =>
    match text with
    | first :: rest => if first != '/' then [rest] else []
    | [] => []
  | .run => restsAfter (· != '/') text
  | .foldersBefore => text :: behindSlash (restsOnLine text)
  | .foldersBetween =>
    match text with
    | '/' :: rest => text :: restsOnLine rest
    | _ => [text]
  | .nameEnd =>
    match text with
    | [] => [[]]
    | '/' :: rest => [rest]
    | ['\n'] => [['\n']]
    | _ => []
  | .anything => if text.any (· != '\n') then [[]] else []
  | .anywhereSlash => if text.contains '/' then [[]] else []

/-- Keeps one rest of each length; rests of one text are equal if their lengths are. -/
def oneOfEachLength (rests : List (List Char)) : List (List Char) :=
  rests.foldl (fun kept rest =>
    if kept.any (·.length = rest.length) then kept else rest :: kept) []

/-- Does the text begin with the pieces? -/
def matchesFrom (pieces : List Piece) (text : List Char) : Bool :=
  !(pieces.foldl (fun rests piece => oneOfEachLength (rests.flatMap piece.rests)) [text]).isEmpty

end RepoAtlas.Ignore
