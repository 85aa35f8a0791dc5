import RepoAtlas.Text.Blank
import RepoAtlas.Text.Cells
import RepoAtlas.Text.Split

/-! # Wrapping text

A text is broken into lines of so many cells. Lines break between words; blanks stay with the word
before them. What is done with a word that is too long, and how lines are placed in their width, is
a parameter.
-/

namespace RepoAtlas.Console

open RepoAtlas.Text

/-- What is done with a word that is longer than a line. -/
inductive Overlong where
  /-- It is cut into lines. -/
  | fold
  /-- What does not fit is left out and an ellipsis put in its place. -/
  | ellipsis
  deriving DecidableEq, Repr

/-- How lines are placed in their width. -/
inductive Placing where
  | asIs
  | left
  | centre
  | right
  deriving DecidableEq, Repr

/-- Blanks. -/
def spaces (n : Nat) : List Char := List.replicate n ' '

/-- Cut wherever something follows a blank. -/
def chunks : List Char → List (List Char)
  | [] => []
  | c :: rest =>
    match chunks rest with
    | (d :: piece) :: more =>
      if isBlank c && !isBlank d then [c] :: (d :: piece) :: more
      else (c :: d :: piece) :: more
    | more => [c] :: more

/-- The words of a line with the blanks behind them; the first has those in front of it, too. -/
def words (line : List Char) : List (List Char) :=
  match chunks line with
  | first :: rest =>
    if first.all isBlank then
      match rest with
      | second :: more => (first ++ second) :: more
      | [] => []
    else first :: rest
  | [] => []

/-- Exactly so many cells of a text; where a wide character does not fit there is a blank. -/
def cut (total : Nat) : List Char → List Char
  | [] => spaces total
  | c :: rest => if cells c ≤ total then c :: cut (total - cells c) rest else spaces total

/-- A word cut into pieces that fit; `used` cells of the current piece are taken. -/
def chop (width : Nat) (piece : List Char) (used : Nat) : List Char → List (List Char)
  | [] => [piece]
  | c :: rest =>
    if width < used + cells c then piece :: chop width [c] (cells c) rest
    else chop width (piece ++ [c]) (used + cells c) rest

/-- Lines that are being filled. -/
structure Filling where
  /-- The finished lines, latest first. -/
  done : List (List Char)
  line : List Char
  /-- The cells of the current line that count as taken. -/
  used : Nat

namespace Filling

/-- No word yet. -/
def start : Filling := { done := [], line := [], used := 0 }

/-- Is there no word yet? -/
def isFresh (f : Filling) : Bool := f.done.isEmpty && f.line.isEmpty

/-- The lines finished once the current one is. -/
def closed (f : Filling) : List (List Char) := if f.isFresh then f.done else f.line :: f.done

/-- Puts a word on a line of its own. -/
def startLine (f : Filling) (word : List Char) : Filling :=
  { done := f.closed, line := word, used := cellsOf word }

/-- Puts the pieces of a word on lines of their own. -/
def startLines (f : Filling) : List (List Char) → Filling
  | [] => f
  | [last] => f.startLine last
  | piece :: rest => (f.startLine piece).startLines rest

/-- Puts the next word where it fits. -/
def put (width : Nat) (overlong : Overlong) (f : Filling) (word : List Char) : Filling :=
  let needed := cellsOf (stripRight word)
  if f.used + needed ≤ width then
    { f with line := f.line ++ word, used := f.used + cellsOf word }
  else if width < needed then
    match overlong with
    | .fold => f.startLines (chop width [] 0 word)
    | .ellipsis => f.startLine word
  else if f.used ≠ 0 && !f.isFresh then f.startLine word
  else { f with line := f.line ++ word }

/-- All lines. -/
def lines (f : Filling) : List (List Char) := f.done.reverse ++ [f.line]

end Filling

/-- The lines into which one line is broken. -/
def broken (width : Nat) (overlong : Overlong) (line : List Char) : List (List Char) :=
  let ws := words line
  if ws.isEmpty then [line] else (ws.foldl (Filling.put width overlong) Filling.start).lines

/-- Without the blanks at the end that stand beyond the width. -/
def trimEnd (width : Nat) (line : List Char) : List Char :=
  let blanks := (line.reverse.takeWhile isBlank).length
  line.take (line.length - min blanks (line.length - width))

/-- A line that is not wider than the width. -/
def fit (width : Nat) (overlong : Overlong) (line : List Char) : List Char :=
  if cellsOf line ≤ width then line
  else
    match overlong with
    | .fold => cut width line
    | .ellipsis => if width ≤ 1 then ['…'] else cut (width - 1) line ++ ['…']

/-- Blanks at the end up to the width. -/
def padEnd (width : Nat) (line : List Char) : List Char := line ++ spaces (width - cellsOf line)

/-- A line in its place. -/
def placed (placing : Placing) (width : Nat) (overlong : Overlong) (line : List Char) :
    List Char :=
  match placing with
  | .asIs => fit width overlong line
  | .left => padEnd width (fit width overlong line)
  | .centre =>
    let bare := fit width overlong (stripRight line)
    padEnd width (spaces ((width - cellsOf bare) / 2) ++ bare)
  | .right =>
    let bare := fit width overlong (stripRight line)
    spaces (width - cellsOf bare) ++ bare

/-- The distance between the stops of tabs. -/
def tabStop : Nat := 8

/-- Blanks up to the next stop in the place of each tab. -/
def expandTabs (column : Nat) : List Char → List Char
  | [] => []
  | '\t' :: rest =>
    let next := (column / tabStop + 1) * tabStop
    spaces (next - column) ++ expandTabs next rest
  | c :: rest => c :: expandTabs (column + cells c) rest

/-- The controls that are never printed. -/
def isDropped (c : Char) : Bool := [7, 8, 11, 12, 13].contains c.toNat

/-- What is printed of a text. -/
def printable (text : String) : List Char := text.toList.filter fun c => !isDropped c

/-- The lines of a text in a width. -/
def wrap (placing : Placing) (overlong : Overlong) (width : Nat) (text : String) :
    List (List Char) :=
  (splitList '\n' (printable text)).flatMap fun line =>
    (broken width overlong (expandTabs 0 line)).map fun part =>
      placed placing width overlong (trimEnd width part)

/-- The cells of the widest line of a text. -/
def widest (text : String) : Nat :=
  (linesFrom [] (printable text)).foldl (fun most line => max most (cellsOf line)) 0

/-- The lines that are printed of a text by itself. -/
def paragraph (width : Nat) (text : String) : List String :=
  (wrap .asIs .fold width text).map String.ofList

end RepoAtlas.Console
