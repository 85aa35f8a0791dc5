import RepoAtlas.Console.Wrap

/-! # Grids

Rows of cells under a header, in columns of which one takes the room that the others leave. The
title stands above the grid, a caption below it.
-/

namespace RepoAtlas.Console

/-- A column. -/
structure Column where
  header : String
  placing : Placing
  /-- The width of its texts; none if the column takes what is left. -/
  width : Option Nat

/-- A grid. -/
structure Grid where
  title : String
  columns : List Column
  rows : List (List String)
  caption : Option String

namespace Grid

/-- The blanks on both sides of a cell. -/
def margins : Nat := 2

/-- The least width of a column with its margins. -/
def leastWidth : Nat := 3

/-- The width of the borders. -/
def borders (g : Grid) : Nat := g.columns.length + 1

/-- The columns of fixed width with their margins. -/
def fixedWidth (g : Grid) : Nat :=
  g.columns.foldl (fun total c => total + (c.width.map (· + margins)).getD 0) 0

/-- The widths of the columns with their margins in a terminal of this width. -/
def widths (g : Grid) (width : Nat) : List Nat :=
  g.columns.map fun c =>
    match c.width with
    | some w => w + margins
    | none => max leastWidth (width - g.borders - g.fixedWidth)

/-- The lines of a cell in a column of this width. -/
def cellLines (column : Column) (width : Nat) (text : String) : List (List Char) :=
  (wrap column.placing .ellipsis (width - margins) text).map fun line =>
    ' ' :: padEnd (width - margins) line ++ [' ']

/-- Blank lines at the end up to the height. -/
def filled (height width : Nat) (lines : List (List Char)) : List (List Char) :=
  lines ++ List.replicate (height - lines.length) (spaces width)

/-- Pieces with borders around and between them. -/
def bordered (left between right : Char) (pieces : List (List Char)) : String :=
  String.ofList (left :: List.intercalate [between] pieces ++ [right])

/-- A line of borders. -/
def rule (left line between right : Char) (widths : List Nat) : String :=
  bordered left between right (widths.map fun w => List.replicate w line)

/-- The lines of a row. Blank lines are put above the texts of a header and below all others. -/
def rowLines (border : Char) (header : Bool) (columns : List Column) (widths : List Nat)
    (texts : List String) : List String :=
  let cells := (columns.zip (widths.zip texts)).map fun (c, w, t) => (w, cellLines c w t)
  let height := cells.foldl (fun most cell => max most cell.2.length) 1
  let columnsOfLines := cells.map fun (w, lines) =>
    if header then (filled height w lines.reverse).reverse else filled height w lines
  (List.range height).map fun i =>
    bordered border border border (columnsOfLines.map fun lines => lines.getD i [])

/-- The lines of a text above or below the grid. -/
def legend (width : Nat) (text : String) : List String :=
  (wrap .centre .fold width text).map String.ofList

/-- The lines of a grid in a terminal of this width. -/
def lines (g : Grid) (width : Nat) : List String :=
  let ws := g.widths width
  let whole := ws.foldl (· + ·) g.borders
  legend whole g.title ++
    [rule '┏' '━' '┳' '┓' ws] ++
    rowLines '┃' true g.columns ws (g.columns.map (·.header)) ++
    [rule '┡' '━' '╇' '┩' ws] ++
    g.rows.flatMap (rowLines '│' false g.columns ws) ++
    [rule '└' '─' '┴' '┘' ws] ++
    ((g.caption.map (legend whole)).getD [])

end Grid

end RepoAtlas.Console
