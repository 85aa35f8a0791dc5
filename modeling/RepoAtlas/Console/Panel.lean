import RepoAtlas.Console.Wrap

/-! # Panels

A text in a frame with a title. The frame is as wide as the longest line needs, but leaves room for
the title and is never wider than the terminal.
-/

namespace RepoAtlas.Console

/-- The width of a panel inside its frame. -/
def panelWidth (width : Nat) (title text : String) : Nat :=
  min (width - 2) (max (min (width - 2) (widest text + 2)) (title.length + 4))

/-- A line of a frame with a title in the middle. -/
def titled (width : Nat) (title : String) : List Char :=
  let shown := fit width .fold ((" " ++ title ++ " ").toList)
  let excess := width - Text.cellsOf shown
  let rule (n : Nat) : List Char := List.replicate n '─'
  rule (excess / 2) ++ shown ++ rule (excess - excess / 2)

/-- The lines of a panel. -/
def panel (width : Nat) (title text : String) : List String :=
  let inner := panelWidth width title text
  let body := (wrap .asIs .fold (inner - 2) text).map fun line =>
    "│ " ++ String.ofList (padEnd (inner - 2) line) ++ " │"
  [ "╭─" ++ String.ofList (titled (inner - 2) title) ++ "─╮" ] ++ body ++
    [ "╰" ++ String.ofList (List.replicate inner '─') ++ "╯" ]

end RepoAtlas.Console
