import RepoAtlas.Console.Grid
import RepoAtlas.Console.Markup
import RepoAtlas.Console.Panel
import RepoAtlas.Explanation.Tiers
import RepoAtlas.Graph.Payload

/-! # Reports for a terminal

A graph is reported as a summary, a table of the files that were edited most and a table of
clusters; an explanation as a panel with the file's name and one paragraph for each tier.
-/

namespace RepoAtlas

/-- How to write an average: with two places, a half going to the even neighbour. -/
def shownAverage (average : Float) : String :=
  match Dyadic.ofFloat? average with
  | some v => Decimal.fixed .toEven 2 v
  | none => if average.isNaN then "nan" else if average < 0 then "-inf" else "inf"

namespace Report

open Console

/-- The word for an average complexity, with its colour. -/
def complexityLabel (average : Float) : String :=
  if 20 ≤ average then "[red bold]very high[/red bold]"
  else if 10 ≤ average then "[red]high[/red]"
  else if 5 ≤ average then "[yellow]moderate[/yellow]"
  else "[green]low[/green]"

/-- The name of a cluster, as markup. -/
def clusterLabel (printer : Printer) (cluster : String) : String :=
  if cluster = rootCluster then "(root)" else printer.escape cluster

/-- The path of a file as it is shown: without the root in front, if something is left then. -/
def displayPath (path : String) (root : Option String) : String :=
  match root with
  | none => path
  | some root =>
    if Text.startsWith path root then
      let rest := (path.toList.drop root.length).dropWhile fun c => c = '/' || c = '\\'
      if rest.isEmpty then path else String.ofList rest
    else path

/-- The summary of a graph, as markup. -/
def summary (g : RepoGraph) : String :=
  let imports := g.store.edgesOf .imports
  let crossing := imports.filter (·.interFolder)
  "Scanned [bold]" ++ toString g.stats.totalFiles ++ "[/bold] files in [cyan]" ++
    toString g.stats.clusters ++ "[/cyan] clusters  |  [yellow]" ++ toString imports.length ++
    "[/yellow] imports ([yellow]" ++ toString crossing.length ++
    "[/yellow] cross-folder)  |  Avg complexity: [blue]" ++ shownAverage g.stats.avgComplexity ++
    "[/blue] (" ++ complexityLabel g.stats.avgComplexity ++ ")"

/-- What is shown when no file was ever edited. -/
def noHistory : String := "No git history found for the scanned files."

/-- The table of the most edited files. -/
def mostEdited (printer : Printer) (g : RepoGraph) : Grid :=
  let entries := g.stats.mostEdited
  let root := g.root.map (·.text)
  { title := "Top " ++ toString entries.length ++ " Most Edited Files"
    columns :=
      [{ header := "#", placing := .left, width := some 4 },
       { header := "File", placing := .left, width := none },
       { header := "Commits", placing := .right, width := some 9 }]
    rows := entries.zipIdx.map fun (entry, i) =>
      let path := if entry.path = "" then entry.file else entry.path
      [toString (i + 1), printer.text (printer.escape (displayPath path root)),
        toString entry.commits]
    caption := none }

/-- A cluster with its number of files and lines. -/
structure Cluster where
  name : String
  files : Nat
  lines : Int
  deriving DecidableEq, Repr

/-- The clusters of files in the order in which they are first met. -/
def clusters (files : List FileNode) : List Cluster :=
  (files.map (·.cluster)).eraseDups.map fun name =>
    let members := files.filter (·.cluster == name)
    { name, files := members.length, lines := members.foldl (fun total file => total + file.loc) 0 }

/-- The clusters of most files first. -/
def ranked (cs : List Cluster) : List Cluster := cs.mergeSort fun a b => b.files ≤ a.files

/-- How many clusters are shown when nothing else is set. -/
def usualClusters : Int := 15

/-- The table of clusters, with so many rows at most. -/
def clusterTable (printer : Printer) (files : List FileNode) (most : Int) : Grid :=
  let all := clusters files
  { title := "Clusters"
    columns :=
      [{ header := "Cluster", placing := .left, width := none },
       { header := "Files", placing := .right, width := some 7 },
       { header := "Lines", placing := .right, width := some 9 }]
    rows := ((ranked all).take most.toNat).map fun c =>
      [printer.text (clusterLabel printer c.name), toString c.files, toString c.lines]
    caption :=
      if most < all.length then
        some (toString ((all.length : Int) - most) ++ " more clusters not shown")
      else none }

/-- The lines of the report of a graph. -/
def ofGraph (printer : Printer) (g : RepoGraph) (most : Int) (width : Nat) : List String :=
  let files := g.store.files
  panel width "Summary" (printer.text (summary g)) ++ [""] ++
    (if g.stats.mostEdited.isEmpty then paragraph width noHistory
     else (mostEdited printer g).lines width) ++ [""] ++
    if files.isEmpty then [] else (clusterTable printer files most).lines width ++ [""]

/-- The lines of the report of an explanation; tiers without text are left out. -/
def ofExplanation (printer : Printer) (label : String) (e : Explanation) (width : Nat) : List String :=
  panel width "Explain" (printer.text ("[bold]" ++ printer.escape label ++ "[/bold]")) ++ [""] ++
    e.sections.flatMap fun (title, body) =>
      if body = "" then []
      else paragraph width title ++ paragraph width body ++ [""]

end Report

end RepoAtlas
