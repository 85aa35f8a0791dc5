import RepoAtlas.Decimal.Rounding
import RepoAtlas.Graph.Stats
import RepoAtlas.Json.Write

/-! # The graph as a payload

What a viewer of the graph gets: nodes, edges and the summary as JSON, in the order of the store.
The average is a text with two places, a half rounded away from zero; a text of more than 28 digits
is refused.
-/

namespace RepoAtlas

/-- Why there is no payload, or no text of it. -/
inductive PayloadProblem where
  /-- The average is infinite or has too many digits for two exact places. -/
  | averageTooLong (average : Float)
  | unwritable (problem : Json.WriteProblem)
  deriving Repr

/-- The text of a payload. -/
def Json.rendered (payload : Json) (ascii : Bool) (indent : Option Nat) :
    Except PayloadProblem String :=
  (payload.write ascii indent).mapError .unwritable

/-- The most digits of an average in units of its last place. -/
def mostAverageDigits : Nat := 28

/-- The average with two places. -/
def averageText (average : Float) : Except PayloadProblem String :=
  match Dyadic.ofFloat? average with
  | some v =>
    if (Decimal.digits (Decimal.units .awayFromZero 2 v)).length ≤ mostAverageDigits then
      .ok (Decimal.fixed .awayFromZero 2 v)
    else .error (.averageTooLong average)
  | none => if average.isNaN then .ok "NaN" else .error (.averageTooLong average)

/-- A node as JSON. Folders have no metrics of their own. -/
def Node.toJson : Node → Json
  | .file f =>
    .obj [("id", .str f.id), ("label", .str f.label), ("cluster", .str f.cluster),
      ("path", .str f.path), ("loc", .int f.loc), ("complexity", .int f.complexity),
      ("commits", .int f.commits), ("color", .str f.color), ("size", .float f.size),
      ("kind", .str "file")]
  | .folder f =>
    .obj [("id", .str f.id), ("label", .str f.label), ("cluster", .str f.id),
      ("path", .str f.path), ("loc", .int 0), ("complexity", .int 0), ("commits", .int 0),
      ("color", .str f.color), ("size", .float f.size), ("kind", .str "folder")]

/-- An edge as JSON. Only imports tell whether they cross folders. -/
def Edge.toJson (e : Edge) : Json :=
  .obj ([("from", .str e.source), ("to", .str e.target), ("kind", .str e.kind.name)] ++
    if e.kind = .imports then [("interFolder", .bool e.interFolder)] else [])

/-- An entry of the most edited files as JSON. -/
def ChurnEntry.toJson (e : ChurnEntry) : Json :=
  .obj [("file", .str e.file), ("commits", .int e.commits)]

/-- A summary as JSON. -/
def Stats.toJson (s : Stats) : Except PayloadProblem Json :=
  (averageText s.avgComplexity).map fun average =>
    .obj [("avgComplexity", .str average), ("mostEdited", .arr (s.mostEdited.map (·.toJson))),
      ("totalFiles", .int s.totalFiles), ("clusters", .int s.clusters)]

/-- A graph with its summary; without a root nothing was scanned. -/
structure RepoGraph where
  root : Option Path
  store : Store
  stats : Stats

namespace RepoGraph

/-- The graph of nothing. -/
def empty : RepoGraph := { root := none, store := Store.empty, stats := Stats.empty }

/-- The path behind a node. -/
def nodePath? (g : RepoGraph) (id : String) : Option String := (g.store.node? id).map (·.path)

/-- The whole graph as JSON. -/
def toJson (g : RepoGraph) : Except PayloadProblem Json :=
  g.stats.toJson.map fun stats =>
    .obj [("nodes", .arr (g.store.nodes.map (·.toJson))),
      ("edges", .arr (g.store.edges.map (·.toJson))), ("stats", stats)]

/-- The text of the whole graph. -/
def render (g : RepoGraph) (indent : Option Nat) : Except PayloadProblem String := do
  (← g.toJson).rendered false indent

end RepoGraph

end RepoAtlas
