import RepoAtlas.Graph.Payload
import RepoAtlas.Proofs.Except
import RepoAtlas.Proofs.Json.RoundTrip

/-! # A rendered graph is read back

The text of a graph holds its whole payload: reading it gives the nodes, the edges and the summary
in their order, whatever the indent. The only floats in a payload are the sizes of nodes; an average
is written as a text. A graph has no text exactly if it has no payload, if a number in it has too many
digits, or if the indent is wider than a text can be long.
-/

namespace RepoAtlas

namespace Json

/-- An indent that is no wider than a text can be long. -/
def Fits (indent : Option Nat) : Prop := ∀ width ∈ indent, width ≤ widestIndent

theorem writeProblem?_eq_none_iff {indent : Option Nat} {v : Json} :
    writeProblem? indent v = none ↔ Fits indent ∧ ∀ n ∈ v.ints, Decimal.isShort n = true := by
  have wide : indent.filter (widestIndent < ·) = none ↔ Fits indent := by
    simp [Option.filter_eq_none_iff, Fits]
  rw [writeProblem?]
  split
  · rename_i width found
    have misfit : ¬Fits indent := fun fits => by simp [wide.mpr fits] at found
    simp [misfit]
  · rename_i fits
    simp [wide.mp fits, List.find?_eq_none]

theorem rendered_eq_ok_iff {payload : Json} {ascii : Bool} {indent : Option Nat} {text : String} :
    payload.rendered ascii indent = .ok text ↔
      Fits indent ∧ (∀ n ∈ payload.ints, Decimal.isShort n = true) ∧
        payload.text ascii indent = text := by
  rw [← and_assoc, ← writeProblem?_eq_none_iff, rendered, write]
  cases writeProblem? indent payload <;> simp [mapError_ok, mapError_error]

end Json

/-- The size with which a node is drawn. -/
def Node.size : Node → Float
  | .file f => f.size
  | .folder f => f.size

/-- The metrics of a node; those of a folder are zero. -/
def Node.numbers : Node → List Int
  | .file f => [f.loc, f.complexity, f.commits]
  | .folder _ => [0, 0, 0]

namespace RepoGraph

/-- The whole numbers that are written of a graph. -/
def numbers (g : RepoGraph) : List Int :=
  g.store.nodes.flatMap (·.numbers) ++ g.stats.mostEdited.map (·.commits) ++
    [g.stats.totalFiles, g.stats.clusters]

/-- A graph whose text can be read: it has a payload, its numbers are short, and the decimals of its
    sizes are the sizes again. -/
structure Legible (g : RepoGraph) : Prop where
  short : ∀ n ∈ g.numbers, Decimal.isShort n = true
  finite : ∀ node ∈ g.store.nodes, (Dyadic.ofFloat? node.size).isSome = true
  /-- The shortest decimal of a size, as it is written, is nearest to this size. -/
  readsBack : ∀ node ∈ g.store.nodes, Decimal.ReadsBack node.size
  average : ∃ text, averageText g.stats.avgComplexity = .ok text

theorem floats_nodes (nodes : List Node) :
    Json.itemFloats (nodes.map (·.toJson)) = nodes.map (·.size) := by
  induction nodes with
  | nil => rfl
  | cons node rest ih =>
      rw [List.map_cons, Json.itemFloats, ih]
      cases node <;> rfl

theorem floats_edges (edges : List Edge) : Json.itemFloats (edges.map (·.toJson)) = [] := by
  induction edges with
  | nil => rfl
  | cons edge rest ih =>
      have none : edge.toJson.floats = [] := by
        unfold Edge.toJson
        split <;> rfl
      rw [List.map_cons, Json.itemFloats, ih, none]
      rfl

theorem floats_mostEdited (entries : List ChurnEntry) :
    Json.itemFloats (entries.map (·.toJson)) = [] := by
  induction entries with
  | nil => rfl
  | cons entry rest ih =>
      rw [List.map_cons, Json.itemFloats, ih]
      rfl

theorem ints_nodes (nodes : List Node) :
    Json.itemInts (nodes.map (·.toJson)) = nodes.flatMap (·.numbers) := by
  induction nodes with
  | nil => rfl
  | cons node rest ih =>
      rw [List.map_cons, Json.itemInts, ih]
      cases node <;> rfl

theorem ints_edges (edges : List Edge) : Json.itemInts (edges.map (·.toJson)) = [] := by
  induction edges with
  | nil => rfl
  | cons edge rest ih =>
      have none : edge.toJson.ints = [] := by
        unfold Edge.toJson
        split <;> rfl
      rw [List.map_cons, Json.itemInts, ih, none]
      rfl

theorem ints_mostEdited (entries : List ChurnEntry) :
    Json.itemInts (entries.map (·.toJson)) = entries.map (·.commits) := by
  induction entries with
  | nil => rfl
  | cons entry rest ih =>
      rw [List.map_cons, Json.itemInts, ih]
      rfl

theorem toJson_eq_ok_iff {g : RepoGraph} {payload : Json} :
    g.toJson = .ok payload ↔ ∃ average, averageText g.stats.avgComplexity = .ok average ∧
      payload = .obj [("nodes", .arr (g.store.nodes.map (·.toJson))),
        ("edges", .arr (g.store.edges.map (·.toJson))),
        ("stats", .obj [("avgComplexity", .str average),
          ("mostEdited", .arr (g.stats.mostEdited.map (·.toJson))),
          ("totalFiles", .int g.stats.totalFiles), ("clusters", .int g.stats.clusters)])] := by
  rw [toJson, Stats.toJson]
  cases averageText g.stats.avgComplexity <;> simp [Except.map, eq_comm]

/-- The whole numbers of a payload are those of the graph. -/
theorem ints_payload {g : RepoGraph} {payload : Json} (built : g.toJson = .ok payload) :
    payload.ints = g.numbers := by
  obtain ⟨average, -, rfl⟩ := toJson_eq_ok_iff.mp built
  simp [Json.ints, Json.memberInts, ints_nodes, ints_edges, ints_mostEdited, numbers]

/-- The floats of a payload are the sizes of the nodes. -/
theorem floats_payload {g : RepoGraph} {payload : Json} (built : g.toJson = .ok payload) :
    payload.floats = g.store.nodes.map (·.size) := by
  obtain ⟨average, -, rfl⟩ := toJson_eq_ok_iff.mp built
  simp [Json.floats, Json.memberFloats, floats_nodes, floats_edges, floats_mostEdited]

/-- A graph has a text exactly if it has a payload, its numbers are short and the indent fits. -/
theorem render_eq_ok_iff {g : RepoGraph} {indent : Option Nat} {text : String} :
    g.render indent = .ok text ↔ ∃ payload, g.toJson = .ok payload ∧ Json.Fits indent ∧
      (∀ n ∈ g.numbers, Decimal.isShort n = true) ∧ payload.text false indent = text := by
  rw [render]
  cases built : g.toJson with
  | error problem => simp [bind, Except.bind]
  | ok payload => simp [bind, Except.bind, Json.rendered_eq_ok_iff, ints_payload built]

theorem Legible.exists_payload {g : RepoGraph} (legible : g.Legible) :
    ∃ payload, g.toJson = .ok payload ∧
      ∀ indent, Json.parse? (payload.text false indent) = some payload := by
  obtain ⟨text, average⟩ := legible.average
  have built := toJson_eq_ok_iff.mpr ⟨text, average, rfl⟩
  refine ⟨_, built, fun indent => Json.parse?_text indent fun x member => ?_⟩
  rw [floats_payload built, List.mem_map] at member
  obtain ⟨node, member, rfl⟩ := member
  exact ⟨legible.finite node member, legible.readsBack node member⟩

/-- What is read from the text of a graph is its payload. -/
theorem Legible.parse?_of_render {g : RepoGraph} (legible : g.Legible) {indent : Option Nat}
    {text : String} (rendered : g.render indent = .ok text) :
    ∃ payload, g.toJson = .ok payload ∧ Json.parse? text = some payload := by
  obtain ⟨payload, built, read⟩ := legible.exists_payload
  obtain ⟨payload', built', -, -, rfl⟩ := render_eq_ok_iff.mp rendered
  obtain rfl := Except.ok.inj (built.symm.trans built')
  exact ⟨payload, built, read indent⟩

/-- Reading the text of a graph gives its payload, whatever the indent, so graphs with different
    payloads have different texts. -/
theorem render_decodes {g : RepoGraph} (legible : g.Legible) :
    ∃ payload, g.toJson = .ok payload ∧
      (∀ indent, Json.Fits indent →
        ∃ text, g.render indent = .ok text ∧ Json.parse? text = some payload) ∧
      ∀ g' : RepoGraph, g'.Legible → ∀ indent indent' text,
        g.render indent = .ok text → g'.render indent' = .ok text → g'.toJson = .ok payload := by
  obtain ⟨payload, built, read⟩ := legible.exists_payload
  refine ⟨payload, built, fun indent fits => ?_, ?_⟩
  · exact ⟨_, render_eq_ok_iff.mpr ⟨payload, built, fits, legible.short, rfl⟩, read indent⟩
  · intro g' legible' indent indent' text rendered rendered'
    obtain ⟨own, built', back⟩ := legible.parse?_of_render rendered
    obtain ⟨other, built'', back'⟩ := legible'.parse?_of_render rendered'
    obtain rfl := Except.ok.inj (built.symm.trans built')
    rw [built'', Option.some.inj (back.symm.trans back')]

/-- A file with quotes, a control character and letters of other alphabets in its id, a folder whose
    size has an exponent, an import, and no most edited files. -/
def quoted : RepoGraph :=
  { root := none
    store :=
      { nodes :=
          [.file
            { id := "/r/\"\\\n\x01é😀.ts", label := "\t\x7f", cluster := ".", path := ""
              loc := 0, complexity := -7, commits := 100000000000000000000, color := "#fff"
              size := 5.301 },
           .folder
            { id := "", label := "\x7b\x7d", depth := 1, path := "/r", color := "", size := 1e22 }]
        edges := [{ source := "a", target := "b", kind := .imports, interFolder := true }] }
    stats := { totalFiles := 1, clusters := 1, avgComplexity := -7.5, mostEdited := [] } }

theorem render_decodes_quoted :
    quoted.Legible ∧ ∃ payload, quoted.toJson = .ok payload ∧
      (∀ indent, Json.Fits indent →
        ∃ text, quoted.render indent = .ok text ∧ Json.parse? text = some payload) ∧
      ∀ g' : RepoGraph, g'.Legible → ∀ indent indent' text, quoted.render indent = .ok text →
        g'.render indent' = .ok text → g'.toJson = .ok payload := by
  have written : (averageText quoted.stats.avgComplexity).toOption = some "-7.50" := by
    decide +kernel
  have average : ∃ text, averageText quoted.stats.avgComplexity = .ok text := by
    cases result : averageText quoted.stats.avgComplexity with
    | ok text => exact ⟨text, rfl⟩
    | error problem => simp [result, Except.toOption] at written
  have legible : quoted.Legible :=
    { short := by decide +kernel, finite := by decide +kernel, readsBack := by decide +kernel, average }
  exact ⟨legible, render_decodes legible⟩

/-- A graph of one file with so many lines. -/
def lined (loc : Int) : RepoGraph :=
  { root := none
    store :=
      { nodes :=
          [.file
            { id := "/r/a.ts", label := "a.ts", cluster := rootCluster, path := "/r/a.ts", loc
              complexity := 1, commits := 0, color := "", size := 4 }]
        edges := [] }
    stats := { totalFiles := 1, clusters := 1, avgComplexity := 1, mostEdited := [] } }

theorem mem_numbers_lined (loc : Int) : loc ∈ (lined loc).numbers := by
  simp [numbers, lined, Node.numbers]

/-- There is no text with a number of 4301 digits, and none with an indent that is too wide. -/
theorem render_refuses :
    (lined (Nat.pow 10 4300)).toJson.isOk = true ∧
      (∀ indent text, (lined (Nat.pow 10 4300)).render indent ≠ .ok text) ∧
      (lined 1).toJson.isOk = true ∧
      ∀ text, (lined 1).render (some 9223372036854775808) ≠ .ok text := by
  refine ⟨by decide +kernel, fun indent text rendered => ?_, by decide +kernel,
    fun text rendered => ?_⟩
  · obtain ⟨-, -, -, short, -⟩ := render_eq_ok_iff.mp rendered
    exact absurd (short _ (mem_numbers_lined _)) (by decide +kernel)
  · obtain ⟨-, -, fits, -⟩ := render_eq_ok_iff.mp rendered
    exact absurd (fits _ rfl) (by decide)

end RepoGraph

end RepoAtlas
