import RepoAtlas.Proofs.Graph.Stages

/-! # What a built graph holds

The nodes of `Store.assembled` by tier and its edges by kind. Imports and rollups come from the
imports among known files, the hierarchy from folders and files; no kind hides edges of another.
-/

namespace RepoAtlas

open Builder

def Edge.ends (e : Edge) : String × String := (e.source, e.target)

/-- What is kept of an empty file. -/
def ScannedFile.blank (name : String) : ScannedFile :=
  { path := Path.parse name, metrics := Metrics.ofText "" 0, specifiers := [] }

namespace Builder

theorem filter_kind_same {edges : List Edge} {kind : EdgeKind} (all : ∀ e ∈ edges, e.kind = kind) :
    edges.filter (·.kind == kind) = edges :=
  List.filter_eq_self.mpr fun e member => by simp [all e member]

theorem filter_kind_other {edges : List Edge} {kind other : EdgeKind}
    (all : ∀ e ∈ edges, e.kind = other) (differ : other ≠ kind) :
    edges.filter (·.kind == kind) = [] :=
  List.filter_eq_nil_iff.mpr fun e member => by simpa [all e member] using differ

section Description

variable (root : Path) (withFolders : Bool) (files : List ScannedFile)

/-- The imports of one known file by another. -/
def imported (known : List Path) (imports : List (Path × List Path)) : List (Path × Path) :=
  (requests imports).filter fun pair =>
    decide (pair.1 ≠ pair.2 ∧ pair.1 ∈ known ∧ pair.2 ∈ known)

def importEdge (pair : Path × Path) : Edge :=
  ⟨pair.1.text, pair.2.text, .imports, crosses root pair.1 pair.2⟩

/-- The links that hold folders and files, as they come. -/
def hierarchyEdges : List Edge :=
  (foldersAbove root withFolders files).flatMap folderEdges ++
    files.flatMap (fileEdges root withFolders)

end Description

variable {root : Path} {withFolders : Bool} {files : List ScannedFile}

theorem mem_imported {known : List Path} {imports : List (Path × List Path)} {a b : Path} :
    (a, b) ∈ imported known imports ↔
      (∃ targets, (a, targets) ∈ imports ∧ b ∈ targets) ∧ a ≠ b ∧ a ∈ known ∧ b ∈ known := by
  simp only [imported, requests, List.mem_filter, List.mem_flatMap, List.mem_map, Prod.mk.injEq,
    decide_eq_true_eq]
  constructor
  · rintro ⟨⟨⟨_, targets⟩, row, _, member, rfl, rfl⟩, rest⟩
    exact ⟨⟨targets, row, member⟩, rest⟩
  · rintro ⟨⟨targets, row, member⟩, rest⟩
    exact ⟨⟨(a, targets), row, b, member, rfl, rfl⟩, rest⟩

theorem importEdge_injective {pair other : Path × Path}
    (same : (importEdge root pair).ends = (importEdge root other).ends) : pair = other := by
  simp only [Edge.ends, importEdge, Prod.mk.injEq] at same
  exact Prod.ext (Path.text_injective same.1) (Path.text_injective same.2)

theorem kind_hierarchyEdges :
    ∀ e ∈ hierarchyEdges root withFolders files, e.kind = .hierarchy := kind_hierarchy

/-- The links of all imports are those of the imports among known files. -/
theorem flatMap_importEdges (known : List Path) (imports : List (Path × List Path)) :
    (requests imports).flatMap (importEdges root withFolders known) =
      (imported known imports).flatMap fun pair =>
        importEdge root pair :: rollupEdges root withFolders pair.1 pair.2 := by
  rw [imported]
  induction requests imports with
  | nil => rfl
  | cons pair rest ih =>
      rw [List.flatMap_cons, ih, List.filter_cons]
      by_cases among : pair.1 ≠ pair.2 ∧ pair.1 ∈ known ∧ pair.2 ∈ known
      · rw [if_pos (decide_eq_true among), List.flatMap_cons, importEdges, if_pos among]
        rfl
      · rw [if_neg (by simpa using among), importEdges_of_not among, List.nil_append]

end Builder

namespace Store

variable (root : Path) (withFolders : Bool) (files : List ScannedFile)
  (imports : List (Path × List Path))

theorem files_assembled :
    (assembled root withFolders files imports).files =
      (firstsBy (·.path) files).map (recordOf root) := by
  have folders : ((foldersAbove root withFolders files).map
      (.folder <| folderNode root ·)).filterMap Node.file? = [] := by
    simp [List.filterMap_map, Node.file?, Function.comp_def]
  rw [Store.files, assembled, List.filterMap_append, folders, List.nil_append, List.filterMap_map]
  exact congrFun List.filterMap_eq_map _

theorem folders_assembled :
    (assembled root withFolders files imports).folders =
      (foldersAbove root withFolders files).map (folderNode root) := by
  have files' : ((firstsBy (·.path) files).map (nodeOf root)).filterMap Node.folder? = [] := by
    simp [List.filterMap_map, Node.folder?, nodeOf, Function.comp_def]
  rw [Store.folders, assembled, List.filterMap_append, files', List.append_nil, List.filterMap_map]
  exact congrFun List.filterMap_eq_map _

theorem ids_folders_assembled :
    (assembled root withFolders files imports).folders.map (·.id) =
      (foldersAbove root withFolders files).map Path.joined := by
  rw [folders_assembled, List.map_map]
  rfl

theorem ids_assembled :
    (assembled root withFolders files imports).nodes.map Node.id =
      (foldersAbove root withFolders files).map Path.joined ++
        (files.map (·.path.text)).eraseDups := by
  have texts : (files.map (·.path)).eraseDups.map Path.text =
      (files.map (·.path.text)).eraseDups := by
    rw [map_eraseDups fun _ _ _ _ => Path.text_injective, List.map_map]
    rfl
  rw [assembled, List.map_append, ids_nodeOf, texts, List.map_map]
  rfl

theorem edges_assembled :
    (assembled root withFolders files imports).edges =
      (hierarchyEdges root withFolders files ++
        (imported (files.map (·.path)) imports).flatMap fun pair =>
          importEdge root pair :: rollupEdges root withFolders pair.1 pair.2).eraseDups := by
  rw [← flatMap_importEdges]
  rfl

theorem edgesOf_hierarchy_assembled :
    (assembled root withFolders files imports).edgesOf .hierarchy =
      (hierarchyEdges root withFolders files).eraseDups := by
  have none : ∀ pair : Path × Path,
      (importEdge root pair :: rollupEdges root withFolders pair.1 pair.2).filter
        (·.kind == .hierarchy) = [] := by
    intro pair
    rw [List.filter_cons_of_neg (by simp [importEdge])]
    exact filter_kind_other kind_rollupEdges (by decide)
  rw [edgesOf, edges_assembled, filter_eraseDups, List.filter_append, List.filter_flatMap,
    filter_kind_same kind_hierarchyEdges]
  rw [List.flatMap_eq_nil_iff.mpr fun pair _ => none pair, List.append_nil]

theorem edgesOf_imports_assembled :
    (assembled root withFolders files imports).edgesOf .imports =
      ((imported (files.map (·.path)) imports).map (importEdge root)).eraseDups := by
  have one : ∀ pair : Path × Path,
      (importEdge root pair :: rollupEdges root withFolders pair.1 pair.2).filter
        (·.kind == .imports) = [importEdge root pair] := by
    intro pair
    rw [List.filter_cons_of_pos (by simp [importEdge])]
    exact congrArg _ (filter_kind_other kind_rollupEdges (by decide))
  rw [edgesOf, edges_assembled, filter_eraseDups, List.filter_append, List.filter_flatMap,
    filter_kind_other kind_hierarchyEdges (by decide), List.nil_append]
  simp only [one, ← List.map_eq_flatMap]

theorem edgesOf_rollup_assembled :
    (assembled root withFolders files imports).edgesOf .rollup =
      ((imported (files.map (·.path)) imports).flatMap fun pair =>
        rollupEdges root withFolders pair.1 pair.2).eraseDups := by
  have rest : ∀ pair : Path × Path,
      (importEdge root pair :: rollupEdges root withFolders pair.1 pair.2).filter
        (·.kind == .rollup) = rollupEdges root withFolders pair.1 pair.2 := by
    intro pair
    rw [List.filter_cons_of_neg (by simp [importEdge])]
    exact filter_kind_same kind_rollupEdges
  rw [edgesOf, edges_assembled, filter_eraseDups, List.filter_append, List.filter_flatMap,
    filter_kind_other kind_hierarchyEdges (by decide), List.nil_append]
  simp only [rest]

end Store

end RepoAtlas
