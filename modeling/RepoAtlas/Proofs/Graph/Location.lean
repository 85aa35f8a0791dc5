import RepoAtlas.Graph.Payload
import RepoAtlas.Proofs.Graph.Forest
import RepoAtlas.Proofs.Graph.Separation

/-! # Where nodes lie

Every node of a graph stands for a path: a file for its own, a folder for its components taken from
the root. The paths of folders are the proper ancestors of files below the root, so no two nodes
share a path as long as no file is an ancestor of another, and a folder is found again from its path
by taking the root off. The clusters of two files are equal exactly if the files lie in one folder.
-/

namespace RepoAtlas

open Builder

/-! ## Below a root -/

namespace Path

section Below

variable {root p : Path} {parts : List String}

/-- What begins a path below the root leads to one of its ancestors. -/
theorem Within.within_join (within : p.Within root)
    (proper : ∀ part ∈ parts, isComponent part = true) (before : parts <+: root.beyond p) :
    p.Within (root.join (parse (joined parts))) := by
  obtain ⟨below, beyond⟩ := join_parse_joined root proper
  refine ⟨within.1.trans below.1.symm, ?_⟩
  rw [within.parts_eq, below.parts_eq, beyond]
  exact (List.prefix_append_right_inj root.parts).mpr before

/-- The parent of a path below the root lies where the last component is left out. -/
theorem Within.parent_eq_join (within : p.Within root) (deep : root.beyond p ≠ []) :
    p.parent = root.join (parse (joined (root.beyond p).dropLast)) := by
  have proper : ∀ part ∈ (root.beyond p).dropLast, isComponent part = true :=
    fun part member => root.proper_beyond p part (List.dropLast_subset _ member)
  obtain ⟨below, beyond⟩ := join_parse_joined root proper
  refine Path.ext (within.1.trans below.1.symm) ?_
  rw [below.parts_eq, beyond, ← List.dropLast_append_of_ne_nil deep, ← within.parts_eq]
  rfl

theorem Within.eq_or_parent_eq (within : p.Within root) (top : (root.beyond p).dropLast = []) :
    p = root ∨ p.parent = root := by
  by_cases here : root.beyond p = []
  · left
    exact Path.ext within.1 (by rw [within.parts_eq, here, List.append_nil])
  · right
    refine Path.ext within.1 ?_
    change p.parts.dropLast = root.parts
    rw [within.parts_eq, List.dropLast_append_of_ne_nil here, top, List.append_nil]

end Below

end Path

/-! ## What a node stands for -/

/-- What a graph tells of the paths of its nodes: each id of a node has one, and each its own; it is
    the id of a file, and for a folder the path below the root that the id spells. The folder of a
    file's cluster lies where the file's parent does, unless that is the root. -/
structure RepoGraph.Locates (g : RepoGraph) (root : Path) (files : List ScannedFile) : Prop where
  known : ∀ id, (∃ path, g.nodePath? id = some path) ↔ id ∈ g.store.nodes.map Node.id
  apart : ∀ id id' path, g.nodePath? id = some path → g.nodePath? id' = some path → id = id'
  ofFiles : ∀ f ∈ g.store.files, g.nodePath? f.id = some f.id
  ofFolders : ∀ d ∈ g.store.folders, ∃ p below : Path, g.nodePath? d.id = some p.text ∧
    p.relativeTo? root = some below ∧ below.text = d.id
  ofClusters : ∀ file ∈ files, ∃ f, g.store.node? file.path.text = some (.file f) ∧
    ((file.path = root ∨ file.path.parent = root) ∧ f.cluster = rootCluster ∧
        g.nodePath? f.cluster = none ∨
      ∃ d, g.store.node? f.cluster = some (.folder d) ∧
        g.nodePath? f.cluster = some file.path.parent.text)

/-- The path that a node of a build stands for. -/
inductive Stands (root : Path) (files : List ScannedFile) : Node → Path → Prop where
  | folder {parts : List String} (above : parts ∈ foldersAbove root true files) :
      Stands root files (.folder (folderNode root parts)) (root.join (Path.parse (Path.joined parts)))
  | file {file : ScannedFile} (member : file ∈ files) : Stands root files (nodeOf root file) file.path

section Stands

variable {root : Path} {files : List ScannedFile} {imports : List (Path × List Path)} {node : Node}

theorem exists_stands (member : node ∈ (Store.assembled root true files imports).nodes) :
    ∃ p, Stands root files node p := by
  rcases List.mem_append.mp member with folder | file
  · obtain ⟨parts, above, rfl⟩ := List.mem_map.mp folder
    exact ⟨_, .folder above⟩
  · obtain ⟨scanned, first, rfl⟩ := List.mem_map.mp file
    exact ⟨_, .file ((firstsBy_sublist (·.path) files).subset first)⟩

theorem Stands.path_eq {p : Path} (stands : Stands root files node p) : node.path = p.text := by
  cases stands <;> rfl

/-- The path of a folder is that of no file unless the file is an ancestor of another. -/
theorem folder_ne_file (within : ∀ file ∈ files, file.path.Within root)
    (leaves : ∀ file ∈ files, ∀ other ∈ files, other.path.Within file.path → other.path = file.path)
    {parts : List String} (above : parts ∈ foldersAbove root true files) {file : ScannedFile}
    (member : file ∈ files) : root.join (Path.parse (Path.joined parts)) ≠ file.path := by
  intro same
  have proper := (proper_of_mem_foldersAbove above).2
  obtain ⟨other, inside, -, before, strict⟩ := mem_foldersAbove.mp above
  have below := (within other inside).within_join proper before
  rw [same] at below
  have reached : root.join (Path.parse (Path.joined parts)) = other.path :=
    same.trans (leaves file member other inside below).symm
  exact strict (by rw [← reached, (Path.join_parse_joined root proper).2])

/-- No two nodes stand for one path. -/
theorem Stands.id_eq (within : ∀ file ∈ files, file.path.Within root)
    (leaves : ∀ file ∈ files, ∀ other ∈ files, other.path.Within file.path → other.path = file.path)
    {node' : Node} {p q : Path} (stands : Stands root files node p)
    (stands' : Stands root files node' q) (same : p = q) : node.id = node'.id := by
  cases stands with
  | folder above =>
      cases stands' with
      | folder above' =>
          have beyond := congrArg root.beyond same
          rw [(Path.join_parse_joined root (proper_of_mem_foldersAbove above).2).2,
            (Path.join_parse_joined root (proper_of_mem_foldersAbove above').2).2] at beyond
          exact congrArg Path.joined beyond
      | file member => exact absurd same (folder_ne_file within leaves above member)
  | file member =>
      cases stands' with
      | folder above => exact absurd same.symm (folder_ne_file within leaves above member)
      | file => exact congrArg Path.text same

/-- Every file has a node, that of the first file with its path, in the cluster of both. -/
theorem exists_record (withFolders : Bool) (imports : List (Path × List Path)) {file : ScannedFile}
    (member : file ∈ files) :
    ∃ f, .file f ∈ (Store.assembled root withFolders files imports).nodes ∧
      f.id = file.path.text ∧ f.cluster = clusterOf root file.path := by
  have held : file.path ∈ (firstsBy (·.path) files).map (·.path) := by
    rw [map_firstsBy, List.mem_eraseDups]
    exact List.mem_map_of_mem member
  obtain ⟨first, among, same⟩ := List.mem_map.mp held
  exact ⟨recordOf root first, List.mem_append_right _ (List.mem_map_of_mem among),
    congrArg Path.text same, congrArg (clusterOf root) same⟩

end Stands

/-! ## Locating -/

section Located

variable {root : Path} {files : List ScannedFile} {g : RepoGraph}

theorem exists_of_nodePath? {id path : String} (found : g.nodePath? id = some path) :
    ∃ node ∈ g.store.nodes, node.id = id ∧ node.path = path := by
  obtain ⟨node, known, rfl⟩ := Option.map_eq_some_iff.mp found
  obtain ⟨member, same⟩ := Store.of_node? known
  exact ⟨node, member, same, rfl⟩

theorem nodePath?_eq_none_iff {id : String} :
    g.nodePath? id = none ↔ id ∉ g.store.nodes.map Node.id := by
  rw [RepoGraph.nodePath?, Option.map_eq_none_iff, Store.node?, List.find?_eq_none]
  simp

variable (absolute : root.isAbsolute = true) (within : ∀ file ∈ files, file.path.Within root)
  (nodes : g.store.nodes = (Store.assembled root true files []).nodes)

include absolute within nodes

theorem node?_iff {id : String} {node : Node} :
    g.store.node? id = some node ↔ node ∈ g.store.nodes ∧ node.id = id :=
  Store.node?_eq_some_iff (nodes ▸ Store.nodup_ids_assembled absolute within)

/-- Each node is found by its id, with the path that it stands for. -/
theorem nodePath?_of_mem {node : Node} (member : node ∈ g.store.nodes) :
    g.nodePath? node.id = some node.path := by
  rw [RepoGraph.nodePath?, (node?_iff absolute within nodes).mpr ⟨member, rfl⟩]
  rfl

theorem nodePath?_folder {parts : List String} (above : parts ∈ foldersAbove root true files) :
    g.store.node? (Path.joined parts) = some (.folder (folderNode root parts)) ∧
      g.nodePath? (Path.joined parts) = some (root.join (Path.parse (Path.joined parts))).text := by
  have member : .folder (folderNode root parts) ∈ g.store.nodes := by
    rw [nodes]
    exact List.mem_append_left _ (List.mem_map_of_mem above)
  exact ⟨(node?_iff absolute within nodes).mpr ⟨member, rfl⟩,
    nodePath?_of_mem absolute within nodes member⟩

theorem locates_files : ∀ f ∈ g.store.files, g.nodePath? f.id = some f.id := by
  intro f member
  obtain ⟨node, inside, file⟩ := List.mem_filterMap.mp member
  obtain ⟨p, stands⟩ := exists_stands (nodes ▸ inside)
  have found := nodePath?_of_mem absolute within nodes inside
  cases stands with
  | folder => cases file
  | file =>
      cases file
      exact found

theorem locates_folders : ∀ d ∈ g.store.folders, ∃ p below : Path,
    g.nodePath? d.id = some p.text ∧ p.relativeTo? root = some below ∧ below.text = d.id := by
  intro d member
  obtain ⟨node, inside, folder⟩ := List.mem_filterMap.mp member
  obtain ⟨p, stands⟩ := exists_stands (nodes ▸ inside)
  cases stands with
  | file => cases folder
  | folder above =>
      cases folder
      obtain ⟨nonempty, proper⟩ := proper_of_mem_foldersAbove above
      obtain ⟨below, beyond⟩ := Path.join_parse_joined root proper
      obtain ⟨q, relative, spelled⟩ := below.exists_relative (beyond.symm ▸ nonempty)
      rw [beyond] at spelled
      exact ⟨_, q, (nodePath?_folder absolute within nodes above).2, relative, spelled⟩

/-- A file in the root has no folder; that of any other file lies where the file's parent does. -/
theorem locates_clusters {file : ScannedFile} (member : file ∈ files) :
    (file.path = root ∨ file.path.parent = root) ∧ clusterOf root file.path = rootCluster ∧
        g.nodePath? (clusterOf root file.path) = none ∨
      ∃ d, g.store.node? (clusterOf root file.path) = some (.folder d) ∧
        g.nodePath? (clusterOf root file.path) = some file.path.parent.text := by
  by_cases top : (root.beyond file.path).dropLast = []
  · have cluster := clusterOf_eq_rootCluster_iff.mpr top
    refine .inl ⟨(within file member).eq_or_parent_eq top, cluster, nodePath?_eq_none_iff.mpr ?_⟩
    rw [cluster, nodes, Store.ids_assembled, List.mem_append, List.mem_map]
    rintro (⟨parts, above, same⟩ | text)
    · obtain ⟨nonempty, proper⟩ := proper_of_mem_foldersAbove above
      exact Path.joined_ne_dot nonempty proper same
    · obtain ⟨other, inside, same⟩ := List.mem_map.mp (List.mem_eraseDups.mp text)
      exact Path.dot_ne_text ((within other inside).isAbsolute absolute) same.symm
  · have deep : root.beyond file.path ≠ [] := fun empty => top (by rw [empty]; rfl)
    obtain ⟨before, strict⟩ := (prefix_dropLast_iff top).mp List.prefix_rfl
    have above : (root.beyond file.path).dropLast ∈ foldersAbove root true files :=
      mem_foldersAbove.mpr ⟨file, member, top, before, strict⟩
    obtain ⟨found, path⟩ := nodePath?_folder absolute within nodes above
    rw [clusterOf_of_deep top, (within file member).parent_eq_join deep]
    exact .inr ⟨_, found, path⟩

theorem node?_file {file : ScannedFile} (member : file ∈ files) :
    ∃ f, g.store.node? file.path.text = some (.file f) ∧ f.cluster = clusterOf root file.path := by
  obtain ⟨f, inside, own, cluster⟩ := exists_record true [] member
  exact ⟨f, (node?_iff absolute within nodes).mpr ⟨nodes ▸ inside, own⟩, cluster⟩

end Located

/-! ## Files and their clusters -/

section Clusters

variable {root : Path} {withFolders : Bool} {files : List ScannedFile}
  {imports : List (Path × List Path)} {s : Store}

theorem mem_files_of_build (absolute : root.isAbsolute = true)
    (built : Store.build root withFolders files imports = .ok s) {file : ScannedFile}
    (member : file ∈ files) :
    ∃ f ∈ s.files, f.id = file.path.text ∧ f.cluster = clusterOf root file.path := by
  have nodes : s.nodes = (Store.assembled root withFolders files []).nodes :=
    congrArg Prod.fst (tree_of_build absolute (within_of_build built) (measured_of_build built) built)
  obtain ⟨f, inside, own, cluster⟩ := exists_record withFolders [] member
  exact ⟨f, List.mem_filterMap.mpr ⟨.file f, nodes ▸ inside, rfl⟩, own, cluster⟩

/-- Of two files below the root, neither of which is the root itself, the clusters are equal if the
    files lie in one folder. -/
theorem clusterOf_eq_iff {p q : Path} (within : p.Within root) (within' : q.Within root)
    (below : p ≠ root) (below' : q ≠ root) :
    clusterOf root p = clusterOf root q ↔ p.parent = q.parent := by
  have parts : ∀ {r : Path}, r.Within root → r ≠ root →
      r.parent.parts = root.parts ++ (root.beyond r).dropLast := by
    intro r inside apart
    change r.parts.dropLast = _
    rw [inside.parts_eq, List.dropLast_append_of_ne_nil (inside.beyond_ne_nil apart)]
  have proper : ∀ r : Path, ∀ part ∈ (root.beyond r).dropLast, isComponent part = true :=
    fun r part member => root.proper_beyond r part (List.dropLast_subset _ member)
  have folders : p.parent = q.parent ↔ (root.beyond p).dropLast = (root.beyond q).dropLast := by
    constructor
    · intro same
      have both := congrArg Path.parts same
      rwa [parts within below, parts within' below', List.append_right_inj] at both
    · intro same
      refine Path.ext (within.1.trans within'.1.symm) ?_
      rw [parts within below, parts within' below', same]
  rw [folders]
  constructor
  · intro same
    by_cases top : (root.beyond p).dropLast = []
    · rw [top, clusterOf_eq_rootCluster_iff.mp (same ▸ clusterOf_eq_rootCluster_iff.mpr top)]
    · have deep : (root.beyond q).dropLast ≠ [] := fun empty =>
        top (clusterOf_eq_rootCluster_iff.mp (same.trans (clusterOf_eq_rootCluster_iff.mpr empty)))
      rw [clusterOf_of_deep top, clusterOf_of_deep deep] at same
      exact Path.joined_injective (proper p) (proper q) same
  · intro same
    rw [clusterOf, clusterOf, folderOf, folderOf, same]

end Clusters

namespace RepoGraph

variable {root : Path} {files : List ScannedFile} {imports : List (Path × List Path)}

/-- Whatever the imports are, a graph that is built with folders locates its nodes if no file is an
    ancestor of another. -/
theorem locates_of_build (absolute : root.isAbsolute = true)
    (within : ∀ file ∈ files, file.path.Within root)
    (leaves : ∀ file ∈ files, ∀ other ∈ files, other.path.Within file.path → other.path = file.path)
    {g : RepoGraph} (built : Store.build root true files imports = .ok g.store) :
    g.Locates root files := by
  have nodes : g.store.nodes = (Store.assembled root true files []).nodes :=
    congrArg Prod.fst (tree_of_build absolute within (measured_of_build built) built)
  constructor
  case known =>
    intro id
    rw [← Option.isSome_iff_exists, ← not_iff_not, Bool.not_eq_true, Option.isSome_eq_false_iff,
      Option.isNone_iff_eq_none, nodePath?_eq_none_iff]
  case apart =>
    intro id id' path found found'
    obtain ⟨node, member, rfl, rfl⟩ := exists_of_nodePath? found
    obtain ⟨node', member', rfl, same⟩ := exists_of_nodePath? found'
    obtain ⟨p, stands⟩ := exists_stands (nodes ▸ member)
    obtain ⟨q, stands'⟩ := exists_stands (nodes ▸ member')
    refine stands.id_eq within leaves stands' (Path.text_injective ?_)
    rw [← stands.path_eq, ← stands'.path_eq, same]
  case ofFiles => exact locates_files absolute within nodes
  case ofFolders => exact locates_folders absolute within nodes
  case ofClusters =>
    intro file member
    obtain ⟨f, found, cluster⟩ := node?_file absolute within nodes member
    refine ⟨f, found, ?_⟩
    rw [cluster]
    exact locates_clusters absolute within nodes member

/-- Below the root of the file system, a file in it, files of nested folders, and a folder met again
    below another one. -/
theorem locates_of_build_nested : ∃ g : RepoGraph,
    Store.build (Path.parse "/") true
        (["/a/b/c/x.ts", "/y.ts", "/a/z.ts", "/b/a/w.ts"].map ScannedFile.blank)
        [(Path.parse "/y.ts", [Path.parse "/a/z.ts"])] = .ok g.store ∧
      g.Locates (Path.parse "/")
        (["/a/b/c/x.ts", "/y.ts", "/a/z.ts", "/b/a/w.ts"].map ScannedFile.blank) :=
  have built := build_eq_assembled (by decide) (by decide) (by decide) (by decide)
  ⟨⟨some (Path.parse "/"), _, Stats.empty⟩, built,
    locates_of_build (by decide) (by decide) (by decide) built⟩

end RepoGraph

end RepoAtlas
