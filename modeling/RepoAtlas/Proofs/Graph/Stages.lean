import RepoAtlas.Proofs.Graph.Assembly

/-! # The stages of a build

Every loop of the build is led from stage to stage, so a build of files under the root ends at
`Store.assembled`. The clusters at both ends decide whether an edge crosses folders. That makes
edges with one key equal, and to add an edge is to append it and to remove later occurrences.
Files are taken to have a size: their lines were counted, see `measured_ofText`.
-/

namespace RepoAtlas.Builder

open Store (TwoTiers)

variable {root : Path} {withFolders : Bool}

/-- The mark of an edge is what its kind and its ends make of it. -/
def Marked (root : Path) (e : Edge) : Prop :=
  e.interFolder = (e.kind == .imports && crosses root (Path.parse e.source) (Path.parse e.target))

theorem Marked.eq_of_key {e e' : Edge} (marked : Marked root e) (marked' : Marked root e')
    (same : e.key = e'.key) : e = e' := by
  obtain ⟨source, target, kind, inter⟩ := e
  obtain ⟨source', target', kind', inter'⟩ := e'
  simp only [Edge.key, Prod.mk.injEq] at same
  obtain ⟨rfl, rfl, rfl⟩ := same
  simp only [Marked] at marked marked'
  rw [marked, marked']

/-- Only imports are ever marked. -/
theorem marked_of_ne_imports {source target : String} {kind : EdgeKind} (other : kind ≠ .imports) :
    Marked root ⟨source, target, kind, false⟩ := by
  have flag : (kind == .imports) = false := by simpa using other
  simp [Marked, flag]

theorem marked_import (a b : Path) : Marked root ⟨a.text, b.text, .imports, crosses root a b⟩ := by
  simp [Marked, Path.parse_text]

theorem marked_folderEdges {parts : List String} : ∀ e ∈ folderEdges parts, Marked root e := by
  intro e member
  rw [(mem_folderEdges.mp member).2]
  exact marked_of_ne_imports (by decide)

theorem marked_fileEdges {file : ScannedFile} :
    ∀ e ∈ fileEdges root withFolders file, Marked root e := by
  intro e member
  rw [(mem_fileEdges.mp member).2]
  exact marked_of_ne_imports (by decide)

theorem marked_importEdges {known : List Path} {pair : Path × Path} :
    ∀ e ∈ importEdges root withFolders known pair, Marked root e := by
  intro e member
  rcases (mem_importEdges.mp member).2 with rfl | rollup
  · exact marked_import _ _
  · rw [(mem_rollupEdges.mp rollup).2]
    exact marked_of_ne_imports (by decide)

/-- Adding an edge between nodes appends it if it is new. -/
theorem link_eq {s : Store} (held : List Edge) (e : Edge) (edges : s.edges = held.eraseDups)
    (marked : ∀ e' ∈ held, Marked root e') (new : Marked root e)
    (source : s.hasNode e.source = true) (target : s.hasNode e.target = true) :
    link s e.source e.target e.kind e.interFolder =
      .ok (decide (e ∉ held), { s with edges := (held ++ [e]).eraseDups }) := by
  have found : s.hasEdge e.source e.target e.kind = true ↔ e ∈ held := by
    rw [Store.hasEdge_iff, edges, List.mem_map]
    constructor
    · rintro ⟨e', member, same⟩
      have old := List.mem_eraseDups.mp member
      exact (marked e' old).eq_of_key new same ▸ old
    · exact fun old => ⟨e, List.mem_eraseDups.mpr old, rfl⟩
  by_cases old : e ∈ held
  · simp only [link, Store.addEdge, found.mpr old, if_true, eraseDups_concat, old, not_true_eq_false,
      decide_false, ← edges]
  · have fresh : s.hasEdge e.source e.target e.kind = false := by
      rw [← Bool.not_eq_true, found]; exact old
    simp only [link, Store.addEdge, fresh, source, target, eraseDups_concat, old, if_false, edges,
      Bool.not_true, Bool.false_eq_true, not_false_eq_true, decide_true]

/-! ## Folders -/

theorem mem_foldersAbove {files : List ScannedFile} {parts : List String} :
    parts ∈ foldersAbove root true files ↔
      ∃ file ∈ files, parts ≠ [] ∧ parts <+: root.beyond file.path ∧
        parts ≠ root.beyond file.path := by
  simp only [foldersAbove, if_true, List.mem_eraseDups, List.mem_flatMap, mem_folderChain]

/-- Whether folders are left out or not, each that is there lies above a file. -/
theorem exists_of_mem_foldersAbove {files : List ScannedFile} {parts : List String}
    (member : parts ∈ foldersAbove root withFolders files) :
    ∃ file ∈ files, parts ≠ [] ∧ parts <+: root.beyond file.path ∧
      parts ≠ root.beyond file.path := by
  cases withFolders with
  | true => exact mem_foldersAbove.mp member
  | false => simp [foldersAbove] at member

theorem proper_of_mem_foldersAbove {files : List ScannedFile} {parts : List String}
    (member : parts ∈ foldersAbove root withFolders files) :
    parts ≠ [] ∧ ∀ part ∈ parts, isComponent part = true := by
  obtain ⟨file, -, nonempty, before, -⟩ := exists_of_mem_foldersAbove member
  exact ⟨nonempty, fun part inside => root.proper_beyond file.path part (before.subset inside)⟩

theorem dropLast_mem_foldersAbove {files : List ScannedFile} {parts : List String}
    (member : parts ∈ foldersAbove root withFolders files) (parent : parts.dropLast ≠ []) :
    parts.dropLast ∈ foldersAbove root withFolders files := by
  cases withFolders with
  | false => simp [foldersAbove] at member
  | true =>
      rw [mem_foldersAbove] at member ⊢
      obtain ⟨file, inside, -, before, -⟩ := member
      refine ⟨file, inside, parent, (List.dropLast_prefix parts).trans before, fun same => ?_⟩
      have longer := before.length_le
      have nonempty : parts ≠ [] := fun empty => parent (by simp [empty])
      have positive := List.length_pos_iff.mpr nonempty
      rw [← same, List.length_dropLast] at longer
      omega

theorem nodup_foldersAbove {files : List ScannedFile} :
    (foldersAbove root withFolders files).Nodup := by
  unfold foldersAbove
  split
  · exact nodup_eraseDups _
  · exact List.nodup_nil

/-- Folders are told apart by their ids, too. -/
theorem nodup_joined_foldersAbove {files : List ScannedFile} :
    ((foldersAbove root withFolders files).map Path.joined).Nodup := by
  refine List.Nodup.map_on ?_ nodup_foldersAbove
  intro parts member more member' same
  exact Path.joined_injective (proper_of_mem_foldersAbove member).2
    (proper_of_mem_foldersAbove member').2 same

theorem mapM_below {files : List ScannedFile} (within : ∀ file ∈ files, file.path.Within root) :
    files.mapM (fun file => below root file.path) = .ok (files.map (root.beyond ·.path)) := by
  induction files with
  | nil => rfl
  | cons file rest ih =>
      rw [List.mapM_cons, below_of_within (within file (by simp)), ok_bind,
        ih fun f member => within f (List.mem_cons_of_mem file member), ok_bind]
      rfl

theorem foldersOf_eq {files : List ScannedFile} (within : ∀ file ∈ files, file.path.Within root) :
    foldersOf root files = .ok (foldersAbove root true files) := by
  rw [foldersOf, mapM_below within]
  simp only [Except.map, List.flatMap_map, foldersAbove, if_true, distinct_eq]

theorem foldl_addNode {α : Type} (node : α → Node) (items : List α) (s : Store)
    (fresh : ∀ a ∈ items, s.hasNode (node a).id = false)
    (distinct : (items.map fun a => (node a).id).Nodup) :
    items.foldl (fun s a => (s.addNode (node a)).2) s =
      { s with nodes := s.nodes ++ items.map node } := by
  induction items generalizing s with
  | nil => simp
  | cons a rest ih =>
      obtain ⟨apart, distinct⟩ := List.nodup_cons.mp distinct
      have new : s.hasNode (node a).id = false := fresh a (by simp)
      rw [List.foldl_cons, Store.addNode_of_not_hasNode new, ih _ _ distinct]
      · simp
      · intro b member
        rw [← Bool.not_eq_true, Store.hasNode_iff]
        simp only [List.map_append, List.map_singleton, List.mem_append, List.mem_singleton, not_or]
        constructor
        · rw [← Store.hasNode_iff, Bool.not_eq_true]
          exact fresh b (List.mem_cons_of_mem a member)
        · exact fun same => apart (List.mem_map.mpr ⟨b, member, same⟩)

/-- The store of folders when the links of some of them are made. -/
def folderStage (root : Path) (folders done : List (List String)) : Store where
  nodes := folders.map (.folder <| folderNode root ·)
  edges := (done.flatMap folderEdges).eraseDups

theorem folderStage_tiers (root : Path) (withFolders : Bool) (files : List ScannedFile)
    (done : List (List String)) :
    (folderStage root (foldersAbove root withFolders files) done).TwoTiers
      (foldersAbove root withFolders files) [] where
  ids := by simp [folderStage, Node.id, folderNode, Function.comp_def]
  nonempty := fun _ member => (proper_of_mem_foldersAbove member).1
  proper := fun _ member => (proper_of_mem_foldersAbove member).2
  absolute := by simp

theorem addFolderLink_stage {files : List ScannedFile} (done : List (List String))
    {parts : List String} (member : parts ∈ foldersAbove root withFolders files) :
    addFolderLink (folderStage root (foldersAbove root withFolders files) done) parts =
      .ok (folderStage root (foldersAbove root withFolders files) (done ++ [parts])) := by
  have tiers := folderStage_tiers root withFolders files done
  by_cases top : parts.dropLast = []
  · simp [addFolderLink, folderStage, folderEdges, top]
  · have above := dropLast_mem_foldersAbove member top
    have parent := (tiers.hasNode_joined (proper_of_mem_foldersAbove above).2).mpr above
    have child := (tiers.hasNode_joined (proper_of_mem_foldersAbove member).2).mpr member
    have marked : ∀ e ∈ done.flatMap folderEdges, Marked root e := by
      intro e inside
      obtain ⟨more, -, inside⟩ := List.mem_flatMap.mp inside
      exact marked_folderEdges e inside
    have linked := link_eq (done.flatMap folderEdges)
      ⟨Path.joined parts.dropLast, Path.joined parts, .hierarchy, false⟩
      (s := folderStage root (foldersAbove root withFolders files) done) rfl marked
      (marked_of_ne_imports (by decide)) parent child
    have deep : parts.dropLast.isEmpty = false := by simpa using top
    simp only [addFolderLink, deep, Bool.false_eq_true, if_false, parent, if_true]
    rw [linked]
    simp only [Except.map, folderStage, folderEdges, List.flatMap_append, List.flatMap_singleton,
      deep, Bool.false_eq_true, if_false]

theorem addFolders_eq {files : List ScannedFile}
    (within : ∀ file ∈ files, file.path.Within root) :
    addFolders root files Store.empty =
      .ok (folderStage root (foldersAbove root true files) (foldersAbove root true files)) := by
  let folders := foldersAbove root true files
  have distinctIds : (folders.map fun parts => (Node.folder (folderNode root parts)).id).Nodup :=
    nodup_joined_foldersAbove
  have nodes := foldl_addNode (fun parts => Node.folder (folderNode root parts)) folders Store.empty
    (fun _ _ => rfl) distinctIds
  have links := foldlM_stages (folderStage root folders) (· ∈ folders)
    (fun done _ _ member => addFolderLink_stage done member) folders [] (by simp) fun _ => id
  rw [addFolders, foldersOf_eq within, ok_bind]
  simp only [folders] at nodes links
  rw [nodes]
  exact links

/-! ## Files -/

theorem clusterOf_eq_rootCluster_iff {p : Path} :
    clusterOf root p = rootCluster ↔ (root.beyond p).dropLast = [] := by
  constructor
  · intro same
    by_contra deep
    have shown : (root.beyond p).dropLast.isEmpty = false := by simpa using deep
    simp only [clusterOf, folderOf, shown, Bool.false_eq_true, if_false] at same
    exact Path.joined_ne_dot deep
      (fun part member => root.proper_beyond p part (List.dropLast_subset _ member)) same
  · intro top
    simp [clusterOf, folderOf, top]

theorem clusterOf_of_deep {p : Path} (deep : (root.beyond p).dropLast ≠ []) :
    clusterOf root p = Path.joined (root.beyond p).dropLast := by
  have shown : (root.beyond p).dropLast.isEmpty = false := by simpa using deep
  simp only [clusterOf, folderOf, shown, Bool.false_eq_true, if_false]

/-- A cluster is a node unless it is the root cluster, provided that its folder is held. -/
theorem hasNode_clusterOf {s : Store} {folders : List (List String)} {paths : List Path}
    (tiers : s.TwoTiers folders paths) {p : Path}
    (above : (root.beyond p).dropLast ≠ [] → (root.beyond p).dropLast ∈ folders) :
    s.hasNode (clusterOf root p) = (clusterOf root p != rootCluster) := by
  by_cases top : (root.beyond p).dropLast = []
  · simp [clusterOf_eq_rootCluster_iff.mpr top, tiers.hasNode_rootCluster]
  · have deep : clusterOf root p ≠ rootCluster := mt clusterOf_eq_rootCluster_iff.mp top
    have held := (tiers.hasNode_joined
      fun part member => root.proper_beyond p part (List.dropLast_subset _ member)).mpr (above top)
    rw [clusterOf_of_deep top] at deep ⊢
    simp [held, deep]

/-- Lines are counted, so a file that is scanned has a size. -/
theorem measured_ofText (reader : Script.Reader) (p : Path) (text : String) (commits : Int) :
    0 ≤ (ScannedFile.ofText reader p text commits).metrics.loc :=
  Int.natCast_nonneg _

theorem fileSize?_of_nonneg {loc : Int} (measured : 0 ≤ loc) :
    Palette.fileSize? loc = some ((Palette.fileSize? loc).getD 0) := by
  have counted : ¬loc < 0 := by omega
  simp [Palette.fileSize?, counted]

/-- The store of these folders and of the files handled so far. -/
def fileStage (root : Path) (withFolders : Bool) (folders : List (List String))
    (done : List ScannedFile) : Store where
  nodes := folders.map (.folder <| folderNode root ·) ++ (firstsBy (·.path) done).map (nodeOf root)
  edges := (folders.flatMap folderEdges ++ done.flatMap (fileEdges root withFolders)).eraseDups

/-- What a file needs to be added: a place below the root, a size, and its folder among those
    held if folders are nodes. -/
structure Fits (root : Path) (withFolders : Bool) (folders : List (List String))
    (file : ScannedFile) : Prop where
  within : file.path.Within root
  measured : 0 ≤ file.metrics.loc
  above : withFolders = true → (root.beyond file.path).dropLast ≠ [] →
    (root.beyond file.path).dropLast ∈ folders

section Files

variable {folders : List (List String)}

theorem ids_nodeOf (files : List ScannedFile) :
    ((firstsBy (·.path) files).map (nodeOf root)).map Node.id =
      (files.map (·.path)).eraseDups.map Path.text := by
  rw [← map_firstsBy, List.map_map, List.map_map]
  rfl

theorem fileStage_tiers (absolute : root.isAbsolute = true) (nonempty : ∀ parts ∈ folders, parts ≠ [])
    (proper : ∀ parts ∈ folders, ∀ part ∈ parts, isComponent part = true) (done : List ScannedFile)
    (fits : ∀ file ∈ done, Fits root withFolders folders file) :
    (fileStage root withFolders folders done).TwoTiers folders (done.map (·.path)).eraseDups where
  ids := by
    rw [fileStage, List.map_append, ids_nodeOf, List.map_map]
    rfl
  nonempty := nonempty
  proper := proper
  absolute := by
    intro p member
    obtain ⟨file, inside, rfl⟩ := List.mem_map.mp (List.mem_eraseDups.mp member)
    exact (fits file inside).within.isAbsolute absolute

theorem fileEdges_congr {file other : ScannedFile} (same : file.path = other.path) :
    fileEdges root withFolders file = fileEdges root withFolders other := by
  simp only [fileEdges, same]

/-- A file whose path is known changes nothing. -/
theorem fileStage_concat_of_known {done : List ScannedFile} {file : ScannedFile}
    (known : file.path ∈ done.map (·.path)) :
    fileStage root withFolders folders (done ++ [file]) =
      fileStage root withFolders folders done := by
  obtain ⟨other, inside, same⟩ := List.mem_map.mp known
  have old : fileEdges root withFolders file ⊆
      folders.flatMap folderEdges ++ done.flatMap (fileEdges root withFolders) := by
    rw [fileEdges_congr same.symm]
    exact fun e member => List.mem_append_right _ (List.mem_flatMap.mpr ⟨other, inside, member⟩)
  simp only [fileStage, firstsBy_concat, known, if_true, List.flatMap_append, List.flatMap_singleton,
    ← List.append_assoc, eraseDups_append_of_subset old]

/-- A file below the root whose lines were counted is added, and linked if it is new. -/
theorem addFile_eq {s : Store} {file : ScannedFile} (within : file.path.Within root)
    (measured : 0 ≤ file.metrics.loc) :
    addFile root withFolders s file =
      (let (added, s') := s.addNode (nodeOf root file)
      if added && withFolders && s'.hasNode (clusterOf root file.path) then
        (link s' (clusterOf root file.path) file.path.text .hierarchy false).map (·.2)
      else .ok s') := by
  simp only [addFile, owningFolder_of_within within, ok_bind]
  rw [fileSize?_of_nonneg measured]
  rfl

theorem linkFile_eq {s : Store} {paths : List Path} (held : List Edge) {file : ScannedFile}
    (tiers : s.TwoTiers folders paths) (edges : s.edges = held.eraseDups)
    (marked : ∀ e ∈ held, Marked root e) (node : s.hasNode file.path.text = true)
    (above : withFolders = true → (root.beyond file.path).dropLast ≠ [] →
      (root.beyond file.path).dropLast ∈ folders) :
    (if withFolders && s.hasNode (clusterOf root file.path) then
        (link s (clusterOf root file.path) file.path.text .hierarchy false).map (·.2)
      else .ok s) =
      .ok { s with edges := (held ++ fileEdges root withFolders file).eraseDups } := by
  cases withFolders with
  | false => simp [fileEdges, ← edges]
  | true =>
      have folder := hasNode_clusterOf tiers (above rfl)
      by_cases top : clusterOf root file.path = rootCluster
      · simp [fileEdges, top, ← edges, tiers.hasNode_rootCluster]
      · have present : s.hasNode (clusterOf root file.path) = true := by simpa [folder] using top
        have linked := link_eq held ⟨clusterOf root file.path, file.path.text, .hierarchy, false⟩
          edges marked (marked_of_ne_imports (by decide)) present node
        simp only [present, Bool.and_self, if_true, linked, Except.map, fileEdges,
          show (clusterOf root file.path != rootCluster) = true by simpa using top]

theorem marked_fileStage {done : List ScannedFile} :
    ∀ e ∈ folders.flatMap folderEdges ++ done.flatMap (fileEdges root withFolders),
      Marked root e := by
  intro e member
  rcases List.mem_append.mp member with ofFolder | ofFile
  · obtain ⟨parts, -, inside⟩ := List.mem_flatMap.mp ofFolder
    exact marked_folderEdges e inside
  · obtain ⟨file, -, inside⟩ := List.mem_flatMap.mp ofFile
    exact marked_fileEdges e inside

theorem addFile_stage (absolute : root.isAbsolute = true) (nonempty : ∀ parts ∈ folders, parts ≠ [])
    (proper : ∀ parts ∈ folders, ∀ part ∈ parts, isComponent part = true) (done : List ScannedFile)
    (file : ScannedFile) (past : ∀ f ∈ done, Fits root withFolders folders f)
    (fits : Fits root withFolders folders file) :
    addFile root withFolders (fileStage root withFolders folders done) file =
      .ok (fileStage root withFolders folders (done ++ [file])) := by
  have placed := fits.within.isAbsolute absolute
  have known := (fileStage_tiers absolute nonempty proper done past).hasNode_text placed
  rw [List.mem_eraseDups] at known
  rw [addFile_eq fits.within fits.measured]
  by_cases old : file.path ∈ done.map (·.path)
  · rw [fileStage_concat_of_known old, Store.addNode_of_hasNode (known.mpr old)]
    rfl
  · have fresh : (fileStage root withFolders folders done).hasNode (nodeOf root file).id = false := by
      rw [← Bool.not_eq_true]
      exact mt known.mp old
    have nodes : (fileStage root withFolders folders done).nodes ++ [nodeOf root file] =
        (fileStage root withFolders folders (done ++ [file])).nodes := by
      simp only [fileStage, firstsBy_concat, old, if_false, List.map_append, List.map_singleton,
        List.append_assoc]
    rw [Store.addNode_of_not_hasNode fresh, nodes]
    have tiers := fileStage_tiers absolute nonempty proper (done ++ [file]) fun f member =>
      (List.mem_append.mp member).elim (past f) fun new => List.mem_singleton.mp new ▸ fits
    have linked := linkFile_eq (folders.flatMap folderEdges ++ done.flatMap (fileEdges root withFolders))
      (tiers.of_nodes rfl) rfl marked_fileStage
      (s := { fileStage root withFolders folders done with
        nodes := (fileStage root withFolders folders (done ++ [file])).nodes })
      (((tiers.of_nodes rfl).hasNode_text placed).mpr (List.mem_eraseDups.mpr (by simp)))
      fits.above
    simp only [Bool.true_and]
    rw [linked]
    simp only [fileStage, List.flatMap_append, List.flatMap_singleton, List.append_assoc]

end Files

/-! ## Imports -/

/-- A store of these nodes when some imports among known files are added to its edges. -/
def importStage (root : Path) (withFolders : Bool) (known : List Path) (nodes : List Node)
    (held : List Edge) (done : List (Path × Path)) : Store where
  nodes := nodes
  edges := (held ++ done.flatMap (importEdges root withFolders known)).eraseDups

/-- The store that imports are added to: known files below the root, their folders if folders are
    nodes, and links that hold folders and files. -/
structure Ready (root : Path) (withFolders : Bool) (folders : List (List String))
    (known : List Path) (nodes : List Node) (held : List Edge) : Prop where
  tiers : ∀ edges, (Store.mk nodes edges).TwoTiers folders known.eraseDups
  within : ∀ p ∈ known, p.Within root
  above : withFolders = true → ∀ p ∈ known, (root.beyond p).dropLast ≠ [] →
    (root.beyond p).dropLast ∈ folders
  marked : ∀ e ∈ held, Marked root e
  hierarchy : ∀ e ∈ held, e.kind = .hierarchy

section Imports

variable {folders : List (List String)} {known : List Path} {nodes : List Node} {held : List Edge}

theorem importEdges_of_not {pair : Path × Path}
    (void : ¬(pair.1 ≠ pair.2 ∧ pair.1 ∈ known ∧ pair.2 ∈ known)) :
    importEdges root withFolders known pair = [] := if_neg void

theorem Ready.marked_importStage (ready : Ready root withFolders folders known nodes held)
    (done : List (Path × Path)) :
    ∀ e ∈ held ++ done.flatMap (importEdges root withFolders known), Marked root e := by
  intro e member
  rcases List.mem_append.mp member with old | new
  · exact ready.marked e old
  · obtain ⟨pair, -, inside⟩ := List.mem_flatMap.mp new
    exact marked_importEdges e inside

theorem Ready.stage_tiers (ready : Ready root withFolders folders known nodes held)
    (done : List (Path × Path)) :
    (importStage root withFolders known nodes held done).TwoTiers folders known.eraseDups :=
  ready.tiers _

/-- Where an import is held, all the links that it gives rise to are. -/
theorem Ready.importEdges_subset (ready : Ready root withFolders folders known nodes held)
    {done : List (Path × Path)} {a b : Path} {inter : Bool}
    (old : ⟨a.text, b.text, .imports, inter⟩ ∈
      held ++ done.flatMap (importEdges root withFolders known)) :
    importEdges root withFolders known (a, b) ⊆
      held ++ done.flatMap (importEdges root withFolders known) := by
  rcases List.mem_append.mp old with base | added
  · exact absurd (ready.hierarchy _ base) (by simp)
  · obtain ⟨pair, inside, among⟩ := List.mem_flatMap.mp added
    have same : pair = (a, b) := by
      rcases (mem_importEdges.mp among).2 with first | rollup
      · simp only [Edge.mk.injEq] at first
        exact Prod.ext (Path.text_injective first.1.symm) (Path.text_injective first.2.1.symm)
      · exact absurd (kind_rollupEdges _ rollup) (by simp)
    exact fun e member =>
      List.mem_append_right held (List.mem_flatMap.mpr ⟨pair, inside, same ▸ member⟩)

theorem Ready.linkRollup_eq (ready : Ready root withFolders folders known nodes held) {a b : Path}
    (more : List Edge) (edges : List Edge) (edges_eq : edges = more.eraseDups)
    (marked : ∀ e ∈ more, Marked root e) (source : a ∈ known) (target : b ∈ known) :
    (if crosses root a b && withFolders && (Store.mk nodes edges).hasNode (clusterOf root a) &&
          (Store.mk nodes edges).hasNode (clusterOf root b) then
        (link ⟨nodes, edges⟩ (clusterOf root a) (clusterOf root b) .rollup false).map (·.2)
      else .ok ⟨nodes, edges⟩) =
      .ok ⟨nodes, (more ++ rollupEdges root withFolders a b).eraseDups⟩ := by
  cases withFolders with
  | false => simp [rollupEdges, edges_eq]
  | true =>
      have from_node := hasNode_clusterOf (ready.tiers edges) (ready.above rfl a source)
      have to_node := hasNode_clusterOf (ready.tiers edges) (ready.above rfl b target)
      rw [from_node, to_node]
      by_cases linked : (crosses root a b && true && clusterOf root a != rootCluster &&
          clusterOf root b != rootCluster) = true
      · have present := linked
        simp only [Bool.and_eq_true, Bool.and_true] at present
        have added := link_eq more ⟨clusterOf root a, clusterOf root b, .rollup, false⟩
          (s := ⟨nodes, edges⟩) edges_eq marked (marked_of_ne_imports (by decide))
          (from_node.trans present.1.2) (to_node.trans present.2)
        rw [if_pos linked, added]
        simp only [Except.map, rollupEdges, Bool.true_and]
        rw [if_pos (by simpa using linked)]
      · rw [if_neg linked]
        simp only [rollupEdges, Bool.true_and]
        rw [if_neg (by simpa using linked), List.append_nil, edges_eq]

/-- One import adds all the links that it gives rise to. -/
theorem Ready.addImport_eq (ready : Ready root withFolders folders known nodes held) {a b : Path}
    (more edges : List Edge) (edges_eq : edges = more.eraseDups)
    (marked : ∀ e ∈ more, Marked root e) (source : a ∈ known) (absolute : b.isAbsolute = true)
    (closed : ⟨a.text, b.text, .imports, crosses root a b⟩ ∈ more →
      importEdges root withFolders known (a, b) ⊆ more) :
    addImport root withFolders a (clusterOf root a) ⟨nodes, edges⟩ b =
      .ok ⟨nodes, (more ++ importEdges root withFolders known (a, b)).eraseDups⟩ := by
  have tiers := ready.tiers edges
  have target := tiers.hasNode_text absolute
  rw [List.mem_eraseDups] at target
  by_cases void : b = a ∨ b ∉ known
  · have skip : (b.text == a.text || !(Store.mk nodes edges).hasNode b.text) = true := by
      rcases void with rfl | unknown
      · simp
      · simp [← Bool.not_eq_true, target, unknown]
    have none : importEdges root withFolders known (a, b) = [] :=
      importEdges_of_not fun among => void.elim (among.1 ·.symm) (absurd among.2.2)
    rw [addImport, if_pos skip, none, List.append_nil, edges_eq]
  · obtain ⟨apart, member⟩ : b ≠ a ∧ b ∈ known := by simpa [not_or] using void
    have keep : ¬(b.text == a.text || !(Store.mk nodes edges).hasNode b.text) = true := by
      have differ : b.text ≠ a.text := fun same => apart (Path.text_injective same)
      simp [differ, target.mpr member]
    have sourceNode : (Store.mk nodes edges).hasNode a.text = true :=
      (tiers.hasNode_text (tiers.absolute a (List.mem_eraseDups.mpr source))).mpr
        (List.mem_eraseDups.mpr source)
    let e : Edge := ⟨a.text, b.text, .imports, crosses root a b⟩
    have linked := link_eq more e (s := ⟨nodes, edges⟩) edges_eq marked (marked_import a b)
      sourceNode (target.mpr member)
    have all : importEdges root withFolders known (a, b) = e :: rollupEdges root withFolders a b :=
      if_pos ⟨apart.symm, source, member⟩
    rw [addImport, if_neg keep, owningFolder_of_within (ready.within b member), ok_bind]
    have crossing : (clusterOf root a != clusterOf root b) = crosses root a b := rfl
    simp only [crossing]
    rw [linked, ok_bind, all]
    by_cases old : e ∈ more
    · -- Nothing is new: the link between the folders came with the import when it was added.
      have known_links := closed old
      rw [all] at known_links
      have same := eraseDups_append_of_subset known_links
      have same' : (more ++ [e]).eraseDups = more.eraseDups :=
        eraseDups_append_of_subset (by simpa using old)
      simp only [old, not_true_eq_false, decide_false, Bool.false_and, Bool.false_eq_true, if_false,
        same, same']
    · have marked' : ∀ e' ∈ more ++ [e], Marked root e' := by
        intro e' inside
        rcases List.mem_append.mp inside with before | new
        · exact marked e' before
        · exact List.mem_singleton.mp new ▸ marked_import a b
      have rollup := ready.linkRollup_eq (more ++ [e]) _ rfl marked' source member
      simp only [old, not_false_eq_true, decide_true, Bool.true_and]
      rw [rollup, List.append_assoc, List.singleton_append]

theorem Ready.addImport_stage (ready : Ready root withFolders folders known nodes held)
    (done : List (Path × Path)) {a b : Path} (source : a ∈ known) (absolute : b.isAbsolute = true) :
    addImport root withFolders a (clusterOf root a)
        (importStage root withFolders known nodes held done) b =
      .ok (importStage root withFolders known nodes held (done ++ [(a, b)])) := by
  have step := ready.addImport_eq _ _ rfl (ready.marked_importStage done) source absolute
    ready.importEdges_subset
  simp only [importStage, List.flatMap_append, List.flatMap_singleton, ← List.append_assoc]
  exact step

theorem Ready.addImports_stage (ready : Ready root withFolders folders known nodes held)
    (done : List (Path × Path)) {row : Path × List Path} (placed : row.1.isAbsolute = true)
    (absolute : ∀ b ∈ row.2, b.isAbsolute = true) :
    addImports root withFolders (importStage root withFolders known nodes held done) row =
      .ok (importStage root withFolders known nodes held (done ++ row.2.map (row.1, ·))) := by
  obtain ⟨a, targets⟩ := row
  have source := (ready.stage_tiers done).hasNode_text placed
  rw [List.mem_eraseDups] at source
  by_cases member : a ∈ known
  · have turns := foldlM_stages
      (fun targets => importStage root withFolders known nodes held (done ++ targets.map (a, ·)))
      (·.isAbsolute = true)
      (fun past b _ good => by
        rw [List.map_append, List.map_singleton, ← List.append_assoc]
        exact ready.addImport_stage (done ++ past.map (a, ·)) member good)
      targets [] (by simp) absolute
    rw [List.map_nil, List.append_nil, List.nil_append] at turns
    rw [addImports, if_pos (source.mpr member), owningFolder_of_within (ready.within a member),
      ok_bind, turns]
  · have none : (targets.map (a, ·)).flatMap (importEdges root withFolders known) = [] := by
      rw [List.flatMap_eq_nil_iff]
      intro pair inside
      obtain ⟨b, -, rfl⟩ := List.mem_map.mp inside
      exact importEdges_of_not fun both => member both.2.1
    rw [addImports, if_neg (mt source.mp member)]
    simp only [importStage, List.flatMap_append, none, List.append_nil]

end Imports

/-! ## The whole build -/

section Whole

variable {files : List ScannedFile} {imports : List (Path × List Path)}

theorem fits_foldersAbove (within : ∀ file ∈ files, file.path.Within root) {file : ScannedFile}
    (member : file ∈ files) (measured : 0 ≤ file.metrics.loc) :
    Fits root withFolders (foldersAbove root withFolders files) file := by
  refine ⟨within file member, measured, ?_⟩
  rintro rfl deep
  refine mem_foldersAbove.mpr ⟨file, member, deep, List.dropLast_prefix _, fun same => ?_⟩
  have shorter := congrArg List.length same
  have positive : 0 < (root.beyond file.path).length :=
    List.length_pos_iff.mpr fun empty => deep (by rw [empty]; rfl)
  rw [List.length_dropLast] at shorter
  omega

/-- The first files of a list are added below the folders of the whole list. -/
theorem addFront_eq {front : List ScannedFile} (absolute : root.isAbsolute = true)
    (within : ∀ file ∈ files, file.path.Within root) (part : front ⊆ files)
    (measured : ∀ file ∈ front, 0 ≤ file.metrics.loc) :
    front.foldlM (addFile root withFolders)
        (fileStage root withFolders (foldersAbove root withFolders files) []) =
      .ok (fileStage root withFolders (foldersAbove root withFolders files) front) :=
  foldlM_stages (fileStage root withFolders (foldersAbove root withFolders files))
    (Fits root withFolders (foldersAbove root withFolders files))
    (addFile_stage absolute (fun _ member => (proper_of_mem_foldersAbove member).1)
      fun _ member => (proper_of_mem_foldersAbove member).2)
    front [] (by simp) fun file member =>
      fits_foldersAbove within (part member) (measured file member)

theorem addFiles_eq (absolute : root.isAbsolute = true)
    (within : ∀ file ∈ files, file.path.Within root)
    (measured : ∀ file ∈ files, 0 ≤ file.metrics.loc) :
    files.foldlM (addFile root withFolders)
        (fileStage root withFolders (foldersAbove root withFolders files) []) =
      .ok (fileStage root withFolders (foldersAbove root withFolders files) files) :=
  addFront_eq absolute within (List.Subset.refl files) measured

theorem ready_of_files (withFolders : Bool) (absolute : root.isAbsolute = true)
    (within : ∀ file ∈ files, file.path.Within root)
    (measured : ∀ file ∈ files, 0 ≤ file.metrics.loc) :
    Ready root withFolders (foldersAbove root withFolders files) (files.map (·.path))
      (fileStage root withFolders (foldersAbove root withFolders files) files).nodes
      ((foldersAbove root withFolders files).flatMap folderEdges ++
        files.flatMap (fileEdges root withFolders)) where
  tiers := fun _ =>
    (fileStage_tiers absolute (fun _ member => (proper_of_mem_foldersAbove member).1)
      (fun _ member => (proper_of_mem_foldersAbove member).2) files
      fun file member => fits_foldersAbove within member (measured file member)).of_nodes rfl
  within := by
    intro p member
    obtain ⟨file, inside, rfl⟩ := List.mem_map.mp member
    exact within file inside
  above := by
    intro shown p member
    obtain ⟨file, inside, rfl⟩ := List.mem_map.mp member
    exact (fits_foldersAbove within inside (measured file inside)).above shown
  marked := marked_fileStage
  hierarchy := kind_hierarchy

theorem build_eq_loops :
    Store.build root withFolders files imports =
      ((if withFolders then addFolders root files Store.empty else .ok Store.empty) >>= fun s =>
        files.foldlM (addFile root withFolders) s >>= fun s =>
          imports.foldlM (addImports root withFolders) s) := by
  cases withFolders <;> rfl

/-- The folder tier of files below the root; no nodes if folders are left out. -/
theorem folders_eq (within : ∀ file ∈ files, file.path.Within root) :
    (if withFolders then addFolders root files Store.empty else .ok Store.empty) =
      .ok (fileStage root withFolders (foldersAbove root withFolders files) []) := by
  cases withFolders with
  | false => rfl
  | true =>
      rw [if_pos rfl, addFolders_eq within]
      simp [fileStage, folderStage, firstsBy]

/-- The build of files below an absolute root ends at the graph that `Store.assembled` describes. -/
theorem build_eq_assembled (absolute : root.isAbsolute = true)
    (within : ∀ file ∈ files, file.path.Within root)
    (measured : ∀ file ∈ files, 0 ≤ file.metrics.loc)
    (placed : ∀ row ∈ imports, row.1.isAbsolute = true ∧ ∀ b ∈ row.2, b.isAbsolute = true) :
    Store.build root withFolders files imports =
      .ok (Store.assembled root withFolders files imports) := by
  have ready := ready_of_files withFolders absolute within measured
  have links := foldlM_stages
    (fun rows => importStage root withFolders (files.map (·.path)) _ _ (requests rows))
    (fun row => row.1.isAbsolute = true ∧ ∀ b ∈ row.2, b.isAbsolute = true)
    (fun done row _ good => by
      simpa [requests] using ready.addImports_stage (requests done) good.1 good.2)
    imports [] (by simp) placed
  have begun : importStage root withFolders (files.map (·.path))
      (fileStage root withFolders (foldersAbove root withFolders files) files).nodes
      ((foldersAbove root withFolders files).flatMap folderEdges ++
        files.flatMap (fileEdges root withFolders)) (requests []) =
      fileStage root withFolders (foldersAbove root withFolders files) files := by
    simp [importStage, fileStage, requests]
  rw [begun, List.nil_append] at links
  rw [build_eq_loops, folders_eq within, ok_bind, addFiles_eq absolute within measured, ok_bind, links]
  rfl

end Whole

end RepoAtlas.Builder
