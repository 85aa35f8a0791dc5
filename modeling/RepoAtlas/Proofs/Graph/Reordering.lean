import Mathlib.Data.List.Perm.Basic
import RepoAtlas.Graph.Stats
import RepoAtlas.Proofs.Graph.Separation

/-! # The order of files and imports

A store keeps what comes first, links a folder to its parent when the folder is new and two folders
when the first import crosses between them. None of it shows in the graph as a set: files in another
order, and imports in another order with targets named more or less often, give the same nodes and
the same edges in another order.
-/

namespace RepoAtlas

open Builder

/-- The same importers in any order, each with the same targets in any order and any number. -/
def Reordered (imports imports' : List (Path × List Path)) : Prop :=
  ∃ rows, imports.Perm rows ∧
    List.Forall₂ (fun row row' => row.1 = row'.1 ∧ ∀ b, b ∈ row.2 ↔ b ∈ row'.2) rows imports'

namespace Reordered

variable {imports imports' : List (Path × List Path)}

theorem exists_row (reordered : Reordered imports imports') {row : Path × List Path}
    (member : row ∈ imports) : ∃ row' ∈ imports', row.1 = row'.1 ∧ ∀ b, b ∈ row.2 ↔ b ∈ row'.2 := by
  obtain ⟨rows, perm, alike⟩ := reordered
  replace member := perm.mem_iff.mp member
  clear perm
  induction alike with
  | nil => simp at member
  | cons same _ ih =>
      rcases List.mem_cons.mp member with rfl | later
      · exact ⟨_, by simp, same⟩
      · obtain ⟨row', inside, same'⟩ := ih later
        exact ⟨row', List.mem_cons_of_mem _ inside, same'⟩

theorem symm (reordered : Reordered imports imports') : Reordered imports' imports := by
  obtain ⟨rows, perm, alike⟩ := reordered
  obtain ⟨rows', alike', perm'⟩ := List.perm_comp_forall₂ perm alike
  refine ⟨rows', perm'.symm, alike'.flip.imp ?_⟩
  rintro row row' ⟨importer, targets⟩
  exact ⟨importer.symm, fun b => (targets b).symm⟩

theorem placed (reordered : Reordered imports imports')
    (placed : ∀ row ∈ imports, row.1.isAbsolute = true ∧ ∀ b ∈ row.2, b.isAbsolute = true) :
    ∀ row ∈ imports', row.1.isAbsolute = true ∧ ∀ b ∈ row.2, b.isAbsolute = true := by
  intro row' member
  obtain ⟨row, inside, importer, targets⟩ := reordered.symm.exists_row member
  obtain ⟨absolute, absolute'⟩ := placed row inside
  exact ⟨importer ▸ absolute, fun b target => absolute' b ((targets b).mp target)⟩

theorem imported_subset (reordered : Reordered imports imports') {known known' : List Path}
    (same : ∀ p, p ∈ known ↔ p ∈ known') : imported known imports ⊆ imported known' imports' := by
  rintro ⟨a, b⟩ member
  obtain ⟨⟨targets, row, target⟩, apart, source, aim⟩ := mem_imported.mp member
  obtain ⟨⟨a', targets'⟩, inside, rfl, alike⟩ := reordered.exists_row row
  exact mem_imported.mpr
    ⟨⟨targets', inside, (alike b).mp target⟩, apart, (same a).mp source, (same b).mp aim⟩

theorem mem_imported_iff (reordered : Reordered imports imports') {known known' : List Path}
    (same : ∀ p, p ∈ known ↔ p ∈ known') (pair : Path × Path) :
    pair ∈ imported known imports ↔ pair ∈ imported known' imports' :=
  ⟨fun member => reordered.imported_subset same member,
    fun member => reordered.symm.imported_subset (fun p => (same p).symm) member⟩

end Reordered

/-- Items of the same lists, each kept once, differ in their order at most. -/
theorem perm_eraseDups {α : Type} [BEq α] [LawfulBEq α] {items more : List α}
    (same : ∀ a, a ∈ items ↔ a ∈ more) : items.eraseDups.Perm more.eraseDups := by
  rw [List.perm_ext_iff_of_nodup (nodup_eraseDups items) (nodup_eraseDups more)]
  intro a
  rw [List.mem_eraseDups, List.mem_eraseDups, same a]

theorem firstsBy_of_nodup {α β : Type} [BEq β] [LawfulBEq β] {key : α → β} {items : List α}
    (distinct : (items.map key).Nodup) : firstsBy key items = items := by
  refine (firstsBy_sublist key items).eq_of_length ?_
  rw [← List.length_map key, map_firstsBy, eraseDups_of_nodup distinct, List.length_map]

/-- Two graphs with the same nodes and edges; orders aside, the summary counts the same. -/
structure Store.Alike (s s' : Store) : Prop where
  nodes : s.nodes.Perm s'.nodes
  edges : s.edges.Perm s'.edges
  totalFiles : ∀ top top', (Stats.ofStore s top).totalFiles = (Stats.ofStore s' top').totalFiles
  clusters : ∀ top top', (Stats.ofStore s top).clusters = (Stats.ofStore s' top').clusters

theorem Stats.totalFiles_ofStore (s : Store) (top : Int) :
    (Stats.ofStore s top).totalFiles = s.files.length := by
  cases files : s.files <;> simp [Stats.ofStore, files, Stats.empty]

theorem Stats.clusters_ofStore (s : Store) (top : Int) :
    (Stats.ofStore s top).clusters = (s.files.map (·.cluster)).eraseDups.length := by
  cases files : s.files <;> simp [Stats.ofStore, files, Stats.empty]

theorem Store.Alike.of_perm {s s' : Store} (nodes : s.nodes.Perm s'.nodes)
    (edges : s.edges.Perm s'.edges) : s.Alike s' where
  nodes := nodes
  edges := edges
  totalFiles := by
    intro top top'
    rw [Stats.totalFiles_ofStore, Stats.totalFiles_ofStore, Store.files, Store.files,
      (nodes.filterMap Node.file?).length_eq]
  clusters := by
    intro top top'
    have files : (s.files.map (·.cluster)).Perm (s'.files.map (·.cluster)) :=
      (nodes.filterMap Node.file?).map _
    rw [Stats.clusters_ofStore, Stats.clusters_ofStore,
      (perm_eraseDups fun cluster => files.mem_iff).length_eq]

section Assembled

variable {root : Path} {withFolders : Bool} {files files' : List ScannedFile}
  {imports imports' : List (Path × List Path)}

theorem perm_foldersAbove (perm : files.Perm files') :
    (foldersAbove root withFolders files).Perm (foldersAbove root withFolders files') := by
  cases withFolders with
  | false => exact List.Perm.nil
  | true => exact perm_eraseDups fun parts => (perm.flatMap_right _).mem_iff

theorem mem_hierarchyEdges_congr (perm : files.Perm files') (e : Edge) :
    e ∈ hierarchyEdges root withFolders files ↔ e ∈ hierarchyEdges root withFolders files' := by
  have folders : (foldersAbove root withFolders files).Perm (foldersAbove root withFolders files') :=
    perm_foldersAbove perm
  have links := perm.flatMap_right (fileEdges root withFolders)
  exact ((folders.flatMap_right folderEdges).append links).mem_iff

theorem alike_assembled (perm : files.Perm files') (distinct : (files.map (·.path)).Nodup)
    (reordered : Reordered imports imports') :
    (Store.assembled root withFolders files imports).Alike
      (Store.assembled root withFolders files' imports') := by
  refine .of_perm ?nodes ?edges
  case nodes =>
    have distinct' : (files'.map (·.path)).Nodup := (perm.map _).nodup_iff.mp distinct
    rw [Store.assembled, Store.assembled, firstsBy_of_nodup distinct, firstsBy_of_nodup distinct']
    exact ((perm_foldersAbove perm).map _).append (perm.map _)
  case edges =>
    have known := fun p => (perm.map ScannedFile.path).mem_iff (a := p)
    rw [Store.edges_assembled, Store.edges_assembled]
    refine perm_eraseDups fun e => ?_
    rw [List.mem_append, List.mem_append, mem_hierarchyEdges_congr perm, List.mem_flatMap,
      List.mem_flatMap]
    simp only [reordered.mem_imported_iff known]

/-- Files in another order and imports in another order make the same graph: the same nodes, the
    same edges, and as many files and clusters in the summary. Both builds return, unless the lines
    of a file are not a count; then both fail. -/
theorem build_reordered (absolute : root.isAbsolute = true)
    (within : ∀ file ∈ files, file.path.Within root) (distinct : (files.map (·.path)).Nodup)
    (placed : ∀ row ∈ imports, row.1.isAbsolute = true ∧ ∀ b ∈ row.2, b.isAbsolute = true)
    (perm : files.Perm files') (reordered : Reordered imports imports') :
    (∃ s s', Store.build root withFolders files imports = .ok s ∧
        Store.build root withFolders files' imports' = .ok s' ∧ s.Alike s') ∨
      ((∃ file ∈ files, file.metrics.loc < 0) ∧
        (∃ problem, Store.build root withFolders files imports = .error problem) ∧
        ∃ problem, Store.build root withFolders files' imports' = .error problem) := by
  have within' : ∀ file ∈ files', file.path.Within root :=
    fun file member => within file (perm.mem_iff.mpr member)
  by_cases measured : ∀ file ∈ files, 0 ≤ file.metrics.loc
  case pos =>
    have measured' : ∀ file ∈ files', 0 ≤ file.metrics.loc :=
      fun file member => measured file (perm.mem_iff.mpr member)
    exact .inl ⟨_, _, build_eq_assembled absolute within measured placed,
      build_eq_assembled absolute within' measured' (reordered.placed placed),
      alike_assembled perm distinct reordered⟩
  case neg =>
    have unmeasured : ∃ file ∈ files, ¬0 ≤ file.metrics.loc := by simpa using measured
    have unmeasured' : ∃ file ∈ files', ¬0 ≤ file.metrics.loc := by
      simpa only [perm.mem_iff] using unmeasured
    obtain ⟨file, member, negative, failed⟩ := build_unmeasured imports absolute within unmeasured
    obtain ⟨_, -, -, failed'⟩ := build_unmeasured imports' absolute within' unmeasured'
    exact .inr ⟨⟨file, member, negative⟩, ⟨_, failed withFolders⟩, ⟨_, failed' withFolders⟩⟩

end Assembled

/-- Two folders that import each other and a file in the root: listed backwards, the rows of the
    imports exchanged and one target named three times instead of twice. -/
theorem build_reordered_backwards :
    ∃ s s', Store.build (Path.parse "/r") true
        (["/r/a/x.ts", "/r/b/c/y.ts", "/r/z.ts"].map ScannedFile.blank)
        [(Path.parse "/r/a/x.ts", ["/r/b/c/y.ts", "/r/z.ts", "/r/b/c/y.ts"].map Path.parse),
          (Path.parse "/r/b/c/y.ts", [Path.parse "/r/a/x.ts"])] = .ok s ∧
      Store.build (Path.parse "/r") true
        (["/r/z.ts", "/r/b/c/y.ts", "/r/a/x.ts"].map ScannedFile.blank)
        [(Path.parse "/r/b/c/y.ts", [Path.parse "/r/a/x.ts"]),
          (Path.parse "/r/a/x.ts",
            ["/r/z.ts", "/r/b/c/y.ts", "/r/b/c/y.ts", "/r/b/c/y.ts"].map Path.parse)] = .ok s' ∧
      s.Alike s' := by
  refine (build_reordered (by decide) (by decide) (by decide) (by decide)
    (List.Perm.map _ (by decide)) ⟨_, List.Perm.swap _ _ _, ?_⟩).resolve_right ?_
  · refine .cons ⟨rfl, fun b => Iff.rfl⟩ (.cons ⟨rfl, fun b => ?_⟩ .nil)
    simp [or_comm]
  · rintro ⟨negative, -⟩
    exact absurd negative (by decide)

end RepoAtlas
