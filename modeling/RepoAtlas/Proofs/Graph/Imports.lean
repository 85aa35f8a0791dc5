import RepoAtlas.Proofs.Graph.Separation

/-! # Imports and rollups

`LinksImports` says without the build which import edges a graph has, in which order, which of them
cross folders, and which folders are linked for their sake. It speaks about ids and clusters of the
nodes alone. A rollup is only added with the first edge of an import, so the last clause needs that
every import that crosses folders has left its rollup behind.
-/

namespace RepoAtlas

open Builder

namespace Store

/-- Is the id that of a file? -/
def isFile (s : Store) (id : String) : Bool := s.files.any (·.id == id)

/-- The pairs of different files that imports ask to link, as they come. -/
def importRequests (s : Store) (imports : List (Path × List Path)) : List (String × String) :=
  (imports.flatMap fun row => row.2.map fun target => (row.1.text, target.text)).filter
    fun pair => pair.1 ≠ pair.2 && s.isFile pair.1 && s.isFile pair.2

/-- One file node imports another. -/
def Imports (s : Store) (f g : FileNode) : Prop :=
  f ∈ s.files ∧ g ∈ s.files ∧ (f.id, g.id) ∈ (s.edgesOf .imports).map Edge.ends

/-- The graph of these files links them and their folders as the imports say. -/
structure LinksImports (s : Store) (root : Path) (files : List ScannedFile)
    (imports : List (Path × List Path)) : Prop where
  ids : s.files.map (·.id) = (files.map (·.path.text)).eraseDups
  clusters : ∀ f ∈ s.files,
    ∃ file ∈ files, f.id = file.path.text ∧ owningFolder root file.path = .ok f.cluster
  pairs : (s.edgesOf .imports).map Edge.ends = (s.importRequests imports).eraseDups
  crossing : ∀ e ∈ s.edgesOf .imports, ∃ f ∈ s.files, ∃ g ∈ s.files,
    e.ends = (f.id, g.id) ∧ (e.interFolder = true ↔ f.cluster ≠ g.cluster)
  rollups : ∀ A B, (A, B) ∈ (s.edgesOf .rollup).map Edge.ends ↔
    A ≠ B ∧ A ≠ rootCluster ∧ B ≠ rootCluster ∧ ∃ f g, s.Imports f g ∧ f.cluster = A ∧ g.cluster = B
  rollupsOnce : ((s.edgesOf .rollup).map Edge.ends).Nodup
  noLoops : ∀ e ∈ s.edgesOf .imports ++ s.edgesOf .rollup, e.source ≠ e.target

variable {root : Path} {withFolders : Bool} {files : List ScannedFile}
  {imports : List (Path × List Path)}

theorem ids_files_assembled :
    (assembled root withFolders files imports).files.map (·.id) =
      (files.map (·.path)).eraseDups.map Path.text := by
  rw [files_assembled, ← map_firstsBy, List.map_map, List.map_map]
  rfl

theorem isFile_assembled (p : Path) :
    (assembled root withFolders files imports).isFile p.text = true ↔ p ∈ files.map (·.path) := by
  have listed : p.text ∈ (assembled root withFolders files imports).files.map (·.id) ↔
      p ∈ files.map (·.path) := by
    rw [ids_files_assembled, List.mem_map]
    constructor
    · rintro ⟨q, member, same⟩
      exact Path.text_injective same ▸ List.mem_eraseDups.mp member
    · exact fun member => ⟨p, List.mem_eraseDups.mpr member, rfl⟩
  rw [← listed]
  simp [isFile]

theorem file_of_mem_files {f : FileNode}
    (member : f ∈ (assembled root withFolders files imports).files) :
    ∃ file ∈ files, f.id = file.path.text ∧ f.cluster = clusterOf root file.path := by
  rw [files_assembled] at member
  obtain ⟨file, first, rfl⟩ := List.mem_map.mp member
  exact ⟨file, (firstsBy_sublist _ files).subset first, rfl, rfl⟩

theorem exists_file_of_mem {p : Path} (member : p ∈ files.map (·.path)) :
    ∃ f ∈ (assembled root withFolders files imports).files,
      f.id = p.text ∧ f.cluster = clusterOf root p := by
  have first : p ∈ (firstsBy (·.path) files).map (·.path) := by
    rw [map_firstsBy]
    exact List.mem_eraseDups.mpr member
  obtain ⟨file, inside, rfl⟩ := List.mem_map.mp first
  rw [files_assembled]
  exact ⟨recordOf root file, List.mem_map_of_mem inside, rfl, rfl⟩

/-- The import edges are the requests between files, each where it first occurs. -/
theorem pairs_assembled :
    ((assembled root withFolders files imports).edgesOf .imports).map Edge.ends =
      ((assembled root withFolders files imports).importRequests imports).eraseDups := by
  let ends : Path × Path → String × String := fun pair => (pair.1.text, pair.2.text)
  have raw : (imports.flatMap fun row => row.2.map fun target => (row.1.text, target.text)) =
      (requests imports).map ends := by
    rw [requests, List.map_flatMap]
    simp only [List.map_map]
    rfl
  have test : ∀ pair ∈ requests imports,
      ((ends pair).1 ≠ (ends pair).2 && (assembled root withFolders files imports).isFile (ends pair).1 &&
        (assembled root withFolders files imports).isFile (ends pair).2) =
      decide (pair.1 ≠ pair.2 ∧ pair.1 ∈ files.map (·.path) ∧ pair.2 ∈ files.map (·.path)) := by
    intro pair _
    have differ : pair.1.text ≠ pair.2.text ↔ pair.1 ≠ pair.2 :=
      ⟨fun apart same => apart (congrArg _ same), fun apart same => apart (Path.text_injective same)⟩
    rw [Bool.eq_iff_iff]
    simp only [ends, Bool.and_eq_true, decide_eq_true_eq, isFile_assembled, differ, and_assoc]
  have asked : (assembled root withFolders files imports).importRequests imports =
      (imported (files.map (·.path)) imports).map ends := by
    rw [importRequests, raw, List.filter_map]
    exact congrArg (List.map ends) (List.filter_congr test)
  have apart : ∀ e ∈ (imported (files.map (·.path)) imports).map (importEdge root),
      ∀ e' ∈ (imported (files.map (·.path)) imports).map (importEdge root),
        e.ends = e'.ends → e = e' := by
    intro e member e' member' same
    obtain ⟨pair, -, rfl⟩ := List.mem_map.mp member
    obtain ⟨other, -, rfl⟩ := List.mem_map.mp member'
    rw [importEdge_injective same]
  rw [edgesOf_imports_assembled, map_eraseDups apart, List.map_map, asked]
  rfl

theorem mem_imports_assembled {e : Edge} :
    e ∈ (assembled root withFolders files imports).edgesOf .imports ↔
      ∃ pair ∈ imported (files.map (·.path)) imports, importEdge root pair = e := by
  rw [edgesOf_imports_assembled, List.mem_eraseDups, List.mem_map]

theorem mem_ends_imports_assembled {a b : Path} :
    (a.text, b.text) ∈ ((assembled root withFolders files imports).edgesOf .imports).map Edge.ends ↔
      (a, b) ∈ imported (files.map (·.path)) imports := by
  rw [List.mem_map]
  constructor
  · rintro ⟨e, member, same⟩
    obtain ⟨pair, inside, rfl⟩ := mem_imports_assembled.mp member
    rwa [importEdge_injective (show (importEdge root (a, b)).ends = _ from same.symm)]
  · exact fun inside => ⟨_, mem_imports_assembled.mpr ⟨_, inside, rfl⟩, rfl⟩

theorem mem_rollup_assembled {e : Edge} :
    e ∈ (assembled root true files imports).edgesOf .rollup ↔
      ∃ pair ∈ imported (files.map (·.path)) imports,
        clusterOf root pair.1 ≠ clusterOf root pair.2 ∧ clusterOf root pair.1 ≠ rootCluster ∧
          clusterOf root pair.2 ≠ rootCluster ∧
            e = ⟨clusterOf root pair.1, clusterOf root pair.2, .rollup, false⟩ := by
  rw [edgesOf_rollup_assembled, List.mem_eraseDups, List.mem_flatMap]
  refine exists_congr fun pair => and_congr_right fun _ => ?_
  rw [mem_rollupEdges, and_iff_right rfl]
  simp only [and_assoc]

theorem imports_assembled_iff {f g : FileNode} :
    (assembled root withFolders files imports).Imports f g ↔
      f ∈ (assembled root withFolders files imports).files ∧
        g ∈ (assembled root withFolders files imports).files ∧
          ∃ pair ∈ imported (files.map (·.path)) imports,
            f.id = pair.1.text ∧ g.id = pair.2.text := by
  refine and_congr_right fun _ => and_congr_right fun _ => ?_
  rw [List.mem_map]
  constructor
  · rintro ⟨e, member, same⟩
    obtain ⟨pair, inside, rfl⟩ := mem_imports_assembled.mp member
    simp only [Edge.ends, importEdge, Prod.mk.injEq] at same
    exact ⟨pair, inside, same.1.symm, same.2.symm⟩
  · rintro ⟨pair, inside, source, target⟩
    exact ⟨importEdge root pair, mem_imports_assembled.mpr ⟨pair, inside, rfl⟩, by
      rw [source, target]; rfl⟩

theorem cluster_of_id {f : FileNode} (member : f ∈ (assembled root withFolders files imports).files)
    {p : Path} (named : f.id = p.text) : f.cluster = clusterOf root p := by
  obtain ⟨file, -, id, cluster⟩ := file_of_mem_files member
  rw [cluster, Path.text_injective (id.symm.trans named)]

theorem rollups_assembled (A B : String) :
    (A, B) ∈ ((assembled root true files imports).edgesOf .rollup).map Edge.ends ↔
      A ≠ B ∧ A ≠ rootCluster ∧ B ≠ rootCluster ∧
        ∃ f g, (assembled root true files imports).Imports f g ∧ f.cluster = A ∧ g.cluster = B := by
  rw [List.mem_map]
  constructor
  · rintro ⟨e, member, same⟩
    obtain ⟨pair, inside, differ, above, below, rfl⟩ := mem_rollup_assembled.mp member
    obtain ⟨-, -, source, target⟩ := mem_imported.mp inside
    obtain ⟨f, held, id, cluster⟩ := exists_file_of_mem source
    obtain ⟨g, held', id', cluster'⟩ := exists_file_of_mem target
    simp only [Edge.ends, Prod.mk.injEq] at same
    obtain ⟨rfl, rfl⟩ := same
    exact ⟨differ, above, below, f, g,
      imports_assembled_iff.mpr ⟨held, held', pair, inside, id, id'⟩, cluster, cluster'⟩
  · rintro ⟨differ, above, below, f, g, linked, rfl, rfl⟩
    obtain ⟨held, held', pair, inside, id, id'⟩ := imports_assembled_iff.mp linked
    rw [cluster_of_id held id, cluster_of_id held' id'] at differ
    rw [cluster_of_id held id] at above ⊢
    rw [cluster_of_id held' id'] at below ⊢
    exact ⟨_, mem_rollup_assembled.mpr ⟨pair, inside, differ, above, below, rfl⟩, rfl⟩

theorem rollupsOnce_assembled :
    (((assembled root true files imports).edgesOf .rollup).map Edge.ends).Nodup := by
  refine List.Nodup.map_on ?_ (by rw [edgesOf_rollup_assembled]; exact nodup_eraseDups _)
  intro e member e' member' same
  obtain ⟨pair, -, -, -, -, rfl⟩ := mem_rollup_assembled.mp member
  obtain ⟨other, -, -, -, -, rfl⟩ := mem_rollup_assembled.mp member'
  simp only [Edge.ends, Prod.mk.injEq] at same
  simp only [same]

theorem linksImports_assembled (within : ∀ file ∈ files, file.path.Within root) :
    (assembled root true files imports).LinksImports root files imports where
  ids := by
    rw [ids_files_assembled, map_eraseDups fun _ _ _ _ => Path.text_injective, List.map_map]
    rfl
  clusters := by
    intro f member
    obtain ⟨file, inside, id, cluster⟩ := file_of_mem_files member
    exact ⟨file, inside, id, cluster ▸ owningFolder_of_within (within file inside)⟩
  pairs := pairs_assembled
  crossing := by
    intro e member
    obtain ⟨pair, inside, rfl⟩ := mem_imports_assembled.mp member
    obtain ⟨-, -, source, target⟩ := mem_imported.mp inside
    obtain ⟨f, held, id, cluster⟩ := exists_file_of_mem source
    obtain ⟨g, held', id', cluster'⟩ := exists_file_of_mem target
    refine ⟨f, held, g, held', by rw [id, id']; rfl, ?_⟩
    rw [cluster, cluster']
    exact bne_iff_ne
  rollups := rollups_assembled
  rollupsOnce := rollupsOnce_assembled
  noLoops := by
    intro e member
    rcases List.mem_append.mp member with link | rollup
    · obtain ⟨pair, inside, rfl⟩ := mem_imports_assembled.mp link
      exact fun same => (mem_imported.mp inside).2.1 (Path.text_injective same)
    · obtain ⟨pair, -, differ, -, -, rfl⟩ := mem_rollup_assembled.mp rollup
      exact differ

/-- The build of files below an absolute root, with folders, links files and folders exactly as the
    imports say. A path may be listed more than once. It returns, unless the lines of a file are no
    count; then it fails at that file. -/
theorem build_linksImports (absolute : root.isAbsolute = true)
    (within : ∀ file ∈ files, file.path.Within root)
    (placed : ∀ row ∈ imports, row.1.isAbsolute = true ∧ ∀ b ∈ row.2, b.isAbsolute = true) :
    (∃ s, Store.build root true files imports = .ok s ∧ s.LinksImports root files imports) ∨
      ∃ file ∈ files, file.metrics.loc < 0 ∧
        Store.build root true files imports = .error (.negativeLines file.path) := by
  rcases build_assembles absolute within placed with built | ⟨file, member, negative, failed⟩
  · exact .inl ⟨_, built true, linksImports_assembled within⟩
  · exact .inr ⟨file, member, negative, failed true⟩

/-- Two folders that import each other and a file in the root. One file is listed twice, imports
    itself, imports another one twice and imports one that is not listed. -/
theorem build_linksImports_mutual :
    ∃ s, Store.build (Path.parse "/r") true
        (["/r/a/x.ts", "/r/b/y.ts", "/r/z.ts", "/r/a/x.ts"].map ScannedFile.blank)
        [(Path.parse "/r/a/x.ts",
            ["/r/b/y.ts", "/r/a/x.ts", "/r/b/y.ts", "/r/z.ts", "/r/u.ts"].map Path.parse),
          (Path.parse "/r/b/y.ts", [Path.parse "/r/a/x.ts"])] = .ok s ∧
      s.LinksImports (Path.parse "/r")
        (["/r/a/x.ts", "/r/b/y.ts", "/r/z.ts", "/r/a/x.ts"].map ScannedFile.blank)
        [(Path.parse "/r/a/x.ts",
            ["/r/b/y.ts", "/r/a/x.ts", "/r/b/y.ts", "/r/z.ts", "/r/u.ts"].map Path.parse),
          (Path.parse "/r/b/y.ts", [Path.parse "/r/a/x.ts"])] :=
  (build_linksImports (by decide) (by decide) (by decide)).resolve_right
    fun ⟨file, member, negative, _⟩ => absurd ⟨file, member, negative⟩
      (by decide : ¬∃ file ∈ ["/r/a/x.ts", "/r/b/y.ts", "/r/z.ts", "/r/a/x.ts"].map ScannedFile.blank,
        file.metrics.loc < 0)

end Store

end RepoAtlas
