import RepoAtlas.Proofs.Graph.Separation

/-! # Graphs without folders

Folder nodes change what a store answers while files and imports are added. What comes of it is the
same: a build without folders leaves the files and the imports of the build with folders, in their
order, and nothing else.
-/

namespace RepoAtlas

open Builder

namespace Store

/-- The files of a graph and the imports between them. -/
def filesOnly (s : Store) : Store where
  nodes := s.nodes.filter (·.file?.isSome)
  edges := s.edgesOf .imports

variable {root : Path} {files : List ScannedFile} {imports : List (Path × List Path)}

theorem nodes_filesOnly_assembled :
    ((assembled root true files imports).filesOnly).nodes =
      (assembled root false files imports).nodes := by
  have folders : ((foldersAbove root true files).map (Node.folder <| folderNode root ·)).filter
      (·.file?.isSome) = [] := by
    rw [List.filter_eq_nil_iff]
    intro node member
    obtain ⟨parts, -, rfl⟩ := List.mem_map.mp member
    simp [Node.file?]
  have records : ((firstsBy (·.path) files).map (nodeOf root)).filter (·.file?.isSome) =
      (firstsBy (·.path) files).map (nodeOf root) := by
    rw [List.filter_eq_self]
    intro node member
    obtain ⟨file, -, rfl⟩ := List.mem_map.mp member
    rfl
  have bare : foldersAbove root false files = [] := rfl
  simp only [filesOnly, assembled, List.filter_append, folders, records, bare, List.map_nil,
    List.nil_append]

/-- Without folders there is nothing that holds a file and no rollup. -/
theorem edges_filesOnly_assembled :
    ((assembled root true files imports).filesOnly).edges =
      (assembled root false files imports).edges := by
  have unheld : hierarchyEdges root false files = [] := by
    have none : ∀ file ∈ files, fileEdges root false file = [] := fun _ _ => rfl
    exact List.flatMap_eq_nil_iff.mpr none
  have alone : ∀ pair : Path × Path, rollupEdges root false pair.1 pair.2 = [] := fun _ => rfl
  rw [filesOnly, edgesOf_imports_assembled, edges_assembled, unheld, List.nil_append]
  simp only [alone, ← List.map_eq_flatMap]

theorem filesOnly_assembled :
    (assembled root true files imports).filesOnly = assembled root false files imports := by
  refine congr (congrArg Store.mk ?nodes) ?edges
  case nodes => exact nodes_filesOnly_assembled
  case edges => exact edges_filesOnly_assembled

end Store

variable {root : Path} {files : List ScannedFile} {imports : List (Path × List Path)}

/-- A build without folders is the build with folders cut down to its files and imports. Both
    return, unless the lines of a file are not a count; then both fail at that file. -/
theorem build_filesOnly (absolute : root.isAbsolute = true)
    (within : ∀ file ∈ files, file.path.Within root)
    (placed : ∀ row ∈ imports, row.1.isAbsolute = true ∧ ∀ b ∈ row.2, b.isAbsolute = true) :
    (∃ s, Store.build root true files imports = .ok s ∧
        Store.build root false files imports = .ok s.filesOnly) ∨
      ∃ file ∈ files, file.metrics.loc < 0 ∧ ∀ withFolders,
        Store.build root withFolders files imports = .error (.negativeLines file.path) := by
  rcases build_assembles absolute within placed with built | unmeasured
  · refine .inl ⟨_, built true, ?_⟩
    rw [Store.filesOnly_assembled]
    exact built false
  · exact .inr unmeasured

/-- Two nested folders that import each other, a file in the root, and imports of what is no file. -/
theorem build_filesOnly_mutual :
    ∃ s, Store.build (Path.parse "/r") true
        (["/r/a/b/x.ts", "/r/c/y.ts", "/r/z.ts"].map ScannedFile.blank)
        [(Path.parse "/r/a/b/x.ts", ["/r/c/y.ts", "/r/u.ts", "/r/z.ts"].map Path.parse),
          (Path.parse "/r/c/y.ts", ["/r/a/b/x.ts", "/r/c/y.ts"].map Path.parse)] = .ok s ∧
      Store.build (Path.parse "/r") false
        (["/r/a/b/x.ts", "/r/c/y.ts", "/r/z.ts"].map ScannedFile.blank)
        [(Path.parse "/r/a/b/x.ts", ["/r/c/y.ts", "/r/u.ts", "/r/z.ts"].map Path.parse),
          (Path.parse "/r/c/y.ts", ["/r/a/b/x.ts", "/r/c/y.ts"].map Path.parse)] =
        .ok s.filesOnly := by
  refine (build_filesOnly (by decide) (by decide) (by decide)).resolve_right ?_
  rintro ⟨file, member, negative, -⟩
  exact absurd ⟨file, member, negative⟩
    (by decide : ¬∃ file ∈ ["/r/a/b/x.ts", "/r/c/y.ts", "/r/z.ts"].map ScannedFile.blank,
      file.metrics.loc < 0)

end RepoAtlas
