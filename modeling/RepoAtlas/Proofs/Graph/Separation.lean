import RepoAtlas.Proofs.Graph.Kinds

/-! # One id space, two tiers

A build fails with a file that does not lie under the root, or whose lines are no count, and in no
other way: no edge is ever refused. The graph that it leaves keeps the tiers apart, so the kind of an edge tells what
its ends are.
-/

namespace RepoAtlas

open Builder

namespace Store

/-- Ids of files and folders are apart, and the kind of an edge says what it joins. -/
structure Separated (s : Store) : Prop where
  apart : ∀ f ∈ s.files, ∀ d ∈ s.folders, f.id ≠ d.id
  folderIds : ∀ d ∈ s.folders, d.id ≠ rootCluster ∧ d.id.toList.head? ≠ some '/'
  imports : ∀ e ∈ s.edgesOf .imports,
    ∃ f g, s.node? e.source = some (.file f) ∧ s.node? e.target = some (.file g)
  hierarchy : ∀ e ∈ s.edgesOf .hierarchy,
    ∃ d node, s.node? e.source = some (.folder d) ∧ s.node? e.target = some node
  rollups : ∀ e ∈ s.edgesOf .rollup, e.source ≠ e.target ∧
    ∃ c d, s.node? e.source = some (.folder c) ∧ s.node? e.target = some (.folder d)

end Store

variable {root : Path} {withFolders : Bool} {files : List ScannedFile}
  {imports : List (Path × List Path)}

/-! ## Failing -/

theorem addFile_outside {s : Store} {file : ScannedFile} (outside : ¬file.path.Within root) :
    addFile root withFolders s file = .error (.outside file.path) := by
  rw [addFile, owningFolder, below_of_not_within outside]
  rfl

theorem exists_first_failing {α : Type} {p : α → Prop} {items : List α}
    (fails : ∃ a ∈ items, ¬p a) :
    ∃ front a rest, items = front ++ a :: rest ∧ (∀ b ∈ front, p b) ∧ ¬p a := by
  induction items with
  | nil => simp at fails
  | cons a rest ih =>
      by_cases fine : p a
      · have later : ∃ b ∈ rest, ¬p b := by
          obtain ⟨b, member, bad⟩ := fails
          rcases List.mem_cons.mp member with rfl | member
          · exact absurd fine bad
          · exact ⟨b, member, bad⟩
        obtain ⟨front, b, more, rfl, passed, bad⟩ := ih later
        exact ⟨a :: front, b, more, rfl, List.forall_mem_cons.mpr ⟨fine, passed⟩, bad⟩
      · exact ⟨[], a, rest, rfl, by simp, fine⟩

theorem foldersOf_outside {front rest : List ScannedFile} {file : ScannedFile}
    (fine : ∀ f ∈ front, f.path.Within root) (outside : ¬file.path.Within root) :
    foldersOf root (front ++ file :: rest) = .error (.outside file.path) := by
  rw [foldersOf, List.mapM_append, mapM_below fine, ok_bind, List.mapM_cons,
    below_of_not_within outside]
  rfl

/-- The complaint is about a file that lies elsewhere, or whose lines are no count. -/
inductive Blames (root : Path) (file : ScannedFile) : BuildProblem → Prop where
  | outside (apart : ¬file.path.Within root) : Blames root file (.outside file.path)
  | negativeLines (negative : file.metrics.loc < 0) : Blames root file (.negativeLines file.path)

theorem fileSize?_eq_none {loc : Int} (negative : loc < 0) : Palette.fileSize? loc = none :=
  if_pos negative

/-- A file that cannot be built is refused whatever was added before. -/
theorem addFile_refused {file : ScannedFile}
    (unfit : ¬(file.path.Within root ∧ 0 ≤ file.metrics.loc)) :
    ∃ problem, Blames root file problem ∧
      ∀ withFolders s, addFile root withFolders s file = .error problem := by
  by_cases within : file.path.Within root
  · have negative : file.metrics.loc < 0 := Int.not_le.mp fun counted => unfit ⟨within, counted⟩
    refine ⟨_, .negativeLines negative, fun withFolders s => ?_⟩
    rw [addFile, owningFolder_of_within within, ok_bind, fileSize?_eq_none negative]
  · exact ⟨_, .outside within, fun withFolders s => addFile_outside within⟩

theorem build_outside (imports : List (Path × List Path)) (absolute : root.isAbsolute = true)
    (outside : ∃ file ∈ files, ¬file.path.Within root) :
    ∃ file ∈ files, ∃ problem, Blames root file problem ∧
      Store.build root withFolders files imports = .error problem := by
  cases withFolders with
  | true =>
      obtain ⟨front, file, rest, rfl, fine, apart⟩ := exists_first_failing outside
      refine ⟨file, by simp, _, .outside apart, ?_⟩
      rw [build_eq_loops, if_pos rfl, addFolders, foldersOf_outside fine apart]
      rfl
  | false =>
      have unfit : ∃ file ∈ files, ¬(file.path.Within root ∧ 0 ≤ file.metrics.loc) :=
        outside.imp fun file apart => ⟨apart.1, fun fit => apart.2 fit.1⟩
      obtain ⟨front, file, rest, rfl, fine, unfit⟩ := exists_first_failing unfit
      obtain ⟨problem, blamed, refused⟩ := addFile_refused unfit
      refine ⟨file, by simp, problem, blamed, ?_⟩
      have start : Store.empty = fileStage root false (foldersAbove root false front) [] := rfl
      rw [build_eq_loops, if_neg (by decide), ok_bind, List.foldlM_append, start,
        addFiles_eq absolute (fun f member => (fine f member).1) (fun f member => (fine f member).2),
        ok_bind, List.foldlM_cons, refused]
      rfl

/-- The lines of a file are counted, so their number is not negative; a file that breaks this has no
    size, and the first such file ends a build with or without folders. -/
theorem build_unmeasured (imports : List (Path × List Path)) (absolute : root.isAbsolute = true)
    (within : ∀ file ∈ files, file.path.Within root)
    (unmeasured : ∃ file ∈ files, ¬0 ≤ file.metrics.loc) :
    ∃ file ∈ files, file.metrics.loc < 0 ∧ ∀ withFolders,
      Store.build root withFolders files imports = .error (.negativeLines file.path) := by
  obtain ⟨front, file, rest, split, measured, negative⟩ := exists_first_failing unmeasured
  have part : front ⊆ files := by simp [split]
  have member : file ∈ files := by simp [split]
  refine ⟨file, member, by omega, fun withFolders => ?_⟩
  have refused : ∀ s, addFile root withFolders s file = .error (.negativeLines file.path) := by
    intro s
    rw [addFile, owningFolder_of_within (within file member), ok_bind, fileSize?_eq_none (by omega)]
  have loop : files.foldlM (addFile root withFolders)
      (fileStage root withFolders (foldersAbove root withFolders files) []) =
        .error (.negativeLines file.path) := by
    conv_lhs => rw [split, List.foldlM_append]
    rw [← split, addFront_eq absolute within part measured, ok_bind, List.foldlM_cons, refused]
    rfl
  rw [build_eq_loops, folders_eq within, ok_bind, loop]
  rfl

/-- With files below an absolute root and imports of absolute paths a build ends at the assembled
    graph, or fails at a file whose lines are no count. -/
theorem build_assembles (absolute : root.isAbsolute = true)
    (within : ∀ file ∈ files, file.path.Within root)
    (placed : ∀ row ∈ imports, row.1.isAbsolute = true ∧ ∀ b ∈ row.2, b.isAbsolute = true) :
    (∀ withFolders, Store.build root withFolders files imports =
        .ok (Store.assembled root withFolders files imports)) ∨
      ∃ file ∈ files, file.metrics.loc < 0 ∧ ∀ withFolders,
        Store.build root withFolders files imports = .error (.negativeLines file.path) := by
  by_cases measured : ∀ file ∈ files, 0 ≤ file.metrics.loc
  case pos => exact .inl fun _ => build_eq_assembled absolute within measured placed
  case neg => exact .inr (build_unmeasured imports absolute within (by simpa using measured))

section Built

variable {s : Store}

/-- A loop that ends took a turn for each item. -/
theorem exists_turn {ε σ α : Type} {f : σ → α → Except ε σ} {items : List α} {s s' : σ}
    (done : items.foldlM f s = .ok s') : ∀ a ∈ items, ∃ t t', f t a = .ok t' := by
  induction items generalizing s with
  | nil => exact fun a member => nomatch member
  | cons first rest ih =>
      rw [List.foldlM_cons] at done
      obtain ⟨middle, turned, later⟩ := exists_of_bind_ok done
      exact List.forall_mem_cons.mpr ⟨⟨s, middle, turned⟩, ih later⟩

theorem addFile_of_build (built : Store.build root withFolders files imports = .ok s) :
    ∀ file ∈ files, ∃ t t', addFile root withFolders t file = .ok t' := by
  rw [build_eq_loops] at built
  obtain ⟨folders, -, built⟩ := exists_of_bind_ok built
  obtain ⟨nodes, added, -⟩ := exists_of_bind_ok built
  exact exists_turn added

/-- Only files below the root are built into a graph. -/
theorem within_of_build (built : Store.build root withFolders files imports = .ok s) :
    ∀ file ∈ files, file.path.Within root := by
  intro file member
  obtain ⟨t, t', added⟩ := addFile_of_build built file member
  by_contra outside
  cases (addFile_outside outside).symm.trans added

/-- Only files that were measured are built into a graph. -/
theorem measured_of_build (built : Store.build root withFolders files imports = .ok s) :
    ∀ file ∈ files, 0 ≤ file.metrics.loc := by
  intro file member
  obtain ⟨t, t', added⟩ := addFile_of_build built file member
  by_contra negative
  rw [addFile, owningFolder_of_within (within_of_build built file member), ok_bind,
    fileSize?_eq_none (by omega)] at added
  cases added

end Built

/-! ## What an id names -/

theorem Store.Separated.ends_mem {s : Store} (separated : s.Separated) {e : Edge}
    (member : e ∈ s.edges) : e.source ∈ s.nodes.map Node.id ∧ e.target ∈ s.nodes.map Node.id := by
  have ofKind : e ∈ s.edgesOf e.kind := List.mem_filter.mpr ⟨member, by simp⟩
  cases kind : e.kind with
  | imports =>
      obtain ⟨f, g, source, target⟩ := separated.imports e (kind ▸ ofKind)
      exact ⟨mem_ids_of_node? source, mem_ids_of_node? target⟩
  | hierarchy =>
      obtain ⟨d, node, source, target⟩ := separated.hierarchy e (kind ▸ ofKind)
      exact ⟨mem_ids_of_node? source, mem_ids_of_node? target⟩
  | rollup =>
      obtain ⟨-, c, d, source, target⟩ := separated.rollups e (kind ▸ ofKind)
      exact ⟨mem_ids_of_node? source, mem_ids_of_node? target⟩

section Held

variable (absolute : root.isAbsolute = true) (within : ∀ file ∈ files, file.path.Within root)

include absolute within

theorem Store.nodup_ids_assembled :
    ((Store.assembled root withFolders files imports).nodes.map Node.id).Nodup := by
  rw [Store.ids_assembled]
  refine List.nodup_append.mpr ⟨nodup_joined_foldersAbove, nodup_eraseDups _, ?_⟩
  intro id folder id' text same
  obtain ⟨parts, above, rfl⟩ := List.mem_map.mp folder
  obtain ⟨file, member, rfl⟩ := List.mem_map.mp (List.mem_eraseDups.mp text)
  exact Path.joined_ne_text (proper_of_mem_foldersAbove above).2
    ((within file member).isAbsolute absolute) same

theorem node?_text {p : Path} (member : p ∈ files.map (·.path)) :
    ∃ f, (Store.assembled root withFolders files imports).node? p.text = some (.file f) := by
  obtain ⟨file, inside, rfl⟩ := List.mem_map.mp member
  have held : file.path.text ∈
      (Store.assembled root withFolders files imports).nodes.map Node.id := by
    rw [Store.ids_assembled]
    exact List.mem_append_right _ (List.mem_eraseDups.mpr (List.mem_map_of_mem inside))
  obtain ⟨node, among, same, found⟩ := Store.node?_of_mem held
  rcases List.mem_append.mp among with folder | text
  · obtain ⟨parts, above, rfl⟩ := List.mem_map.mp folder
    exact absurd same (Path.joined_ne_text (proper_of_mem_foldersAbove above).2
      ((within file inside).isAbsolute absolute))
  · obtain ⟨other, -, rfl⟩ := List.mem_map.mp text
    exact ⟨_, found⟩

theorem node?_joined {parts : List String} (above : parts ∈ foldersAbove root withFolders files) :
    ∃ d, (Store.assembled root withFolders files imports).node? (Path.joined parts) =
      some (.folder d) := by
  have held : Path.joined parts ∈
      (Store.assembled root withFolders files imports).nodes.map Node.id := by
    rw [Store.ids_assembled]
    exact List.mem_append_left _ (List.mem_map_of_mem above)
  obtain ⟨node, among, same, found⟩ := Store.node?_of_mem held
  rcases List.mem_append.mp among with folder | text
  · obtain ⟨other, -, rfl⟩ := List.mem_map.mp folder
    exact ⟨_, found⟩
  · obtain ⟨other, first, rfl⟩ := List.mem_map.mp text
    have inside := (firstsBy_sublist (·.path) files).subset first
    exact absurd same.symm (Path.joined_ne_text (proper_of_mem_foldersAbove above).2
      ((within other inside).isAbsolute absolute))

/-- The cluster of a file is a folder node unless it is the root cluster or folders are left out. -/
theorem node?_clusterOf (measured : ∀ file ∈ files, 0 ≤ file.metrics.loc)
    (shown : withFolders = true) {p : Path} (member : p ∈ files.map (·.path))
    (deep : clusterOf root p ≠ rootCluster) :
    ∃ d, (Store.assembled root withFolders files imports).node? (clusterOf root p) =
      some (.folder d) := by
  obtain ⟨file, inside, rfl⟩ := List.mem_map.mp member
  have inner := mt clusterOf_eq_rootCluster_iff.mpr deep
  rw [clusterOf_of_deep inner]
  exact node?_joined absolute within
    ((fits_foldersAbove within inside (measured file inside)).above shown inner)

theorem separated_assembled (measured : ∀ file ∈ files, 0 ≤ file.metrics.loc) :
    (Store.assembled root withFolders files imports).Separated := by
  constructor
  case apart =>
    intro f file d folder
    rw [Store.files_assembled] at file
    rw [Store.folders_assembled] at folder
    obtain ⟨scanned, first, rfl⟩ := List.mem_map.mp file
    obtain ⟨parts, above, rfl⟩ := List.mem_map.mp folder
    have inside := (firstsBy_sublist (·.path) files).subset first
    exact (Path.joined_ne_text (proper_of_mem_foldersAbove above).2
      ((within scanned inside).isAbsolute absolute)).symm
  case folderIds =>
    intro d folder
    rw [Store.folders_assembled] at folder
    obtain ⟨parts, above, rfl⟩ := List.mem_map.mp folder
    obtain ⟨nonempty, proper⟩ := proper_of_mem_foldersAbove above
    exact ⟨Path.joined_ne_dot nonempty proper, Path.head_joined_ne_slash proper⟩
  case imports =>
    intro e member
    rw [Store.edgesOf_imports_assembled, List.mem_eraseDups, List.mem_map] at member
    obtain ⟨pair, among, rfl⟩ := member
    obtain ⟨-, -, source, target⟩ := mem_imported.mp among
    obtain ⟨f, found⟩ := node?_text absolute within source
    obtain ⟨g, found'⟩ := node?_text absolute within target
    exact ⟨f, g, found, found'⟩
  case hierarchy =>
    intro e member
    rw [Store.edgesOf_hierarchy_assembled, List.mem_eraseDups] at member
    rcases List.mem_append.mp member with ofFolder | ofFile
    · obtain ⟨parts, above, inside⟩ := List.mem_flatMap.mp ofFolder
      obtain ⟨deep, rfl⟩ := mem_folderEdges.mp inside
      obtain ⟨d, found⟩ := node?_joined absolute within (dropLast_mem_foldersAbove above deep)
      obtain ⟨c, found'⟩ := node?_joined absolute within above
      exact ⟨d, _, found, found'⟩
    · obtain ⟨file, among, inside⟩ := List.mem_flatMap.mp ofFile
      obtain ⟨⟨shown, deep⟩, rfl⟩ := mem_fileEdges.mp inside
      obtain ⟨d, found⟩ := node?_clusterOf absolute within measured shown
        (List.mem_map_of_mem among) deep
      obtain ⟨f, found'⟩ := node?_text absolute within (List.mem_map_of_mem among)
      exact ⟨d, _, found, found'⟩
  case rollups =>
    intro e member
    rw [Store.edgesOf_rollup_assembled, List.mem_eraseDups, List.mem_flatMap] at member
    obtain ⟨pair, among, inside⟩ := member
    obtain ⟨-, -, source, target⟩ := mem_imported.mp among
    obtain ⟨⟨shown, differ, above, above'⟩, rfl⟩ := mem_rollupEdges.mp inside
    obtain ⟨c, found⟩ := node?_clusterOf absolute within measured shown source above
    obtain ⟨d, found'⟩ := node?_clusterOf absolute within measured shown target above'
    exact ⟨differ, c, d, found, found'⟩

end Held

/-- A build under an absolute root fails exactly for a file outside of it or one whose lines are no
    count, with the complaint about such a file, and leaves tiers that are apart. -/
theorem build_fails_iff_outside (absolute : root.isAbsolute = true)
    (placed : ∀ row ∈ imports, row.1.isAbsolute = true ∧ ∀ b ∈ row.2, b.isAbsolute = true) :
    ((∃ problem, Store.build root withFolders files imports = .error problem) ↔
        (∃ file ∈ files, ¬file.path.Within root) ∨ ∃ file ∈ files, file.metrics.loc < 0) ∧
      (∀ problem, Store.build root withFolders files imports = .error problem →
        ∃ file ∈ files, Blames root file problem) ∧
      ∀ s, Store.build root withFolders files imports = .ok s → s.Separated := by
  by_cases within : ∀ file ∈ files, file.path.Within root
  · by_cases measured : ∀ file ∈ files, 0 ≤ file.metrics.loc
    · rw [build_eq_assembled absolute within measured placed]
      refine ⟨by simpa using ⟨within, measured⟩, by simp, ?_⟩
      intro s built
      cases built
      exact separated_assembled absolute within measured
    · obtain ⟨file, member, negative, failed⟩ :=
        build_unmeasured imports absolute within (by simpa using measured)
      rw [failed]
      refine ⟨by simpa using .inr ⟨file, member, negative⟩, ?_, by simp⟩
      intro problem failure
      cases failure
      exact ⟨file, member, .negativeLines negative⟩
  · have outside : ∃ file ∈ files, ¬file.path.Within root := by simpa using within
    obtain ⟨file, member, problem, blamed, failed⟩ := build_outside imports absolute outside
    rw [failed]
    refine ⟨by simp [outside], ?_, by simp⟩
    intro problem failure
    cases failure
    exact ⟨file, member, blamed⟩

/-- A folder whose name starts like the root lies outside; the root as a file does not. -/
theorem build_fails_iff_outside_sibling :
    (∃ problem, Store.build (Path.parse "/r") true
        (["/r/a/x.ts", "/rs/y.ts"].map ScannedFile.blank)
        [(Path.parse "/q/z.ts", [Path.parse "/r/a/x.ts"])] = .error problem) ∧
      ¬∃ problem, Store.build (Path.parse "/r") true (["/r/a/x.ts", "/r"].map ScannedFile.blank)
        [(Path.parse "/r", [Path.parse "/r/a/x.ts"])] = .error problem := by
  constructor
  · exact (build_fails_iff_outside (by decide) (by decide)).1.mpr (by decide)
  · exact fun failed =>
      absurd ((build_fails_iff_outside (by decide) (by decide)).1.mp failed) (by decide)

end RepoAtlas
