import RepoAtlas.Proofs.Outcome

/-! # Comparing two surveys

A survey knows of the disk only the paths that a scan lists, the texts that can be read at them and
the commits that were counted. So two surveys are compared by these: first by the paths, on which the
folders, the hierarchy and the index of names depend alone, and then file by file.
-/

namespace RepoAtlas

theorem firstsBy_map {α β : Type} [BEq α] [LawfulBEq α] {key : β → α} {g : α → β}
    (keyed : ∀ a, key (g a) = a) (items : List α) :
    firstsBy key (items.map g) = items.eraseDups.map g := by
  induction items using List.reverseRecOn with
  | nil => rfl
  | append_singleton items a ih =>
      have keys : (items.map g).map key = items := by simp [Function.comp_def, keyed]
      rw [List.map_append, List.map_singleton, firstsBy_concat, keys, keyed, eraseDups_concat, ih]
      split
      · rfl
      · rw [List.map_append, List.map_singleton]

/-! ## What is read -/

namespace Disk

/-- The files that can be read. -/
def readable (d : Disk) (files : List Path) : List Path :=
  files.filter fun p => (d.text p).toOption.isSome

/-- What is kept of the file at a path. -/
def fileOf (d : Disk) (reader : Script.Reader) (commits : History.Counts) (p : Path) : ScannedFile :=
  ScannedFile.ofText reader p ((d.text p).toOption.getD "") ((commits.lookup p).getD 0)

variable {d d' : Disk} {reader : Script.Reader} {commits commits' : History.Counts}

@[simp]
theorem path_fileOf (p : Path) : (d.fileOf reader commits p).path = p := rfl

theorem readFiles_eq (d : Disk) (reader : Script.Reader) (commits : History.Counts)
    (files : List Path) :
    d.readFiles reader commits files = (d.readable files).map (d.fileOf reader commits) := by
  induction files with
  | nil => rfl
  | cons p rest ih =>
      rw [readFiles, List.filterMap_cons, readable, List.filter_cons, readSource]
      cases read : d.text p with
      | error problem => exact ih
      | ok text =>
          have kept : d.fileOf reader commits p =
              ScannedFile.ofText reader p text ((commits.lookup p).getD 0) := by
            rw [fileOf, read]
            rfl
          rw [if_pos (by rfl), List.map_cons, kept]
          exact congrArg _ ih

theorem fileOf_congr {p : Path} (texts : d.text p = d'.text p)
    (counts : commits.lookup p = commits'.lookup p) :
    d.fileOf reader commits p = d'.fileOf reader commits' p := by
  rw [fileOf, fileOf, texts, counts]

@[simp]
theorem map_path_fileOf (paths : List Path) :
    (paths.map (d.fileOf reader commits)).map (·.path) = paths := by
  simp [Function.comp_def]

theorem Roots.mem_readable {root p : Path} {top : Entry} (roots : d.Roots root top) {s : Selection} :
    p ∈ d.readable (d.listing root s) ↔ d.Shows s root p := by
  rw [← roots.shows_iff .ofGrammar [], readFiles_eq, map_path_fileOf]

theorem Roots.within_readable {root : Path} {top : Entry} (roots : d.Roots root top) {s : Selection} :
    ∀ p ∈ d.readable (d.listing root s), p.Within root := by
  intro p shown
  obtain ⟨_, -, -, shows⟩ := roots.mem_readable.mp shown
  exact shows.within

/-- Paths below a root in the order of their names are told by which they are. -/
theorem eq_of_ordered {root : Path} {paths paths' : List Path}
    (ordered : paths.Pairwise fun p q => root.beyond p < root.beyond q)
    (ordered' : paths'.Pairwise fun p q => root.beyond p < root.beyond q)
    (same : ∀ p, p ∈ paths ↔ p ∈ paths') : paths = paths' := by
  have once : ∀ {ps : List Path}, ps.Pairwise (fun p q => root.beyond p < root.beyond q) →
      ps.Nodup := by
    intro ps ordered
    refine ordered.imp ?_
    rintro p q before rfl
    exact List.lt_irrefl _ before
  refine ((List.perm_ext_iff_of_nodup (once ordered) (once ordered')).mpr same).eq_of_pairwise
    ?_ ordered ordered'
  intro p q _ _ before after
  exact absurd (List.lt_trans before after) (List.lt_irrefl _)

theorem Roots.pairwise_readable {root : Path} {top : Entry} (roots : d.Roots root top)
    {s : Selection} :
    (d.readable (d.listing root s)).Pairwise fun p q => root.beyond p < root.beyond q :=
  roots.lists_listing.ordered.sublist List.filter_sublist

/-- What is shown is shown in one order, whatever lies between. -/
theorem readable_listing_congr {root : Path} {top top' : Entry} {s : Selection}
    (roots : d.Roots root top) (roots' : d'.Roots root top')
    (shown : ∀ p, d.Shows s root p ↔ d'.Shows s root p) :
    d.readable (d.listing root s) = d'.readable (d'.listing root s) := by
  refine eq_of_ordered roots.pairwise_readable roots'.pairwise_readable fun p => ?_
  rw [roots.mem_readable, roots'.mem_readable, shown]

end Disk

/-! ## The survey of what is read -/

/-- The files that a survey builds its graph of. -/
def Survey.scanned (d : Disk) (reader : Script.Reader) (root : Path) (s : Selection)
    (commits : History.Counts) : List ScannedFile :=
  (d.readable (d.listing root s)).map (d.fileOf reader commits)

/-- The store of the graph of these files. -/
def Survey.storeOf (settings : Settings) (root : Path) (scanned : List ScannedFile) : Store :=
  Store.assembled root settings.includeFolders.isYes scanned (importsOf settings scanned)

theorem Survey.importsOf_map {settings : Settings} {paths : List Path} {file : Path → ScannedFile}
    (keyed : ∀ p, (file p).path = p) :
    Survey.importsOf settings (paths.map file) = paths.map fun p =>
      (p, (file p).specifiers.filterMap
        (resolve (Index.ofPaths paths) (some p) settings.relativeFirst.isYes)) := by
  simp [Survey.importsOf, resolveAll, Function.comp_def, keyed]

theorem Survey.counts_of_off {d : Disk} {machine : Machine} {settings : Settings} {root : Path}
    {files : List Path} (off : settings.churnMode = .off) :
    counts d machine settings root files = .ok [] := by
  simp [counts, History.collect, off, Except.map]

/-- Once the rules are compiled, settings of the kinds that are meant leave nothing to fail for if no
    commits are counted. -/
theorem Survey.not_fails {d : Disk} {machine : Machine} {settings : Settings} {root : Path}
    {known : Option (String → Bool)} {problem : SurveyProblem}
    (compiled : Survey.rules d machine.compile settings root = .ok known)
    (typed : settings.WellTyped) (short : root.text.utf8ByteSize ≤ Disk.longestPath)
    (off : settings.churnMode = .off) : ¬Fails d machine settings root problem := by
  obtain ⟨top, bound⟩ := typed.topN
  refine not_fails_iff.mpr ⟨⟨known, compiled⟩, typed.plain, short,
    fun _ _ => ⟨⟨[], counts_of_off off⟩, .inl ⟨top, ?_⟩⟩⟩ problem
  rw [bound]
  rfl

section Root

variable {d : Disk} {machine : Machine} {settings : Settings} {root : Path} {top : Entry}
  (roots : d.Roots root top)

include roots

/-- The graph of what was read is its store, as soon as that has a summary. -/
theorem Disk.Roots.graphOf_scanned {s : Selection} {commits : History.Counts} :
    let store := Survey.storeOf settings root (Survey.scanned d machine.reader root s commits)
    Survey.graphOf settings root (d.readFiles machine.reader commits (d.listing root s)) =
      (Survey.summary settings store).map fun stats => { root := some root, store, stats } := by
  intro store
  have within : ∀ file ∈ d.readFiles machine.reader commits (d.listing root s),
      file.path.Within root := roots.within_readFiles
  rw [Survey.graphOf_eq_summary roots.absolute within fun file member => (read_of_mem member).1,
    readFiles_eq]
  rfl

/-- A survey of a short root compiles the rules, looks at the excluded names, counts the commits of
    the listed files, and sums up the store of what was read. -/
theorem Disk.Roots.graphAt_eq_bind (short : root.text.utf8ByteSize ≤ longestPath) :
    Survey.graphAt d machine settings root =
      Survey.rules d machine.compile settings root >>= fun known =>
      Survey.excludedNames settings.excludedDirs >>= fun _ =>
      (Survey.counts d machine settings root (d.listing root (settings.selection known))).mapError
        .counting >>= fun commits =>
      let store := Survey.storeOf settings root
        (Survey.scanned d machine.reader root (settings.selection known) commits)
      (Survey.summary settings store).map fun stats => { root := some root, store, stats } := by
  rw [Survey.graphAt_eq_bind]
  simp only [roots.scan_of_short short, ok_bind, roots.graphOf_scanned]

theorem Disk.Roots.graphAt_of_long (long : longestPath < root.text.utf8ByteSize) :
    Survey.graphAt d machine settings root =
      Survey.rules d machine.compile settings root >>= fun _ =>
      Survey.excludedNames settings.excludedDirs >>= fun _ =>
      .error (.path (.access .tooLong)) := by
  rw [Survey.graphAt_eq_bind]
  simp only [roots.scan_of_long long, error_bind]

/-- A survey that returns holds the store of what was read. -/
theorem Disk.Roots.store_of_graphAt {g : RepoGraph}
    (done : Survey.graphAt d machine settings root = .ok g) :
    root.text.utf8ByteSize ≤ longestPath ∧
      ∃ known commits, Survey.rules d machine.compile settings root = .ok known ∧
        Survey.counts d machine settings root (d.listing root (settings.selection known)) =
          .ok commits ∧
        g.store = Survey.storeOf settings root
          (Survey.scanned d machine.reader root (settings.selection known) commits) := by
  by_cases long : longestPath < root.text.utf8ByteSize
  · rw [roots.graphAt_of_long long] at done
    obtain ⟨_, -, done⟩ := exists_of_bind_ok done
    obtain ⟨_, -, done⟩ := exists_of_bind_ok done
    cases done
  · have short := Nat.not_lt.mp long
    rw [roots.graphAt_eq_bind short] at done
    obtain ⟨known, compiled, done⟩ := exists_of_bind_ok done
    obtain ⟨names, -, done⟩ := exists_of_bind_ok done
    obtain ⟨commits, counted, done⟩ := exists_of_bind_ok done
    obtain ⟨stats, -, rfl⟩ := exists_of_map_ok done
    exact ⟨short, known, commits, compiled, mapError_eq_ok_iff.mp counted, rfl⟩

end Root

/-! ## Graphs of the same paths -/

namespace Builder

variable {root : Path} {withFolders : Bool} {files files' : List ScannedFile}

theorem foldersAbove_congr (same : files.map (·.path) = files'.map (·.path)) :
    foldersAbove root withFolders files = foldersAbove root withFolders files' := by
  have chains := congrArg (List.flatMap fun p => folderChain (root.beyond p)) same
  rw [List.flatMap_map, List.flatMap_map] at chains
  rw [foldersAbove, foldersAbove, chains]

theorem hierarchyEdges_congr (same : files.map (·.path) = files'.map (·.path)) :
    hierarchyEdges root withFolders files = hierarchyEdges root withFolders files' := by
  have byPath : ∀ fs : List ScannedFile, fs.flatMap (fileEdges root withFolders) =
      (fs.map (·.path)).flatMap fun p => fileEdges root withFolders (.ofText .ofGrammar p "" 0) := by
    intro fs
    rw [List.flatMap_map]
    exact congrArg (fs.flatMap ·) (funext fun file => fileEdges_congr rfl)
  rw [hierarchyEdges, hierarchyEdges, foldersAbove_congr same, byPath, byPath files', same]

end Builder

namespace Store

open Builder

variable {root : Path} {withFolders : Bool} {imports imports' : List (Path × List Path)}

theorem edgesOf_hierarchy_congr {files files' : List ScannedFile}
    (same : files.map (·.path) = files'.map (·.path)) :
    (assembled root withFolders files imports).edgesOf .hierarchy =
      (assembled root withFolders files' imports').edgesOf .hierarchy := by
  rw [edgesOf_hierarchy_assembled, edgesOf_hierarchy_assembled, hierarchyEdges_congr same]

/-- A view of the nodes is the same for files at the same paths that look the same in it. -/
theorem map_nodes_congr {α : Type} {view : Node → α} {paths : List Path}
    {file file' : Path → ScannedFile} (keyed : ∀ p, (file p).path = p)
    (keyed' : ∀ p, (file' p).path = p)
    (same : ∀ p ∈ paths, view (nodeOf root (file p)) = view (nodeOf root (file' p))) :
    (assembled root withFolders (paths.map file) imports).nodes.map view =
      (assembled root withFolders (paths.map file') imports').nodes.map view := by
  have folders : foldersAbove root withFolders (paths.map file) =
      foldersAbove root withFolders (paths.map file') :=
    foldersAbove_congr (by simp [Function.comp_def, keyed, keyed'])
  rw [assembled, assembled, firstsBy_map keyed, firstsBy_map keyed', folders, List.map_append,
    List.map_append]
  congr 1
  simp only [List.map_map]
  exact List.map_congr_left fun p member => same p (List.mem_eraseDups.mp member)

end Store

end RepoAtlas
