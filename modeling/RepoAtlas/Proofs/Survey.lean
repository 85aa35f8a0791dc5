import RepoAtlas.Proofs.Graph.Imports
import RepoAtlas.Proofs.Graph.Separation
import RepoAtlas.Proofs.Index
import RepoAtlas.Proofs.Listing
import RepoAtlas.Survey

/-! # What a survey shows

The graph of a folder is told from the tree alone: its files are those that a scan lists and that
can be read, its imports are resolved among exactly these, and nothing else leaves a trace in nodes,
edges or summary. The stages pass lists of paths on, so each list is first described by what its
paths are on the disk.
-/

namespace RepoAtlas

/-- Names and bounds are of the kinds that are meant for them. -/
structure Settings.WellTyped (s : Settings) : Prop where
  excludedDirs : ∀ v ∈ s.excludedDirs, ∃ name, v = .text name
  topN : ∃ n, s.topN = .whole n

/-- The selection that settings and ignore rules make. -/
def Settings.selection (s : Settings) (rules : Option (String → Bool)) : Selection where
  extensions := s.extensions
  excluded := s.excludedDirs.filterMap (·.text?)
  ignored := Ignore.ignoredBy rules

/-- The files of a graph as paths. -/
def RepoGraph.filePaths (g : RepoGraph) : List Path := g.store.files.map (Path.parse ·.id)

/-- The path stands for a file below the root that a selection lists, and that can be reached and
    read. -/
structure Selection.Shows (s : Selection) (root : Path) (top : Entry) (p : Path) : Prop where
  within : p.Within root
  listed : s.Lists top (root.beyond p)
  readable : ∃ bytes, top.reach? (root.beyond p) = some (.file bytes true)

/-- The graph shows what the settings select of the tree at its root, and nothing else. -/
structure RepoGraph.Depicts (g : RepoGraph) (d : Disk) (reader : Script.Reader) (settings : Settings)
    (rules : Option (String → Bool)) (root : Path) (top : Entry) : Prop where
  ids : g.store.files.map (·.id) = g.filePaths.map Path.text
  files : ∀ p, p ∈ g.filePaths ↔ top.IsListed ∧ (settings.selection rules).Shows root top p
  ordered : g.filePaths.Pairwise fun p q => root.beyond p < root.beyond q
  imports : ∀ a b : Path, (a.text, b.text) ∈ (g.store.edgesOf .imports).map Edge.ends ↔
    a ≠ b ∧ a ∈ g.filePaths ∧ b ∈ g.filePaths ∧ ∃ text, d.text a = .ok text ∧
      ∃ specifier ∈ specifiersOf reader a text, resolve (Index.ofPaths g.filePaths) (some a)
        settings.relativeFirst.isYes specifier = some b
  importEnds : ∀ e ∈ g.store.edgesOf .imports, ∃ a b : Path, e.ends = (a.text, b.text)
  nodes : ∀ id ∈ g.store.nodes.map Node.id, (∃ p ∈ g.filePaths, id = p.text) ∨
    ∃ parts, (settings.selection rules).Enters top parts ∧ id = Path.joined parts
  ends : ∀ e ∈ g.store.edges,
    e.source ∈ g.store.nodes.map Node.id ∧ e.target ∈ g.store.nodes.map Node.id
  mostEdited : ∀ entry ∈ g.stats.mostEdited, ∃ p ∈ g.filePaths, entry.path = p.text

/-! ## The listed files -/

theorem Settings.WellTyped.plain {s : Settings} (typed : s.WellTyped) :
    ∀ v ∈ s.excludedDirs, v.hasParts = false := by
  intro v member
  obtain ⟨name, rfl⟩ := typed.excludedDirs v member
  rfl

theorem Survey.excludedNames_of_plain {excluded : List Value}
    (plain : ∀ v ∈ excluded, v.hasParts = false) :
    excludedNames excluded = .ok (excluded.filterMap (·.text?)) := by
  have none : excluded.any (·.hasParts) = false := by
    rw [List.any_eq_false]
    intro v member
    simp [plain v member]
  rw [excludedNames, none]
  rfl

namespace Disk

variable {d : Disk} {root : Path} {top : Entry}

/-- The path is a folder, and this is its path without links. -/
structure Starts (d : Disk) (folder root : Path) : Prop where
  isFolder : d.isFolder folder = .ok true
  resolved : d.resolve folder = .ok root

/-- The folder that a survey starts from: a settled place of a tidy disk. -/
structure Roots (d : Disk) (root : Path) (top : Entry) : Prop where
  tidy : d.root.Tidy
  anchor : root.anchor = .root
  settled : d.Settled root.parts top
  folder : ∃ entries rights, top = .folder entries rights

theorem Starts.roots {folder : Path} (starts : d.Starts folder root) (tidy : d.root.Tidy) :
    ∃ top, d.Roots root top := by
  obtain ⟨plain, -, place, entries, rights, found⟩ := isFolder_eq_true_iff.mp starts.isFolder
  obtain ⟨q, resolved, anchor, parts⟩ := resolve_of_find plain found
  obtain rfl : root = q := Except.ok.inj (starts.resolved.symm.trans resolved)
  exact ⟨_, tidy, anchor, parts ▸ settled_of_find found, entries, rights, rfl⟩

section Roots

variable (roots : d.Roots root top)

include roots

theorem Roots.absolute : root.isAbsolute = true := by
  rw [Path.isAbsolute, roots.anchor]
  rfl

theorem Roots.below : top.Tidy := (roots.tidy.of_at? roots.settled.found).2

theorem Roots.find : d.find root = .ok (root.parts, top) :=
  find_of_reach? roots.absolute roots.settled.reached roots.settled.down roots.settled.noLink

/-- A root is its own path without links. -/
theorem Roots.resolve : d.resolve root = .ok root := by
  obtain ⟨q, resolved, anchor, parts⟩ :=
    resolve_of_find (hasNul_of_find roots.tidy roots.find) roots.find
  rw [resolved, Path.ext (anchor.trans roots.anchor.symm) parts]

/-- What stands below the root of a survey is found at its path, if it can be reached. -/
theorem Roots.find_within {p : Path} (within : p.Within root) {e : Entry}
    (found : top.at? (root.beyond p) = some e) (noLink : ∀ target, e ≠ .link target) :
    d.find p = match top.reach? (root.beyond p) with
      | some e => .ok (p.parts, e)
      | none => .error .denied := by
  have whole : d.at? p.parts = some e := by
    rw [within.parts_eq, Disk.at?, Entry.at?_append,
      show d.root.at? root.parts = some top from roots.settled.found]
    exact found
  have reach : d.root.reach? p.parts = top.reach? (root.beyond p) := by
    rw [within.parts_eq, Entry.reach?_append, roots.settled.reached]
    rfl
  rw [← reach]
  refine find_of_at? (within.isAbsolute roots.absolute) whole ?_ noLink
  rw [within.parts_eq]
  intro dots
  rcases List.mem_append.mp dots with above | below
  · exact roots.settled.down above
  · exact ((roots.below.of_at? found).1 ".." below).2.1 rfl

theorem Roots.text_of_file {p : Path} (within : p.Within root) {bytes : List UInt8} {readable : Bool}
    (found : top.at? (root.beyond p) = some (.file bytes readable)) :
    d.text p = match top.reach? (root.beyond p) with
      | some (.file bytes true) => .ok (Text.ofBytes bytes)
      | _ => .error .denied := by
  rw [text, Disk.bytes, roots.find_within within found fun _ => Entry.noConfusion]
  cases reached : top.reach? (root.beyond p) with
  | none => rfl
  | some e =>
      cases (Entry.at?_of_reach? reached).symm.trans found
      cases readable <;> rfl

theorem Roots.text_of_reach {p : Path} (within : p.Within root) {bytes : List UInt8}
    (reached : top.reach? (root.beyond p) = some (.file bytes true)) :
    d.text p = .ok (Text.ofBytes bytes) := by
  rw [roots.text_of_file within (Entry.at?_of_reach? reached), reached]

variable {s : Selection}

theorem Roots.isFolder : d.isFolder root =
    if longestPath < root.text.utf8ByteSize then .error .tooLong else .ok true := by
  obtain ⟨entries, rights, rfl⟩ := roots.folder
  exact isFolder_of_find roots.tidy roots.find

theorem Roots.scan_of_long (long : longestPath < root.text.utf8ByteSize) :
    (d.scan root s).mapError .path = .error (SurveyProblem.path (.access .tooLong)) := by
  rw [scan_of_resolve roots.resolve, roots.isFolder, if_pos long]
  rfl

theorem Roots.scan_of_short (short : root.text.utf8ByteSize ≤ longestPath) :
    (d.scan root s).mapError SurveyProblem.path = .ok (d.listing root s) := by
  rw [scan_of_resolve roots.resolve, roots.isFolder, if_neg (Nat.not_lt.mpr short)]
  rfl

theorem Roots.lists_listing : d.Lists s root (d.listing root s) := Disk.lists_listing roots.tidy

/-- The paths of a scan are those that the selection lists, if the root itself can be listed. -/
theorem Roots.mem_listing {p : Path} :
    p ∈ d.listing root s ↔ top.IsListed ∧ p.Within root ∧ s.Lists top (root.beyond p) := by
  rw [roots.lists_listing.exactly, roots.find]
  constructor
  · rintro ⟨place, entries, rights, found, listed, lists⟩
    cases found
    exact ⟨⟨entries, rights, rfl, listed⟩, lists⟩
  · rintro ⟨⟨entries, rights, rfl, listed⟩, lists⟩
    exact ⟨root.parts, entries, rights, rfl, listed, lists⟩

end Roots

variable {s : Selection} {reader : Script.Reader} {commits : History.Counts} {files : List Path}

theorem mem_readFiles {file : ScannedFile} :
    file ∈ d.readFiles reader commits files ↔ ∃ p ∈ files, ∃ text, d.text p = .ok text ∧
      file = ScannedFile.ofText reader p text ((commits.lookup p).getD 0) := by
  rw [readFiles, List.mem_filterMap]
  refine exists_congr fun p => and_congr_right fun _ => ?_
  rw [readSource]
  cases d.text p with
  | ok text => simp [eq_comm]
  | error problem => simp

/-- A file that was read keeps the specifiers of the text at its path and has counted lines. -/
theorem read_of_mem {file : ScannedFile} (member : file ∈ d.readFiles reader commits files) :
    0 ≤ file.metrics.loc ∧
      ∃ text, d.text file.path = .ok text ∧ file.specifiers = specifiersOf reader file.path text := by
  obtain ⟨p, -, text, read, same⟩ := mem_readFiles.mp member
  have named : file.path = p := by rw [same, ScannedFile.ofText]
  have kept : file.specifiers = specifiersOf reader p text := by rw [same, ScannedFile.ofText]
  rw [named, kept]
  exact ⟨same ▸ Builder.measured_ofText reader p text _, text, read, rfl⟩

theorem paths_readFiles_sublist (d : Disk) (reader : Script.Reader) (commits : History.Counts)
    (files : List Path) : ((d.readFiles reader commits files).map (·.path)).Sublist files := by
  induction files with
  | nil => exact .slnil
  | cons p rest ih =>
      rw [readFiles, List.filterMap_cons]
      cases d.readSource p with
      | ok text => exact ih.cons_cons p
      | error problem => exact ih.cons p

theorem Roots.mem_paths (roots : d.Roots root top) {p : Path} :
    p ∈ (d.readFiles reader commits (d.listing root s)).map (·.path) ↔
      top.IsListed ∧ s.Shows root top p := by
  rw [List.mem_map]
  constructor
  · rintro ⟨file, member, rfl⟩
    obtain ⟨p, listed, text, read, rfl⟩ := mem_readFiles.mp member
    obtain ⟨open', within, lists⟩ := roots.mem_listing.mp listed
    obtain ⟨_, _, regular⟩ := lists.regular
    rw [roots.text_of_file within regular] at read
    split at read
    · rename_i bytes reached
      exact ⟨open', within, lists, bytes, reached⟩
    · cases read
  · rintro ⟨open', within, lists, bytes, reached⟩
    have read := roots.text_of_reach within reached
    exact ⟨_, mem_readFiles.mpr ⟨p, roots.mem_listing.mpr ⟨open', within, lists⟩, _, read, rfl⟩, rfl⟩

theorem Roots.pairwise_paths (roots : d.Roots root top) :
    ((d.readFiles reader commits (d.listing root s)).map (·.path)).Pairwise
      fun p q => root.beyond p < root.beyond q :=
  roots.lists_listing.ordered.sublist (paths_readFiles_sublist d reader commits _)

theorem Roots.within_readFiles (roots : d.Roots root top) :
    ∀ file ∈ d.readFiles reader commits (d.listing root s), file.path.Within root :=
  fun _ member => (roots.mem_paths.mp (List.mem_map_of_mem member)).2.within

end Disk

/-! ## The graph of the listed files -/

namespace Survey

variable {d : Disk} {settings : Settings} {root : Path} {scanned : List ScannedFile}

def importsOf (settings : Settings) (scanned : List ScannedFile) : List (Path × List Path) :=
  resolveAll (Index.ofPaths (scanned.map (·.path))) settings.relativeFirst.isYes
    (scanned.map fun file => (file.path, file.specifiers))

theorem mem_importsOf {a b : Path} :
    (∃ targets, (a, targets) ∈ importsOf settings scanned ∧ b ∈ targets) ↔
      ∃ file ∈ scanned, file.path = a ∧ ∃ specifier ∈ file.specifiers,
        resolve (Index.ofPaths (scanned.map (·.path))) (some a) settings.relativeFirst.isYes
          specifier = some b := by
  simp only [importsOf, resolveAll, List.mem_map]
  constructor
  · rintro ⟨_, ⟨_, ⟨file, member, rfl⟩, same⟩, inside⟩
    cases same
    obtain ⟨specifier, among, hit⟩ := List.mem_filterMap.mp inside
    exact ⟨file, member, rfl, specifier, among, hit⟩
  · rintro ⟨file, member, rfl, specifier, among, hit⟩
    exact ⟨_, ⟨_, ⟨file, member, rfl⟩, rfl⟩, List.mem_filterMap.mpr ⟨specifier, among, hit⟩⟩

theorem importsOf_absolute (absolute : ∀ file ∈ scanned, file.path.isAbsolute = true) :
    ∀ row ∈ importsOf settings scanned,
      row.1.isAbsolute = true ∧ ∀ b ∈ row.2, b.isAbsolute = true := by
  intro row member
  simp only [importsOf, resolveAll, List.mem_map] at member
  obtain ⟨_, ⟨file, inside, rfl⟩, rfl⟩ := member
  refine ⟨absolute file inside, fun b target => ?_⟩
  obtain ⟨specifier, -, hit⟩ := List.mem_filterMap.mp target
  obtain ⟨other, among, rfl⟩ := List.mem_map.mp (Index.mem_of_resolve hit)
  exact absolute other among

/-- Files below the root always have their place in a graph; only its summary may be refused. -/
theorem graphOf_eq_summary (absolute : root.isAbsolute = true)
    (within : ∀ file ∈ scanned, file.path.Within root)
    (measured : ∀ file ∈ scanned, 0 ≤ file.metrics.loc) :
    let store := Store.assembled root settings.includeFolders.isYes scanned
      (importsOf settings scanned)
    graphOf settings root scanned =
      (summary settings store).map fun stats => { root := some root, store, stats } := by
  intro store
  have built : Store.build root settings.includeFolders.isYes scanned
      (importsOf settings scanned) = .ok store :=
    Builder.build_eq_assembled absolute within measured
      (importsOf_absolute fun file member => (within file member).isAbsolute absolute)
  simp only [graphOf]
  rw [show resolveAll _ _ _ = importsOf settings scanned from rfl, built]
  change (do let stats ← summary settings store; return RepoGraph.mk (some root) store stats) = _
  cases summary settings store <;> rfl

theorem graphOf_eq (typed : settings.WellTyped) (absolute : root.isAbsolute = true)
    (within : ∀ file ∈ scanned, file.path.Within root)
    (measured : ∀ file ∈ scanned, 0 ≤ file.metrics.loc) :
    ∃ top, graphOf settings root scanned = .ok
      { root := some root
        store := Store.assembled root settings.includeFolders.isYes scanned
          (importsOf settings scanned)
        stats := Stats.ofStore (Store.assembled root settings.includeFolders.isYes scanned
          (importsOf settings scanned)) top } := by
  obtain ⟨top, bound⟩ := typed.topN
  refine ⟨top, (graphOf_eq_summary absolute within measured).trans ?_⟩
  rw [summary, bound]
  rfl

end Survey

/-- The stages of a survey: rules, excluded names, the scan, commits, and the graph. -/
theorem Survey.graphAt_eq_bind (d : Disk) (machine : Machine) (settings : Settings) (root : Path) :
    graphAt d machine settings root =
      rules d machine.compile settings root >>= fun rules =>
      excludedNames settings.excludedDirs >>= fun _ =>
      (d.scan root (settings.selection rules)).mapError .path >>= fun listed =>
      (counts d machine settings root listed).mapError .counting >>= fun commits =>
      graphOf settings root (d.readFiles machine.reader commits listed) := by
  rw [graphAt, files]
  cases rules d machine.compile settings root with
  | error problem => rfl
  | ok rules =>
      rw [excludedNames]
      split <;> rfl

theorem RepoGraph.survey_of_starts {d : Disk} {machine : Machine} {settings : Settings}
    {folder root : Path} (starts : d.Starts folder root) :
    survey d machine settings (some folder) = Survey.graphAt d machine settings root := by
  simp only [survey, starts.isFolder, starts.resolved]

theorem Stats.exists_of_mem_mostEdited {store : Store} {top : Int} {entry : ChurnEntry}
    (member : entry ∈ (Stats.ofStore store top).mostEdited) :
    ∃ f ∈ store.files, entry = Stats.entryOf f := by
  rw [ofStore] at member
  split at member
  · simp [Stats.empty] at member
  · obtain ⟨f, inside, rfl⟩ := List.mem_map.mp member
    have ranked : f ∈ ranking store.files := by
      unfold leading at inside
      split at inside <;> exact List.mem_of_mem_take inside
    rw [ranking, List.mem_mergeSort, List.mem_filter] at ranked
    exact ⟨f, ranked.1, rfl⟩

theorem Store.parse_ids_assembled {root : Path} {withFolders : Bool} {files : List ScannedFile}
    {imports : List (Path × List Path)} (distinct : (files.map (·.path)).Nodup) :
    (Store.assembled root withFolders files imports).files.map (Path.parse ·.id) =
      files.map (·.path) := by
  have ids : (assembled root withFolders files imports).files.map (·.id) = _ := ids_files_assembled
  have inverse : Path.parse ∘ Path.text = id := funext Path.parse_text
  have parsed := congrArg (List.map Path.parse) ids
  rw [List.map_map, List.map_map, inverse, List.map_id, eraseDups_of_nodup distinct] at parsed
  exact parsed

section Depicts

variable {d : Disk} {reader : Script.Reader} {settings : Settings}
  {rules : Option (String → Bool)} {root : Path} {top : Entry} {commits : History.Counts}

def RepoGraph.ofScanned (root : Path) (settings : Settings) (scanned : List ScannedFile) (bound : Int) :
    RepoGraph where
  root := some root
  store := Store.assembled root settings.includeFolders.isYes scanned
    (Survey.importsOf settings scanned)
  stats := Stats.ofStore (Store.assembled root settings.includeFolders.isYes scanned
    (Survey.importsOf settings scanned)) bound

/-- What a scanned file imports is in the text at its path. -/
theorem Survey.mem_importsOf_readFiles {files : List Path} {a b : Path} :
    (∃ targets, (a, targets) ∈ Survey.importsOf settings (d.readFiles reader commits files) ∧ b ∈ targets) ↔
      a ∈ (d.readFiles reader commits files).map (·.path) ∧ ∃ text, d.text a = .ok text ∧
        ∃ specifier ∈ specifiersOf reader a text,
          resolve (Index.ofPaths ((d.readFiles reader commits files).map (·.path))) (some a)
            settings.relativeFirst.isYes specifier = some b := by
  rw [mem_importsOf]
  constructor
  · rintro ⟨file, member, rfl, specifier, among, hit⟩
    obtain ⟨-, text, read, kept⟩ := Disk.read_of_mem member
    exact ⟨List.mem_map_of_mem member, text, read, specifier, kept ▸ among, hit⟩
  · rintro ⟨known, text, read, specifier, among, hit⟩
    obtain ⟨file, member, rfl⟩ := List.mem_map.mp known
    obtain ⟨-, text', read', kept⟩ := Disk.read_of_mem member
    cases read'.symm.trans read
    exact ⟨file, member, rfl, specifier, kept ▸ among, hit⟩

/-- What is read of a scan is told apart on the disk, so its graph depicts the tree. -/
theorem Disk.Roots.depicts (roots : d.Roots root top) (bound : Int) :
    (RepoGraph.ofScanned root settings
      (d.readFiles reader commits (d.listing root (settings.selection rules))) bound).Depicts
        d reader settings rules root top := by
  let scanned := d.readFiles reader commits (d.listing root (settings.selection rules))
  let paths := scanned.map (·.path)
  have shown : ∀ p, p ∈ paths ↔ top.IsListed ∧ (settings.selection rules).Shows root top p :=
    fun _ => roots.mem_paths
  have ordered : paths.Pairwise fun p q => root.beyond p < root.beyond q := roots.pairwise_paths
  have distinct : paths.Nodup := by
    refine ordered.imp ?_
    rintro p q before rfl
    exact List.lt_irrefl _ before
  have within : ∀ file ∈ scanned, file.path.Within root := roots.within_readFiles
  have measured : ∀ file ∈ scanned, 0 ≤ file.metrics.loc := fun _ member =>
    (read_of_mem member).1
  have filePaths : (RepoGraph.ofScanned root settings scanned bound).filePaths = paths :=
    Store.parse_ids_assembled distinct
  constructor
  case ids =>
    rw [filePaths]
    refine Store.ids_files_assembled.trans ?_
    rw [eraseDups_of_nodup distinct]
  case files =>
    intro p
    rw [filePaths]
    exact shown p
  case ordered =>
    rw [filePaths]
    exact ordered
  case imports =>
    intro a b
    rw [filePaths]
    refine Store.mem_ends_imports_assembled.trans ?_
    rw [Builder.mem_imported, Survey.mem_importsOf_readFiles]
    constructor
    · rintro ⟨⟨-, read⟩, apart, source, target⟩
      exact ⟨apart, source, target, read⟩
    · rintro ⟨apart, source, target, read⟩
      exact ⟨⟨source, read⟩, apart, source, target⟩
  case importEnds =>
    intro e member
    obtain ⟨pair, -, rfl⟩ := Store.mem_imports_assembled.mp member
    exact ⟨pair.1, pair.2, rfl⟩
  case nodes =>
    intro id member
    rw [filePaths]
    replace member := Store.ids_assembled root settings.includeFolders.isYes scanned _ ▸ member
    rcases List.mem_append.mp member with folder | text
    · obtain ⟨parts, above, rfl⟩ := List.mem_map.mp folder
      refine .inr ⟨parts, ?_, rfl⟩
      obtain ⟨file, inside, nonempty, before, strict⟩ := Builder.exists_of_mem_foldersAbove above
      have lists := ((shown file.path).mp (List.mem_map_of_mem inside)).2.listed
      exact lists.entered parts nonempty before strict
    · rw [List.mem_eraseDups, List.mem_map] at text
      obtain ⟨file, inside, rfl⟩ := text
      exact .inl ⟨file.path, List.mem_map_of_mem inside, rfl⟩
  case ends =>
    intro e member
    exact (separated_assembled roots.absolute within measured).ends_mem member
  case mostEdited =>
    intro entry member
    rw [filePaths]
    obtain ⟨f, inside, rfl⟩ := Stats.exists_of_mem_mostEdited member
    have recorded := inside
    simp only [Store.files_assembled] at recorded
    obtain ⟨file, first, rfl⟩ := List.mem_map.mp recorded
    exact ⟨file.path, List.mem_map_of_mem ((firstsBy_sublist _ scanned).subset first), rfl⟩

end Depicts

/-- What a survey comes to once the rules are compiled: a graph that depicts the tree, unless the path
    of the root is too long to be looked up or the commits of the listed files cannot be counted. -/
inductive RepoGraph.Comes (d : Disk) (machine : Machine) (settings : Settings)
    (rules : Option (String → Bool)) (root : Path) (top : Entry) :
    Except SurveyProblem RepoGraph → Prop
  | graph {g : RepoGraph} (depicts : g.Depicts d machine.reader settings rules root top) :
      Comes d machine settings rules root top (.ok g)
  | tooLong (long : Disk.longestPath < root.text.utf8ByteSize) :
      Comes d machine settings rules root top (.error (.path (.access .tooLong)))
  | uncounted {trouble : History.Trouble}
      (failed : Survey.counts d machine settings root
        (d.listing root (settings.selection rules)) = .error trouble) :
      Comes d machine settings rules root top (.error (.counting trouble))

/-- Without commits a survey of a short root returns. -/
theorem RepoGraph.Comes.exists_graph {d : Disk} {machine : Machine} {settings : Settings}
    {rules : Option (String → Bool)} {root : Path} {top : Entry}
    {outcome : Except SurveyProblem RepoGraph}
    (comes : Comes d machine settings rules root top outcome)
    (short : root.text.utf8ByteSize ≤ Disk.longestPath) (off : settings.churnMode = .off) :
    ∃ g, outcome = .ok g ∧ g.Depicts d machine.reader settings rules root top := by
  cases comes with
  | graph depicts => exact ⟨_, rfl, depicts⟩
  | tooLong long => exact absurd long (Nat.not_lt.mpr short)
  | uncounted failed => simp [Survey.counts, History.collect, off, Except.map] at failed

/-- A survey of a folder depicts the tree at its settled place. -/
theorem Disk.Roots.comes {d : Disk} {machine : Machine} {settings : Settings} {root : Path}
    {top : Entry} {rules : Option (String → Bool)} (roots : d.Roots root top)
    (typed : settings.WellTyped)
    (compiled : Survey.rules d machine.compile settings root = .ok rules) :
    RepoGraph.Comes d machine settings rules root top (Survey.graphAt d machine settings root) := by
  rw [Survey.graphAt_eq_bind, compiled, ok_bind, Survey.excludedNames_of_plain typed.plain, ok_bind]
  by_cases long : longestPath < root.text.utf8ByteSize
  · rw [roots.scan_of_long long, error_bind]
    exact .tooLong long
  · rw [roots.scan_of_short (Nat.not_lt.mp long), ok_bind]
    cases counted : Survey.counts d machine settings root
      (d.listing root (settings.selection rules)) with
    | error trouble => exact .uncounted counted
    | ok commits =>
        obtain ⟨bound, built⟩ := Survey.graphOf_eq typed roots.absolute roots.within_readFiles
          fun file member => (Disk.read_of_mem member).1
        rw [mapError_ok, ok_bind, built]
        exact .graph (roots.depicts bound)

/-! ## Two small disks -/

/-- Settings that heed an ignore file and count no commits. -/
def Settings.plain : Settings where
  extensions := [".ts"]
  excludedDirs := [.text "dist"]
  ignoreFile := .text ".gitignore"
  respectIgnoreFile := .bool true
  includeFolders := .bool true
  relativeFirst := .bool false
  churnMode := .off
  gitTimeoutSeconds := .whole 10
  workers := none
  topN := .whole 5
  verbosity := .normal
  explainModel := .none
  explainMaxChars := .whole 3000

theorem Settings.wellTyped_plain : plain.WellTyped :=
  ⟨by simp [plain], ⟨5, rfl⟩⟩

/-- The tools of this library on a machine without git. -/
def Machine.plain : Machine := { Tools.builtIn with git := .absent, processors := none }

namespace Disk

theorem starts_holding {entries : Entries} {rights : Rights} :
    (holding entries rights).Starts (Path.parse "/r") (Path.parse "/r") :=
  ⟨isFolder_holding, resolve_holding⟩

theorem ignoreRules_of_absent {d : Disk} {compile : Ignore.Compiler} {root : Path} {name : String}
    (absent : d.ignoreText root name = .ok none) : d.ignoreRules compile root name = .ok none := by
  unfold ignoreRules
  rw [absent]

theorem ignoreRules_of_text {d : Disk} {compile : Ignore.Compiler} {root : Path} {name text : String}
    (read : d.ignoreText root name = .ok (some text)) : d.ignoreRules compile root name =
      ((compile (Text.lines text)).map some).mapError .rule := by
  unfold ignoreRules
  rw [read]

theorem rules_plain (d : Disk) (compile : Ignore.Compiler) (root : Path) :
    Survey.rules d compile .plain root =
      (d.ignoreRules compile root ".gitignore").mapError .ignore := rfl

section Holding

variable {entries : Entries} {rights : Rights} (open' : rights.search = true)

include open'

theorem find_holding_of_absent (absent : entries.lookup ".gitignore" = none) :
    (holding entries rights).find ((Path.parse "/r").join (Path.parse ".gitignore")) =
      .error .missing := by
  have parts : ((Path.parse "/r").join (Path.parse ".gitignore")).parts = ["r", ".gitignore"] := by
    decide
  rw [find, Disk.absolute, if_pos (by decide), parts,
    follow_child rfl rfl (by decide) rfl fun _ => Entry.noConfusion, follow,
    show (holding entries rights).at? ([] ++ ["r"]) = some (.folder entries rights) from rfl]
  have short : ¬longestName < ".gitignore".utf8ByteSize := by decide
  simp [open', absent, short]

theorem ignoreText_holding_of_absent (absent : entries.lookup ".gitignore" = none) :
    (holding entries rights).ignoreText (Path.parse "/r") ".gitignore" = .ok none := by
  have looked : (holding entries rights).lookUp ((Path.parse "/r").join (Path.parse ".gitignore")) =
      .ok none := by
    rw [lookUp_of_short (by decide) (by decide), find_holding_of_absent open' absent]
    rfl
  rw [ignoreText, isFile, looked]
  rfl

theorem ignoreText_holding {bytes : List UInt8}
    (listed : entries.lookup ".gitignore" = some (.file bytes true)) :
    (holding entries rights).ignoreText (Path.parse "/r") ".gitignore" =
      .ok (some (Text.ofBytes bytes)) := by
  have parts : ((Path.parse "/r").join (Path.parse ".gitignore")).parts = ["r", ".gitignore"] := by
    decide
  have found : (holding entries rights).find ((Path.parse "/r").join (Path.parse ".gitignore")) =
      .ok (["r", ".gitignore"], .file bytes true) := by
    rw [← parts]
    refine find_of_reach? (by decide) ?_ (by decide) fun _ => Entry.noConfusion
    rw [parts]
    have top : (holding entries rights).root.reach? ["r"] = some (.folder entries rights) := rfl
    exact (Entry.reach?_below top open' ".gitignore").trans listed
  have looked : (holding entries rights).lookUp ((Path.parse "/r").join (Path.parse ".gitignore")) =
      .ok (some (.file bytes true)) := by
    rw [lookUp_of_short (by decide) (by decide), found]
  rw [ignoreText, isFile, looked, text, Disk.bytes, found]
  rfl

theorem rules_holding_of_absent (compile : Ignore.Compiler)
    (absent : entries.lookup ".gitignore" = none) :
    Survey.rules (holding entries rights) compile .plain (Path.parse "/r") = .ok none := by
  rw [rules_plain, ignoreRules_of_absent (ignoreText_holding_of_absent open' absent)]
  rfl

/-- The rules are those of the text of the ignore file in the folder. -/
theorem rules_holding {compile : Ignore.Compiler} {bytes : List UInt8} {ignores : String → Bool}
    (listed : entries.lookup ".gitignore" = some (.file bytes true))
    (compiled : compile (Text.lines (Text.ofBytes bytes)) = .ok ignores) :
    Survey.rules (holding entries rights) compile .plain (Path.parse "/r") = .ok (some ignores) := by
  rw [rules_plain, ignoreRules_of_text (ignoreText_holding open' listed), compiled]
  rfl

end Holding

end Disk

/-- The survey of any folder of a tidy disk, for any ignore rules, any history and any parser,
    depicts what can be read of the tree at the place of the folder. -/
theorem RepoGraph.survey_depicts {d : Disk} {machine : Machine} {settings : Settings}
    {folder root : Path} {rules : Option (String → Bool)} (tidy : d.root.Tidy)
    (typed : settings.WellTyped) (starts : d.Starts folder root)
    (compiled : Survey.rules d machine.compile settings root = .ok rules) :
    ∃ top, d.find root = .ok (root.parts, top) ∧
      Comes d machine settings rules root top (survey d machine settings (some folder)) := by
  obtain ⟨top, roots⟩ := starts.roots tidy
  rw [survey_of_starts starts]
  exact ⟨top, roots.find, roots.comes typed compiled⟩

/-- A file that the rules ignore, one in an excluded folder, one that cannot be read, and one each in
    a folder that cannot be listed and in one that cannot be searched, beside two that are shown. -/
def Disk.mixed : Disk :=
  .holding
    [(".gitignore", .file "lib/".toUTF8.toList true),
      ("a.ts", .file "import \"./b\"".toUTF8.toList true), ("b.ts", .file [] true),
      ("dist", .folder [("c.ts", .file [] true)] .full),
      ("lib", .folder [("b.ts", .file [] true)] .full), ("locked.ts", .file [] false),
      ("shut", .folder [("d.ts", .file [] true)] .unlisted),
      ("told", .folder [("e.ts", .file [] true)] ⟨true, false⟩)] .full

theorem Disk.tidy_mixed : mixed.root.Tidy := by
  refine tidy_holding (.folder _ _ (by decide) (by decide) ?_)
  simp only [List.forall_mem_cons]
  refine ⟨.file _ _, .file _ _, .file _ _, ?_, ?_, .file _ _, ?_, ?_, by simp⟩ <;>
    exact .folder _ _ (by decide) (by decide) (List.forall_mem_singleton.mpr (.file _ _))

/-- Nothing below a folder `lib`. -/
def Ignore.withoutLib : Rules :=
  [⟨true, [.foldersBefore, .char 'l', .char 'i', .char 'b', .char '/']⟩]

theorem Disk.rules_mixed : Survey.rules mixed Machine.plain.compile .plain (Path.parse "/r") =
    .ok (some Ignore.withoutLib.ignores) := by
  have lines : Ignore.Rules.ofLines (Text.lines (Text.ofBytes "lib/".toUTF8.toList)) =
      .ok Ignore.withoutLib := by decide +kernel
  exact rules_holding rfl rfl (congrArg (Except.map Ignore.Rules.ignores) lines)

theorem RepoGraph.survey_depicts_mixed :
    Disk.mixed.root.Tidy ∧ Settings.plain.WellTyped ∧
      Disk.mixed.Starts (Path.parse "/r") (Path.parse "/r") ∧
      ∃ g top, survey .mixed .plain .plain (some (Path.parse "/r")) = .ok g ∧
        Disk.mixed.find (Path.parse "/r") = .ok ((Path.parse "/r").parts, top) ∧
        g.Depicts .mixed Machine.plain.reader .plain (some Ignore.withoutLib.ignores)
          (Path.parse "/r") top := by
  refine ⟨Disk.tidy_mixed, Settings.wellTyped_plain, Disk.starts_holding, ?_⟩
  obtain ⟨top, found, comes⟩ := survey_depicts Disk.tidy_mixed Settings.wellTyped_plain
    Disk.starts_holding Disk.rules_mixed
  obtain ⟨g, surveyed, depicts⟩ := comes.exists_graph (by decide) rfl
  exact ⟨g, top, surveyed, found, depicts⟩

/-- A folder that cannot be listed, with a file in it. -/
def Disk.shut : Disk := .holding [("a.ts", .file [] true)] .unlisted

/-- The folder itself counts, too: if it cannot be listed, a file right in it is not shown although
    the file fits and no folder stands between. -/
theorem RepoGraph.survey_shut_shows_nothing :
    Disk.shut.root.Tidy ∧ Settings.plain.WellTyped ∧
      Disk.shut.Starts (Path.parse "/r") (Path.parse "/r") ∧
      Survey.rules .shut Machine.plain.compile .plain (Path.parse "/r") = .ok none ∧
      (Settings.plain.selection none).Shows (Path.parse "/r")
        (.folder [("a.ts", .file [] true)] .unlisted) (Path.parse "/r/a.ts") ∧
      ∃ g, RepoGraph.survey .shut .plain .plain (some (Path.parse "/r")) = .ok g ∧
        "/r/a.ts" ∉ g.store.files.map (·.id) := by
  have tidy : Disk.shut.root.Tidy := Disk.tidy_holding
    (.folder _ _ (by decide) (by decide) (List.forall_mem_singleton.mpr (.file _ _)))
  have starts : Disk.shut.Starts (Path.parse "/r") (Path.parse "/r") := Disk.starts_holding
  have rules : Survey.rules .shut Machine.plain.compile .plain (Path.parse "/r") = .ok none :=
    Disk.rules_holding_of_absent rfl _ rfl
  have beyond : (Path.parse "/r").beyond (Path.parse "/r/a.ts") = ["a.ts"] := by decide
  have shows : (Settings.plain.selection none).Shows (Path.parse "/r")
      (.folder [("a.ts", .file [] true)] .unlisted) (Path.parse "/r/a.ts") := by
    refine ⟨by decide, ?_, [], by rw [beyond]; rfl⟩
    rw [beyond]
    refine ⟨⟨[], true, rfl⟩, by decide +kernel, rfl, fun start nonempty before strict => ?_⟩
    rcases List.prefix_concat_iff.mp (show start <+: [] ++ ["a.ts"] from before) with whole | empty
    · exact absurd whole strict
    · exact absurd (List.prefix_nil.mp empty) nonempty
  refine ⟨tidy, Settings.wellTyped_plain, starts, rules, shows, ?_⟩
  obtain ⟨top, roots⟩ := starts.roots tidy
  obtain ⟨g, surveyed, depicts⟩ :=
    (roots.comes Settings.wellTyped_plain rules).exists_graph (by decide) rfl
  refine ⟨g, (survey_of_starts starts).trans surveyed, fun member => ?_⟩
  obtain ⟨f, inside, named⟩ := List.mem_map.mp member
  obtain ⟨entries, rights, rfl, listed⟩ :=
    ((depicts.files (Path.parse f.id)).mp (List.mem_map_of_mem inside)).1
  cases roots.settled.found
  exact Bool.false_ne_true listed

end RepoAtlas
