import RepoAtlas.CommandLine.Run
import RepoAtlas.Proofs.Editing
import RepoAtlas.Proofs.Loading

/-! # What counting leaves alone

Commits end up in nodes and in the summary and nowhere else. So graphs under settings that differ only
in how commits are counted and summed up have the same nodes but for the commits, and the same edges;
where relative specifiers are looked for first matters to the edges alone. Only the counting itself,
or a bound for the summary that is no whole number, can keep one of them from being there at all. The
search for a node relies on this: it surveys the folder anew, without a history.
-/

namespace RepoAtlas

/-- The settings that bear on commits and on the summary. -/
def Setting.ofTally : List Setting := [.churnMode, .gitTimeoutSeconds, .workers, .topN]

def Settings.DifferOnlyIn (free : List Setting) (s s' : Settings) : Prop :=
  ∀ setting, setting ∉ free → s.get setting = s'.get setting

/-- A node as it is before commits are counted. -/
def Node.uncounted : Node → Node
  | .file f => .file { f with commits := 0 }
  | .folder f => .folder f

@[simp]
theorem Node.id_uncounted (node : Node) : node.uncounted.id = node.id := by cases node <;> rfl

@[simp]
theorem Node.path_uncounted (node : Node) : node.uncounted.path = node.path := by cases node <;> rfl

/-! ## Settings that select the same files -/

namespace Settings

/-- What a scan goes by is the same. -/
structure SelectAlike (s s' : Settings) : Prop where
  extensions : s.extensions = s'.extensions
  excludedDirs : s.excludedDirs = s'.excludedDirs
  ignoreFile : s.ignoreFile = s'.ignoreFile
  respectIgnoreFile : s.respectIgnoreFile = s'.respectIgnoreFile

variable {s s' : Settings}

theorem DifferOnlyIn.selectAlike {free : List Setting} (differ : s.DifferOnlyIn free s')
    (apart : ∀ setting ∈ [Setting.extensions, .excludedDirs, .ignoreFile, .respectIgnoreFile],
      setting ∉ free) : s.SelectAlike s' where
  extensions := by
    have same : s.get .extensions = s'.get .extensions := differ _ (apart _ (by simp))
    exact List.map_injective_iff.mpr (fun _ _ => Value.text.inj) (Value.list.inj same)
  excludedDirs := Value.list.inj (differ .excludedDirs (apart _ (by simp)))
  ignoreFile := differ .ignoreFile (apart _ (by simp))
  respectIgnoreFile := differ .respectIgnoreFile (apart _ (by simp))

variable (alike : s.SelectAlike s')

include alike

theorem SelectAlike.selection (rules : Option (String → Bool)) : s.selection rules = s'.selection rules := by
  rw [Settings.selection, Settings.selection, alike.extensions, alike.excludedDirs]

theorem SelectAlike.rules (d : Disk) (compile : Ignore.Compiler) (root : Path) :
    Survey.rules d compile s root = Survey.rules d compile s' root := by
  rw [Survey.rules, Survey.rules, alike.ignoreFile, alike.respectIgnoreFile]

end Settings

/-! ## Stores of files that were counted in two ways -/

namespace Store

open Builder

variable {root : Path} {withFolders withFolders' : Bool} {d : Disk} {reader : Script.Reader}
  {paths : List Path} (commits commits' : History.Counts) {imports imports' : List (Path × List Path)}

theorem uncounted_assembled :
    (assembled root withFolders (paths.map (d.fileOf reader commits)) imports).nodes.map Node.uncounted =
      (assembled root withFolders (paths.map (d.fileOf reader commits')) imports').nodes.map
        Node.uncounted :=
  map_nodes_congr Disk.path_fileOf Disk.path_fileOf fun _ _ => rfl

theorem edges_assembled_congr :
    (assembled root withFolders (paths.map (d.fileOf reader commits)) imports).edges =
      (assembled root withFolders (paths.map (d.fileOf reader commits')) imports).edges := by
  have same : (paths.map (d.fileOf reader commits)).map (·.path) =
      (paths.map (d.fileOf reader commits')).map (·.path) := by
    rw [Disk.map_path_fileOf, Disk.map_path_fileOf]
  rw [edges_assembled, edges_assembled, hierarchyEdges_congr same, same]

variable {files : List ScannedFile}

theorem mem_assembled_of_fewer (fewer : withFolders = withFolders' ∨ withFolders = false)
    {node : Node} (member : node ∈ (assembled root withFolders files imports).nodes) :
    node ∈ (assembled root withFolders' files imports').nodes := by
  rcases fewer with rfl | rfl
  · exact member
  · -- Without folders there are only the files, which come last.
    have only : node ∈ (firstsBy (·.path) files).map (nodeOf root) := by
      simpa [assembled, foldersAbove] using member
    exact List.mem_append_right _ only

/-- A node is found by its id among the nodes of the same files, however they are counted. -/
theorem located (absolute : root.isAbsolute = true) (within : ∀ p ∈ paths, p.Within root)
    (fewer : withFolders = withFolders' ∨ withFolders = false) {node : Node}
    (member : node ∈ (assembled root withFolders (paths.map (d.fileOf reader commits)) imports).nodes) :
    ((assembled root withFolders' (paths.map (d.fileOf reader commits')) imports').node? node.id).map
      Node.path = some node.path := by
  have held : node.uncounted ∈ (assembled root withFolders' (paths.map (d.fileOf reader commits))
      imports').nodes.map Node.uncounted :=
    List.mem_map_of_mem (mem_assembled_of_fewer fewer member)
  rw [uncounted_assembled commits commits'] at held
  obtain ⟨other, among, same⟩ := List.mem_map.mp held
  have sameId : other.id = node.id := by simpa using congrArg Node.id same
  have samePath : other.path = node.path := by simpa using congrArg Node.path same
  have inside : ∀ file ∈ paths.map (d.fileOf reader commits'), file.path.Within root :=
    List.forall_mem_map.mpr within
  rw [(node?_eq_some_iff (nodup_ids_assembled absolute inside)).mpr ⟨among, sameId⟩,
    Option.map_some, samePath]

end Store

/-! ## Counting anew -/

/-- Why a survey fails where another one that selects the same files gave a graph: commits cannot be
    counted, or the bound of the summary is no whole number although there are files. -/
inductive Survey.TallyFails (d : Disk) (machine : Machine) (s : Settings) (folder : Path)
    (g : RepoGraph) : SurveyProblem → Prop where
  | counting {root : Path} {rules : Option (String → Bool)} {trouble : History.Trouble}
      (starts : d.Starts folder root) (compiled : Survey.rules d machine.compile s root = .ok rules)
      (failed : Survey.counts d machine s root (d.listing root (s.selection rules)) =
        .error trouble) :
      TallyFails d machine s folder g (.counting trouble)
  | topN {root : Path} {rules : Option (String → Bool)} {commits : History.Counts}
      (starts : d.Starts folder root) (compiled : Survey.rules d machine.compile s root = .ok rules)
      (counted : Survey.counts d machine s root (d.listing root (s.selection rules)) = .ok commits)
      (unbound : s.topN.whole? = none) (files : g.store.files ≠ []) :
      TallyFails d machine s folder g (.misfit .topN)

section Recounted

open Survey

variable {d : Disk} {machine machine' : Machine} {s s' : Settings} {folder root : Path}
  {g : RepoGraph}

/-- Surveys under settings that select the same files read the same paths. Only the counting and the
    summary can keep the second one from its graph. -/
theorem RepoGraph.survey_recounted (tidy : d.root.Tidy) (tools : machine'.toTools = machine.toTools)
    (starts : d.Starts folder root) (alike : s.SelectAlike s')
    (done : survey d machine s (some folder) = .ok g) :
    ∃ (known : Option (String → Bool)) (paths : List Path) (commits : History.Counts),
      Survey.rules d machine'.compile s' root = .ok known ∧ (∀ p ∈ paths, p.Within root) ∧
      g.store = storeOf s root (paths.map (d.fileOf machine.reader commits)) ∧
      survey d machine' s' (some folder) =
        (counts d machine' s' root (d.listing root (s'.selection known))).mapError .counting >>=
        fun commits' =>
          let store := storeOf s' root (paths.map (d.fileOf machine.reader commits'))
          (summary s' store).map fun stats => { root := some root, store, stats } := by
  obtain ⟨top, roots⟩ := starts.roots tidy
  rw [survey_of_starts starts] at done
  obtain ⟨short, known, commits, compiled, -, store⟩ := roots.store_of_graphAt done
  have plain : ∃ names, excludedNames s'.excludedDirs = .ok names := by
    rw [roots.graphAt_eq_bind short, compiled, ok_bind] at done
    obtain ⟨names, plain, -⟩ := exists_of_bind_ok done
    exact ⟨names, alike.excludedDirs ▸ plain⟩
  obtain ⟨names, plain⟩ := plain
  have compiled' : Survey.rules d machine'.compile s' root = .ok known := by
    rw [tools, ← alike.rules, compiled]
  refine ⟨known, d.readable (d.listing root (s.selection known)), commits, compiled',
    roots.within_readable, store, ?_⟩
  rw [survey_of_starts starts, roots.graphAt_eq_bind short, compiled', ok_bind, plain, ok_bind,
    tools, alike.selection]
  rfl

theorem Survey.importsOf_recounted {reader : Script.Reader} {paths : List Path}
    (commits commits' : History.Counts) (same : s.relativeFirst = s'.relativeFirst) :
    importsOf s (paths.map (d.fileOf reader commits)) =
      importsOf s' (paths.map (d.fileOf reader commits')) := by
  rw [importsOf_map Disk.path_fileOf, importsOf_map Disk.path_fileOf, same]
  rfl

theorem Survey.files_storeOf {reader : Script.Reader} {paths : List Path}
    {commits : History.Counts} :
    (storeOf s root (paths.map (d.fileOf reader commits))).files = [] ↔ paths = [] := by
  rw [List.eq_nil_iff_forall_not_mem (l := paths), ← not_exists, ← not_iff_not, not_not, storeOf,
    ← ne_eq, Store.files_assembled_ne_nil, Disk.map_path_fileOf]

/-- Of settings that select the same files only the counting and the bound of the summary decide
    whether there is a graph, and the bound matters only if there are files. -/
theorem RepoGraph.recounted_eq_error_iff (tidy : d.root.Tidy)
    (tools : machine'.toTools = machine.toTools) (alike : s.SelectAlike s')
    (done : survey d machine s (some folder) = .ok g) {problem : SurveyProblem} :
    survey d machine' s' (some folder) = .error problem ↔
      TallyFails d machine' s' folder g problem := by
  match isFolder : d.isFolder folder with
  | .error cause => simp [survey, isFolder] at done
  | .ok false =>
      rw [survey_of_not_isFolder isFolder]
      simp only [reduceCtorEq, false_iff]
      intro fails
      cases fails with
      | counting starts | topN starts => cases isFolder.symm.trans starts.isFolder
  | .ok true =>
      obtain ⟨root, starts⟩ := exists_starts isFolder
      obtain ⟨known, paths, commits, compiled, -, store, outcome⟩ :=
        survey_recounted tidy tools starts alike done
      have files : ∀ commits', (storeOf s' root (paths.map
          (d.fileOf machine.reader commits'))).files ≠ [] ↔ g.store.files ≠ [] := by
        intro commits'
        rw [store, ne_eq, files_storeOf, ne_eq, files_storeOf]
      rw [outcome, bind_eq_error_iff]
      constructor
      · rintro (failed | ⟨commits', counted, failed⟩)
        · obtain ⟨trouble, uncounted, rfl⟩ := mapError_eq_error_iff.mp failed
          exact .counting starts compiled uncounted
        · obtain ⟨unbound, shown, rfl⟩ := summary_eq_error_iff.mp (map_eq_error_iff.mp failed)
          exact .topN starts compiled (mapError_eq_ok_iff.mp counted) unbound
            ((files commits').mp shown)
      · intro fails
        cases fails with
        | counting starts' compiled' failed =>
            cases starts.resolved.symm.trans starts'.resolved
            cases compiled.symm.trans compiled'
            exact .inl (mapError_eq_error_iff.mpr ⟨_, failed, rfl⟩)
        | @topN _ _ commits' starts' compiled' counted unbound shown =>
            cases starts.resolved.symm.trans starts'.resolved
            cases compiled.symm.trans compiled'
            exact .inr ⟨commits', mapError_eq_ok_iff.mpr counted, map_eq_error_iff.mpr
              (summary_eq_error_iff.mpr ⟨unbound, (files commits').mpr shown, rfl⟩)⟩

/-- Nothing keeps a survey from its graph that counts nothing and has the bound of one that gave a
    graph. -/
theorem RepoGraph.recounted_of_off (tidy : d.root.Tidy)
    (tools : machine'.toTools = machine.toTools) (alike : s.SelectAlike s')
    (off : s'.churnMode = .off) (bound : s'.topN = s.topN)
    (done : survey d machine s (some folder) = .ok g) :
    ∃ g', survey d machine' s' (some folder) = .ok g' := by
  refine exists_ok_iff.mpr fun problem failed => ?_
  cases (recounted_eq_error_iff tidy tools alike done).mp failed with
  | counting _ _ uncounted => cases (counts_of_off off).symm.trans uncounted
  | topN starts _ _ unbound files =>
      -- The first survey would have failed, too.
      obtain ⟨top, roots⟩ := starts.roots tidy
      obtain ⟨-, known, commits, compiled, counted, -⟩ :=
        roots.store_of_graphAt ((survey_of_starts starts).symm.trans done)
      have failed := (recounted_eq_error_iff tidy rfl ⟨rfl, rfl, rfl, rfl⟩ done).mpr
        (.topN starts compiled counted (bound ▸ unbound) files)
      cases failed.symm.trans done

/-- Where a node is in one graph, it is found in the other. -/
theorem RepoGraph.located_recounted {g' : RepoGraph} (tidy : d.root.Tidy)
    (tools : machine'.toTools = machine.toTools) (alike : s.SelectAlike s')
    (fewer : s.includeFolders.isYes = s'.includeFolders.isYes ∨ s.includeFolders.isYes = false)
    (done : survey d machine s (some folder) = .ok g)
    (done' : survey d machine' s' (some folder) = .ok g') :
    ∀ node ∈ g.store.nodes, g'.nodePath? node.id = some node.path := by
  intro node member
  match isFolder : d.isFolder folder with
  | .error cause => simp [survey, isFolder] at done
  | .ok false =>
      rw [survey_of_not_isFolder isFolder] at done
      cases done
      cases member
  | .ok true =>
      obtain ⟨root, starts⟩ := exists_starts isFolder
      obtain ⟨top, roots⟩ := starts.roots tidy
      obtain ⟨known, paths, commits, -, within, store, outcome⟩ :=
        survey_recounted tidy tools starts alike done
      rw [outcome] at done'
      obtain ⟨commits', -, done'⟩ := exists_of_bind_ok done'
      obtain ⟨stats, -, rfl⟩ := exists_of_map_ok done'
      rw [store] at member
      exact Store.located commits commits' roots.absolute within fewer member

end Recounted

/-! ## The commands for a graph and for a node -/

namespace CommandLine

open Surroundings

/-- What the command line gives of the settings of a graph. -/
def GraphRequest.given (r : GraphRequest) (verbose quiet : Bool) : Table :=
  commonGiven r.churn verbose quiet ++ flagGiven .includeFolders r.noFolders false ++
    flagGiven .relativeFirst r.relativeFirst true

/-- The graph that the command prints or writes. -/
def Surroundings.Graphs (s : Surroundings) (r : GraphRequest) (verbose quiet : Bool)
    (g : RepoGraph) : Prop :=
  ∃ settings, s.settings r.config (r.given verbose quiet) = .ok settings ∧
    s.graphOf r.path settings = .ok g

/-- The text is printed as it is, or written with a line feed behind it. -/
def Effect.Carries (e : Effect) (text : String) : Prop :=
  e.lines = echo text ∨ ∃ file, e.written = some file ∧ file.text = text ++ "\n"

variable {s s' : Surroundings} {r : GraphRequest} {verbose quiet : Bool} {g : RepoGraph}

theorem settings_eq_ok_iff {config : Option Path} {given : Table} {settings : Settings} :
    s.settings config given = .ok settings ↔
      Settings.load s.disk s.environment config given = .ok settings := by
  rw [Surroundings.settings]
  cases Settings.load s.disk s.environment config given with
  | ok other => simp
  | error problem => cases problem <;> simp [Surroundings.report]

theorem graphOf_eq_ok_iff {path : Path} {settings : Settings} :
    s.graphOf path settings = .ok g ↔
      s.disk.isFolder path = .ok true ∧
        RepoGraph.survey s.disk s.machine settings (some path) = .ok g := by
  unfold Surroundings.graphOf
  match s.disk.isFolder path with
  | .error problem => simp
  | .ok false => simp [Surroundings.report]
  | .ok true => cases RepoGraph.survey s.disk s.machine settings (some path) <;> simp

/-- A command for a graph that ends well hands out the whole graph. -/
theorem graphs_of_runGraph {effect : Effect} (done : s.runGraph r verbose quiet = .ok effect) :
    ∃ g text, s.Graphs r verbose quiet g ∧ g.render (some 2) = .ok text ∧ effect.Carries text := by
  rw [runGraph] at done
  obtain ⟨settings, loaded, done⟩ := exists_of_bind_ok done
  obtain ⟨g, surveyed, done⟩ := exists_of_bind_ok done
  obtain ⟨text, rendered, done⟩ := exists_of_bind_ok done
  refine ⟨g, text, ⟨settings, loaded, surveyed⟩, ?_, ?_⟩
  · cases payload : g.render (some 2) with
    | ok other =>
        rw [payload] at rendered
        cases rendered
        rfl
    | error problem =>
        rw [payload] at rendered
        cases rendered
  · cases output : r.output with
    | none =>
        rw [output] at done
        cases done
        exact .inl rfl
    | some path =>
        rw [output] at done
        dsimp only at done
        split at done
        · cases done
        · exact .inr ⟨_, congrArg Effect.written (Except.ok.inj done).symm, rfl⟩

/-! ### What the command lines give -/

/-- What is given for the search for a node. -/
def locateGiven : Table := commonGiven (some .off) false true

open Settings

theorem callerValue?_locateGiven (setting : Setting) :
    callerValue? locateGiven setting =
      match setting with
      | .churnMode => some (.text "off")
      | .verbosity => some (.text "quiet")
      | _ => none := by
  cases setting <;> rfl

theorem last?_flagGiven (flag setting : Setting) (given value : Bool) :
    Table.last? (flagGiven flag given value) setting.name =
      if given = true ∧ setting = flag then some (.bool value) else none := by
  cases given with
  | false => rfl
  | true =>
      rw [flagGiven, if_pos rfl, Table.last?_singleton]
      simp only [Setting.name_inj, true_and]

theorem plainOf_given : plainOf (r.given verbose quiet) =
    (r.churn.map fun mode => (Setting.churnMode.name, Value.text mode.name)).toList ++
      flagGiven .includeFolders r.noFolders false ++
        flagGiven .relativeFirst r.relativeFirst true := by
  obtain ⟨path, output, noFolders, relativeFirst, churn, config⟩ := r
  cases churn <;> cases noFolders <;> cases relativeFirst <;> rfl

theorem callerValue?_given {setting : Setting} (plain : setting ≠ .verbosity) :
    callerValue? (r.given verbose quiet) setting =
      (if r.relativeFirst = true ∧ setting = .relativeFirst then some (.bool true) else none).or
        ((if r.noFolders = true ∧ setting = .includeFolders then some (.bool false) else none).or
          (if setting = .churnMode then r.churn.map (.text ·.name) else none)) := by
  have wished : Table.last? (r.churn.map fun mode =>
      (Setting.churnMode.name, Value.text mode.name)).toList setting.name =
        if setting = .churnMode then r.churn.map (.text ·.name) else none := by
    cases r.churn with
    | none => simp [Table.last?]
    | some mode =>
        simp only [Option.map_some, Option.toList_some, Table.last?_singleton, Setting.name_inj]
  rw [callerValue?, if_neg (by simp [plain]), if_neg (by simp [plain]), plainOf_given,
    Table.last?_append, Table.last?_append, last?_flagGiven, last?_flagGiven, wished]

/-- The settings that at least one of the two commands gives. -/
def ofCommands : List Setting := [.churnMode, .verbosity, .includeFolders, .relativeFirst]

theorem callerValue?_other {setting : Setting} (other : setting ∉ ofCommands) :
    callerValue? locateGiven setting = callerValue? (r.given verbose quiet) setting := by
  simp only [ofCommands, List.mem_cons, List.not_mem_nil, or_false, not_or] at other
  obtain ⟨churn, verbosity, folders, relative⟩ := other
  rw [callerValue?_given verbosity]
  simp only [churn, folders, relative, and_false, if_false, Option.or_none]
  rw [callerValue?_locateGiven]
  cases setting <;> first | rfl | contradiction

theorem takes_locateGiven {setting : Setting} (member : setting ∈ ofCommands) (documents : Documents)
    (environment : Variables) :
    setting.Takes (documents.effective environment locateGiven setting) := by
  simp only [ofCommands, List.mem_cons, List.not_mem_nil, or_false] at member
  rcases member with rfl | rfl | rfl | rfl
  · exact ⟨.off, rfl⟩
  · exact ⟨.quiet, rfl⟩
  · trivial
  · trivial

/-- Settings for a graph leave settings for the search of its nodes that select the same files and
    leave out no folder that the graph has. -/
theorem load_locateGiven {d : Disk} {environment : Variables} {config : Option Path}
    {settings : Settings}
    (loaded : Settings.load d environment config (r.given verbose quiet) = .ok settings) :
    ∃ settings', Settings.load d environment config locateGiven = .ok settings' ∧
      settings.SelectAlike settings' ∧ settings'.churnMode = .off ∧ settings'.topN = settings.topN ∧
      (settings.includeFolders.isYes = settings'.includeFolders.isYes ∨
        settings.includeFolders.isYes = false) := by
  have known : ∀ name ∈ (plainOf locateGiven).map (·.1), ∃ setting : Setting, setting.name = name := by
    intro name member
    have only : name = "churn_mode" := List.mem_singleton.mp member
    exact ⟨.churnMode, only.symm⟩
  obtain ⟨settings', loaded', same⟩ := load_of_caller known (fun setting =>
    (Decidable.em (setting ∈ ofCommands)).symm.imp callerValue?_other
      fun member documents => takes_locateGiven member documents environment) loaded
  have differ : settings.DifferOnlyIn ofCommands settings' :=
    fun setting other => (same setting (callerValue?_other other)).symm
  have off : settings'.get .churnMode = .text "off" := get_of_caller loaded' rfl
  refine ⟨settings', loaded', differ.selectAlike (by decide),
    History.ChurnMode.name_injective (Value.text.inj off), ?_, ?_⟩
  · exact Option.some.inj ((Amount.ofValue?_eq_some_iff.mpr rfl).symm.trans
      (Amount.ofValue?_eq_some_iff.mpr (differ .topN (by decide)).symm))
  · have given : callerValue? (r.given verbose quiet) .includeFolders =
        if r.noFolders = true then some (.bool false) else none := by
      rw [callerValue?_given (by decide)]
      simp
    cases without : r.noFolders with
    | false =>
        rw [without] at given
        have kept : settings'.includeFolders = settings.includeFolders :=
          same .includeFolders given.symm
        exact .inl (by rw [kept])
    | true =>
        rw [without] at given
        have none : settings.includeFolders = .bool false := get_of_caller loaded given
        exact .inr (by rw [none]; rfl)

/-- Each node of the graph is found by the command for nodes, which asks git for nothing. -/
theorem locate_of_graphs (tidy : s.disk.root.Tidy) (disk : s'.disk = s.disk)
    (environment : s'.environment = s.environment)
    (tools : s'.machine.toTools = s.machine.toTools) (graphs : s.Graphs r verbose quiet g) :
    ∀ node ∈ g.store.nodes,
      s'.runLocate { path := r.path, node := node.id, config := r.config } =
        .ok { lines := echo node.path, written := none } := by
  intro node member
  obtain ⟨settings, loaded, surveyed⟩ := graphs
  obtain ⟨isFolder, done⟩ := graphOf_eq_ok_iff.mp surveyed
  obtain ⟨settings', loaded', alike, off, bound, fewer⟩ :=
    load_locateGiven (settings_eq_ok_iff.mp loaded)
  obtain ⟨g', done'⟩ : ∃ g', RepoGraph.survey s.disk s'.machine settings' (some r.path) = .ok g' :=
    RepoGraph.recounted_of_off tidy tools alike off bound done
  have found := RepoGraph.located_recounted tidy tools alike fewer done done' node member
  rw [← disk, ← environment] at loaded'
  rw [← disk] at isFolder done'
  rw [runLocate]
  change (s'.settings r.config locateGiven >>= fun settings => s'.graphOf r.path settings >>= _) = _
  rw [settings_eq_ok_iff.mpr loaded', ok_bind, graphOf_eq_ok_iff.mpr ⟨isFolder, done'⟩, ok_bind]
  simp only [found]
  rfl

end CommandLine

/-! ## Two files, counted and not -/

theorem Survey.counts_congr {d : Disk} {machine : Machine} {s s' : Settings} {root : Path}
    {files : List Path} (mode : s.churnMode = s'.churnMode)
    (patience : s.gitTimeoutSeconds = s'.gitTimeoutSeconds) (workers : s.workers = s'.workers) :
    counts d machine s root files = counts d machine s' root files := by
  rw [counts, counts, Settings.effectiveWorkers, Settings.effectiveWorkers, mode, patience, workers]

/-- Settings that count nothing, ask for other patience and sum up less. -/
def Settings.hasty : Settings :=
  { counting with
    churnMode := .off, gitTimeoutSeconds := .whole 1, workers := some (.whole 2), topN := .flag true }

theorem Settings.counting_differOnlyIn_hasty :
    counting.DifferOnlyIn (.relativeFirst :: Setting.ofTally) hasty := by
  intro setting other
  cases setting <;> first | rfl | exact absurd other (by decide)

/-- The surroundings of a disk with nothing but a home folder. -/
def CommandLine.Surroundings.bare (disk : Disk) (machine : Machine) : Surroundings where
  disk := disk
  machine := machine
  environment := [("HOME", "/")]
  ask _ := .failed ""
  printer := .plain
  width := 80

/-- A graph without folders is asked for. -/
def CommandLine.GraphRequest.flat : GraphRequest where
  path := Path.parse "/r"
  output := none
  noFolders := true
  relativeFirst := true
  churn := some .history
  config := none

/-- The presets with what is asked for. -/
def Settings.flat : Settings where
  extensions := Language.sourceExtensions
  excludedDirs := Language.excludedDirectories.map .text
  ignoreFile := .text ".gitignore"
  respectIgnoreFile := .bool true
  includeFolders := .bool false
  relativeFirst := .bool true
  churnMode := .history
  gitTimeoutSeconds := .whole 10
  workers := none
  topN := .whole 5
  verbosity := .normal
  explainModel := .text "gemini-2.5-flash"
  explainMaxChars := .whole 3000

theorem Settings.load_flat (text : String) :
    load (.twoFiles text) [("HOME", "/")] none (CommandLine.GraphRequest.flat.given false false) =
      .ok flat := by
  have noHome : (Disk.twoFiles text).hasEntry ((Path.bare .root).join (Path.parse homeDocument)) =
      .ok false :=
    Disk.hasEntry_of_unlisted (show _ = [".orbyt.toml"] from rfl) rfl (by decide) (by decide +kernel)
      (by decide +kernel)
  have noProject : (Disk.twoFiles text).hasEntry (projectPath (.twoFiles text)) = .ok false :=
    Disk.hasEntry_of_unlisted (show _ = ["orbyt.toml"] from rfl) rfl (by decide) (by decide +kernel)
      (show (projectPath .empty).text.utf8ByteSize ≤ Disk.longestPath by decide +kernel)
  let documents : Documents := ⟨[], [], []⟩
  let given := CommandLine.GraphRequest.flat.given false false
  have read : documents.Read (.twoFiles text) [("HOME", "/")] none :=
    ⟨⟨_, rfl, .absent noHome⟩, .absent noProject, .unnamed⟩
  have made : ofTable (documents.merged [] given) = .ok flat := rfl
  rw [load_of_layers (read.layers rfl), made]

theorem RepoGraph.survey_holding_returns {entries : Entries} {rights : Rights} {machine : Machine}
    {s : Settings} (tidy : (Disk.holding entries rights).root.Tidy) (open' : rights.search = true)
    (absent : entries.lookup ".gitignore" = none) (typed : s.WellTyped)
    (alike : Settings.plain.ignoreFile = s.ignoreFile ∧
      Settings.plain.respectIgnoreFile = s.respectIgnoreFile)
    (counted : ∀ files, ∃ commits,
      Survey.counts (.holding entries rights) machine s (Path.parse "/r") files = .ok commits) :
    ∃ g, survey (.holding entries rights) machine s (some (Path.parse "/r")) = .ok g := by
  have compiled : Survey.rules (.holding entries rights) machine.compile s (Path.parse "/r") =
      .ok none := by
    rw [Survey.rules, ← alike.1, ← alike.2]
    exact Disk.rules_holding_of_absent open' _ absent
  obtain ⟨n, bound⟩ := typed.topN
  rw [survey_returns_iff tidy Disk.starts_holding, Survey.not_fails_iff]
  exact ⟨⟨none, compiled⟩, typed.plain, by decide, fun _ _ => ⟨counted _, .inl ⟨n, by rw [bound]; rfl⟩⟩⟩

open CommandLine in
/-- Between settings that differ only in how commits are counted and summed up, and in where relative
    specifiers are looked for first, a graph keeps its nodes but for the commits, and even its edges
    if these are looked for alike. Where one of them gives a graph, the other fails only if commits
    cannot be counted or the bound of its summary is no whole number and there are files. So the
    search for a node, which asks for no history, finds each node of the graph that was handed out,
    with its path. -/
theorem RepoGraph.survey_uncounted {d : Disk} (tidy : d.root.Tidy) :
    (∀ {machine machine' : Machine} {s s' : Settings} {folder : Path} {g : RepoGraph},
      machine'.toTools = machine.toTools →
      s.DifferOnlyIn (.relativeFirst :: Setting.ofTally) s' →
      survey d machine s (some folder) = .ok g →
        (∀ problem, survey d machine' s' (some folder) = .error problem ↔
          Survey.TallyFails d machine' s' folder g problem) ∧
        ∀ g', survey d machine' s' (some folder) = .ok g' →
          g.store.nodes.map Node.uncounted = g'.store.nodes.map Node.uncounted ∧
          (s.relativeFirst = s'.relativeFirst → g.store.edges = g'.store.edges) ∧
          ∀ node ∈ g.store.nodes, g'.nodePath? node.id = some node.path) ∧
    ∀ (s s' : Surroundings) {r : GraphRequest} {verbose quiet : Bool}, s.disk = d → s'.disk = d →
      s'.environment = s.environment → s'.machine.toTools = s.machine.toTools →
        (∀ effect, s.runGraph r verbose quiet = .ok effect →
          ∃ g text, s.Graphs r verbose quiet g ∧ g.render (some 2) = .ok text ∧
            effect.Carries text) ∧
        ∀ g, s.Graphs r verbose quiet g → ∀ node ∈ g.store.nodes,
          s'.runLocate { path := r.path, node := node.id, config := r.config } =
            .ok { lines := Surroundings.echo node.path, written := none } := by
  constructor
  · intro machine machine' s s' folder g tools differ done
    have alike : s.SelectAlike s' := differ.selectAlike (by decide)
    have folders : s.includeFolders = s'.includeFolders := differ .includeFolders (by decide)
    refine ⟨fun problem => recounted_eq_error_iff tidy tools alike done, fun g' done' => ?_⟩
    have located := located_recounted tidy tools alike (.inl (by rw [folders])) done done'
    match isFolder : d.isFolder folder with
    | .error cause => simp [survey, isFolder] at done
    | .ok false =>
        rw [survey_of_not_isFolder isFolder] at done done'
        cases done
        cases done'
        exact ⟨rfl, fun _ => rfl, located⟩
    | .ok true =>
        obtain ⟨root, starts⟩ := exists_starts isFolder
        obtain ⟨known, paths, commits, -, -, store, outcome⟩ :=
          survey_recounted tidy tools starts alike done
        rw [outcome] at done'
        obtain ⟨commits', -, done'⟩ := exists_of_bind_ok done'
        obtain ⟨stats, -, rfl⟩ := exists_of_map_ok done'
        refine ⟨?_, fun same => ?_, located⟩
        · rw [store, Survey.storeOf, Survey.storeOf, folders]
          exact Store.uncounted_assembled commits commits'
        · rw [store, Survey.storeOf, Survey.storeOf, folders,
            Survey.importsOf_recounted commits commits' same]
          exact Store.edges_assembled_congr commits commits'
  · rintro s s' r verbose quiet rfl disk environment tools
    exact ⟨fun _ => graphs_of_runGraph, fun _ => locate_of_graphs tidy disk environment tools⟩

/-- A build with a history and one without, and the search in the second for the nodes of a graph
    without folders. -/
theorem RepoGraph.survey_uncounted_twoFiles :
    (∃ g g', survey (.twoFiles "import \"./b\"") .knowing .counting (some (Path.parse "/r")) = .ok g ∧
      survey (.twoFiles "import \"./b\"") .plain .hasty (some (Path.parse "/r")) = .ok g' ∧
      g.store.nodes.map Node.uncounted = g'.store.nodes.map Node.uncounted ∧
      g.store.edges = g'.store.edges) ∧
    ∃ g, (CommandLine.Surroundings.bare (.twoFiles "import \"./b\"") .knowing).Graphs .flat
        false false g ∧
      ∀ node ∈ g.store.nodes,
        (CommandLine.Surroundings.bare (.twoFiles "import \"./b\"") .plain).runLocate
          { path := Path.parse "/r", node := node.id, config := none } =
            .ok { lines := CommandLine.Surroundings.echo node.path, written := none } := by
  have tidy := Disk.tidy_twoFiles "import \"./b\""
  constructor
  · obtain ⟨g, done⟩ : ∃ g, survey (.twoFiles "import \"./b\"") .knowing .counting
        (some (Path.parse "/r")) = .ok g :=
      survey_holding_returns tidy rfl rfl Settings.wellTyped_counting ⟨rfl, rfl⟩
        Survey.counts_knowing
    have tools : Machine.plain.toTools = Machine.knowing.toTools := rfl
    obtain ⟨fails, alike⟩ := (survey_uncounted tidy).1 tools Settings.counting_differOnlyIn_hasty done
    obtain ⟨g', done'⟩ : ∃ g', survey (.twoFiles "import \"./b\"") .plain .hasty
        (some (Path.parse "/r")) = .ok g' := by
      refine exists_ok_iff.mpr fun problem failed => ?_
      cases (fails problem).mp failed with
      | counting _ _ uncounted => cases (Survey.counts_of_off rfl).symm.trans uncounted
      | topN _ _ _ unbound => cases unbound
    obtain ⟨nodes, edges, -⟩ := alike g' done'
    exact ⟨g, g', done, done', nodes, edges rfl⟩
  · have typed : Settings.flat.WellTyped := ⟨by simp [Settings.flat], 5, rfl⟩
    obtain ⟨g, done⟩ : ∃ g, survey (.twoFiles "import \"./b\"") .knowing .flat
        (some (Path.parse "/r")) = .ok g := by
      refine survey_holding_returns tidy rfl rfl typed ⟨rfl, rfl⟩ fun files => ?_
      rw [Survey.counts_congr (show Settings.flat.churnMode = Settings.counting.churnMode from rfl)
        rfl rfl]
      exact Survey.counts_knowing files
    have graphs : (CommandLine.Surroundings.bare (.twoFiles "import \"./b\"") .knowing).Graphs .flat
        false false g :=
      ⟨.flat, CommandLine.settings_eq_ok_iff.mpr (Settings.load_flat _),
        CommandLine.graphOf_eq_ok_iff.mpr ⟨Disk.isFolder_holding, done⟩⟩
    exact ⟨g, graphs, ((survey_uncounted tidy).2 (.bare _ .knowing) (.bare _ .plain)
      rfl rfl rfl rfl).2 g graphs⟩

/-- The presets without a history, and with a fraction for the bound of the summary. -/
def Settings.timeless : Settings :=
  { flat with includeFolders := .bool true, relativeFirst := .bool false, churnMode := .off }

def Settings.halved : Settings := { timeless with topN := .real 2.5 }

/-- No folder is in the way of a file that lies right in the top. -/
theorem Selection.lists_child {s : Selection} {top : Entry} {name : String} {bytes : List UInt8}
    {readable : Bool} (regular : top.at? [name] = some (.file bytes readable))
    (accepted : s.accepts name = true) (kept : s.ignored (Path.joined [name]) = false) :
    s.Lists top [name] := by
  refine ⟨⟨bytes, readable, regular⟩, accepted, kept, fun start nonempty before strict => ?_⟩
  rcases List.prefix_concat_iff.mp (show start <+: [] ++ [name] from before) with whole | empty
  · exact absurd whole strict
  · exact absurd (List.prefix_nil.mp empty) nonempty

/-- A fraction is taken for the bound of the summary, and then there is no graph whose nodes could be
    the same. -/
theorem RepoGraph.survey_halved_fails :
    Disk.single.root.Tidy ∧ Disk.single.Starts (Path.parse "/r") (Path.parse "/r") ∧
      Settings.ofTable [("churn_mode", .text "off")] = .ok .timeless ∧
      Settings.ofTable [("churn_mode", .text "off"), ("top_n", .float 2.5)] = .ok .halved ∧
      Settings.timeless.DifferOnlyIn Setting.ofTally .halved ∧
      (∃ g, survey .single .plain .timeless (some (Path.parse "/r")) = .ok g) ∧
      survey .single .plain .halved (some (Path.parse "/r")) = .error (.misfit .topN) := by
  have tidy : Disk.single.root.Tidy := Disk.tidy_holding
    (.folder _ _ (by decide) (by decide) (List.forall_mem_singleton.mpr (.file _ _)))
  have compiled : Survey.rules .single Machine.plain.compile .timeless (Path.parse "/r") = .ok none :=
    Disk.rules_holding_of_absent rfl _ rfl
  have typed : Settings.timeless.WellTyped := ⟨by simp [Settings.timeless, Settings.flat], 5, rfl⟩
  have differ : Settings.timeless.DifferOnlyIn Setting.ofTally .halved := by
    intro setting other
    cases setting <;> first | rfl | exact absurd other (by decide)
  refine ⟨tidy, Disk.starts_holding, rfl, rfl, differ, ?_, ?_⟩
  · exact survey_holding_returns tidy rfl rfl typed ⟨rfl, rfl⟩
      fun _ => ⟨[], Survey.counts_of_off rfl⟩
  · have beyond : (Path.parse "/r").beyond (Path.parse "/r/a.ts") = ["a.ts"] := by decide
    have lists : (Settings.halved.selection none).Lists (.folder [("a.ts", .file [] true)] .full)
        ((Path.parse "/r").beyond (Path.parse "/r/a.ts")) := by
      rw [beyond]
      exact Selection.lists_child rfl (by decide +kernel) rfl
    have shown : Disk.single.Shows (Settings.halved.selection none) (Path.parse "/r")
        (Path.parse "/r/a.ts") :=
      ⟨_, Disk.find_holding, ⟨_, _, rfl, rfl⟩, by decide, lists, [], by rw [beyond]; rfl⟩
    have plain : ∀ v ∈ Settings.halved.excludedDirs, v.hasParts = false := typed.plain
    rw [survey_eq_error_iff tidy Disk.starts_holding]
    exact .topN compiled plain (by decide) (Survey.counts_of_off rfl) rfl shown

end RepoAtlas
