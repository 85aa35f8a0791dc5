import RepoAtlas.Proofs.Hidden

/-! # Editing one file

When the text of one file changes, its own lines, complexity, size and imports may change, and
nothing else of the nodes, of the hierarchy and of the imports of other files. The index of names is
made of paths alone, so where a specifier leads is not up to any text.
-/

namespace RepoAtlas

/-- Two disks that are the same but for the bytes of one file, which can be read on both. -/
structure Disk.Edited (d d' : Disk) (spot : List String) : Prop where
  here : d.here = d'.here
  before : ∃ bytes, d.at? spot = some (.file bytes true)
  after : ∃ bytes, d'.at? spot = some (.file bytes true)
  others : ∀ place, place ≠ spot → (d.at? place).map Entry.face = (d'.at? place).map Entry.face

/-- A node without what the text of the file with this id decides. -/
def Node.blurred (id : String) : Node → Node
  | .file f => .file (if f.id = id then { f with loc := 0, complexity := 0, size := 0 } else f)
  | .folder f => .folder f

/-- Two graphs that are the same but for the metrics and the imports of one file. -/
structure RepoGraph.SameBut (f : Path) (g g' : RepoGraph) : Prop where
  nodes : g.store.nodes.map (Node.blurred f.text) = g'.store.nodes.map (Node.blurred f.text)
  hierarchy : g.store.edgesOf .hierarchy = g'.store.edgesOf .hierarchy
  imports : (g.store.edgesOf .imports).filter (·.source ≠ f.text) =
    (g'.store.edgesOf .imports).filter (·.source ≠ f.text)

namespace Disk

variable {d d' : Disk} {spot : List String}

theorem Edited.lookAlike (edited : d.Edited d' spot) : d.LookAlike d' where
  here := edited.here
  places := by
    intro place
    by_cases edit : place = spot
    · obtain ⟨bytes, found⟩ := edited.before
      obtain ⟨bytes', found'⟩ := edited.after
      rw [edit, found, found']
      exact .file _ _ _
    · exact .of_face (edited.others place edit)

/-- A path that does not lead to the edited file has the same text on both disks. -/
theorem Edited.text_congr (edited : d.Edited d' spot) {p : Path}
    (apart : ∀ e, d.find p ≠ .ok (spot, e)) : d.text p = d'.text p := by
  have found := edited.lookAlike.find p
  rw [text, text, Disk.bytes, Disk.bytes]
  generalize first : d.find p = x at found apart
  generalize second : d'.find p = x' at found
  cases found with
  | failed => rfl
  | found place alike =>
      rename_i e e'
      have other : place ≠ spot := fun same => apart e (same ▸ rfl)
      have same := edited.others place other
      rw [(settled_of_find first).found, (settled_of_find second).found] at same
      cases alike with
      | file bytes bytes' readable =>
          cases same
          rfl
      | folder | link | other => rfl

theorem Edited.ignoreText_congr (edited : d.Edited d' spot) {root : Path} {name : String}
    (apart : ∀ e, d.find (root.join (Path.parse name)) ≠ .ok (spot, e)) :
    d.ignoreText root name = d'.ignoreText root name := by
  rw [ignoreText, ignoreText, edited.text_congr apart, edited.lookAlike.isFile]

section Roots

variable {root : Path} {top top' : Entry} {s : Selection} (roots : d.Roots root top)
  (roots' : d'.Roots root top')

include roots in
theorem Roots.at?_below (parts : List String) : d.at? (root.parts ++ parts) = top.at? parts := by
  rw [at?, Entry.at?_append, show d.root.at? root.parts = some top from roots.settled.found]
  rfl

include roots in
/-- A shown file is found under its own names. -/
theorem Roots.find_of_shows {p : Path} (shown : d.Shows s root p) :
    p.Within root ∧ ∃ bytes, d.find p = .ok (p.parts, .file bytes true) := by
  obtain ⟨_, found, -, within, -, bytes, reached⟩ := shown
  cases roots.find.symm.trans found
  refine ⟨within, bytes, ?_⟩
  rw [roots.find_within within (Entry.at?_of_reach? reached) fun _ => Entry.noConfusion, reached]

variable (alike : d.LookAlike d')

include roots roots' alike

theorem Roots.lookAlike (parts : List String) :
    Entry.LookAlike (top.at? parts) (top'.at? parts) := by
  rw [← roots.at?_below, ← roots'.at?_below]
  exact alike.places _

theorem Roots.lists_congr {p : Path} (whole : top.IsListed) (lists : s.Lists top (root.beyond p)) :
    top'.IsListed ∧ s.Lists top' (root.beyond p) := by
  obtain ⟨entries, rights, rfl, listed⟩ := whole
  obtain ⟨others, found⟩ := (roots.lookAlike roots' alike []).folder_of
  exact ⟨⟨others, rights, Option.some.inj found, listed⟩,
    lists.congr fun start _ => roots.lookAlike roots' alike start⟩

theorem Roots.shows_of_lookAlike {p : Path} (shown : d.Shows s root p) : d'.Shows s root p := by
  obtain ⟨_, found, whole, within, lists, bytes, reached⟩ := shown
  cases roots.find.symm.trans found
  obtain ⟨whole', lists'⟩ := roots.lists_congr roots' alike whole lists
  have reach := Entry.LookAlike.reach? fun start (_ : start <+: root.beyond p) =>
    roots.lookAlike roots' alike start
  exact ⟨top', roots'.find, whole', within, lists', (reached ▸ reach).file_of⟩

end Roots

theorem LookAlike.symm (alike : d.LookAlike d') : d'.LookAlike d where
  here := alike.here.symm
  places place := by
    have forth := alike.places place
    generalize d.at? place = x, d'.at? place = x' at forth
    cases forth <;> constructor

/-- Disks that look alike list the same files. -/
theorem LookAlike.listing (alike : d.LookAlike d') {root : Path} {top top' : Entry} {s : Selection}
    (roots : d.Roots root top) (roots' : d'.Roots root top') :
    d.listing root s = d'.listing root s := by
  refine eq_of_ordered roots.lists_listing.ordered roots'.lists_listing.ordered fun p => ?_
  rw [roots.mem_listing, roots'.mem_listing]
  constructor
  · rintro ⟨whole, within, lists⟩
    obtain ⟨whole', lists'⟩ := roots.lists_congr roots' alike whole lists
    exact ⟨whole', within, lists'⟩
  · rintro ⟨whole, within, lists⟩
    obtain ⟨whole', lists'⟩ := roots'.lists_congr roots alike.symm whole lists
    exact ⟨whole', within, lists'⟩

end Disk

/-- Disks with the same rules that show the same files with the same commits fail alike. -/
theorem Survey.Fails.congr {d d' : Disk} {machine machine' : Machine} {settings : Settings}
    {root : Path} {problem : SurveyProblem}
    (compiled : Survey.rules d machine.compile settings root =
      Survey.rules d' machine'.compile settings root)
    (shows : ∀ s p, d.Shows s root p → d'.Shows s root p)
    (counted : ∀ s, Survey.counts d machine settings root (d.listing root s) =
      Survey.counts d' machine' settings root (d'.listing root s))
    (fails : Fails d machine settings root problem) : Fails d' machine' settings root problem := by
  cases fails with
  | rules fails => exact .rules (rules_eq_error_iff.mp (compiled ▸ rules_eq_error_iff.mpr fails))
  | excludedDirs done member parts => exact .excludedDirs (compiled ▸ done) member parts
  | tooLong done plain long => exact .tooLong (compiled ▸ done) plain long
  | counting done plain short failed =>
      exact .counting (compiled ▸ done) plain short (counted _ ▸ failed)
  | topN done plain short tallied unbound shown =>
      exact .topN (compiled ▸ done) plain short (counted _ ▸ tallied) unbound (shows _ _ shown)

namespace Store

open Builder

variable {root : Path} {withFolders : Bool} {files : List ScannedFile}
  {imports : List (Path × List Path)}

theorem filter_requests (f : Path) (imports : List (Path × List Path)) :
    (requests imports).filter (·.1 ≠ f) = requests (imports.filter (·.1 ≠ f)) := by
  induction imports with
  | nil => rfl
  | cons row rest ih =>
      rw [requests, List.flatMap_cons, List.filter_append, ← requests, ih, List.filter_cons]
      by_cases own : row.1 = f
      · simp [own, requests]
      · simp [own, requests]

/-- The imports of all files but one are those of the rows of these files. -/
theorem imports_not_from (f : Path) :
    ((assembled root withFolders files imports).edgesOf .imports).filter (·.source ≠ f.text) =
      ((imported (files.map (·.path)) (imports.filter (·.1 ≠ f))).map (importEdge root)).eraseDups := by
  have other : ∀ pair : Path × Path,
      decide ((importEdge root pair).source ≠ f.text) = decide (pair.1 ≠ f) := by
    intro pair
    rw [decide_eq_decide]
    exact not_congr ⟨fun same => Path.text_injective same, fun same => congrArg Path.text same⟩
  rw [edgesOf_imports_assembled, filter_eraseDups, List.filter_map, imported, imported,
    ← filter_requests, List.filter_filter, List.filter_filter]
  simp only [Function.comp_def, other, Bool.and_comm]

end Store

/-- Graphs of the same paths whose files differ at one path only, where they have as many commits. -/
theorem RepoGraph.sameBut_of_files {settings : Settings} {root f : Path} {paths : List Path}
    {file file' : Path → ScannedFile} (keyed : ∀ p, (file p).path = p)
    (keyed' : ∀ p, (file' p).path = p)
    (commits : (file f).metrics.commits = (file' f).metrics.commits)
    (others : ∀ p ∈ paths, p ≠ f → file p = file' p) {g g' : RepoGraph}
    (store : g.store = Survey.storeOf settings root (paths.map file))
    (store' : g'.store = Survey.storeOf settings root (paths.map file')) : g.SameBut f g' := by
  have pathsOf : (paths.map file).map (·.path) = paths := by simp [Function.comp_def, keyed]
  have pathsOf' : (paths.map file').map (·.path) = paths := by simp [Function.comp_def, keyed']
  rw [Survey.storeOf] at store store'
  constructor
  case nodes =>
    rw [store, store']
    refine Store.map_nodes_congr keyed keyed' fun p member => ?_
    by_cases own : p = f
    · subst own
      simp [Builder.nodeOf, Builder.recordOf, Builder.fileNode, Node.blurred, keyed, keyed', commits]
    · rw [others p member own]
  case hierarchy =>
    rw [store, store']
    exact Store.edgesOf_hierarchy_congr (pathsOf.trans pathsOf'.symm)
  case imports =>
    have rows : (Survey.importsOf settings (paths.map file)).filter (·.1 ≠ f) =
        (Survey.importsOf settings (paths.map file')).filter (·.1 ≠ f) := by
      rw [Survey.importsOf_map keyed, Survey.importsOf_map keyed', List.filter_map, List.filter_map]
      refine List.map_congr_left fun p member => ?_
      obtain ⟨inside, apart⟩ := List.mem_filter.mp member
      rw [others p inside (by simpa using apart)]
    rw [store, store', Store.imports_not_from, Store.imports_not_from, pathsOf, pathsOf', rows]

section Edit

variable {d d' : Disk} {settings : Settings} {root f : Path} {top top' : Entry}

/-- What is read of two disks differs at the edited file only. -/
theorem Disk.Edited.fileOf_congr (edited : d.Edited d' f.parts) (roots : d.Roots root top)
    (within : f.Within root) {reader : Script.Reader} {commits : History.Counts} {s : Selection}
    {p : Path} (shown : d.Shows s root p) (other : p ≠ f) :
    d.fileOf reader commits p = d'.fileOf reader commits p := by
  obtain ⟨withinRoot, bytes, found⟩ := roots.find_of_shows shown
  refine Disk.fileOf_congr (edited.text_congr fun e found' => other ?_) rfl
  have place : p.parts = f.parts :=
    congrArg Prod.fst (Except.ok.inj (found.symm.trans found'))
  exact Path.ext (withinRoot.1.trans within.1.symm) place

theorem RepoGraph.sameBut_of_edited (edited : d.Edited d' f.parts) (roots : d.Roots root top)
    (roots' : d'.Roots root top') (within : f.Within root) {reader : Script.Reader} {s : Selection}
    {commits : History.Counts} {g g' : RepoGraph}
    (store : g.store = Survey.storeOf settings root (Survey.scanned d reader root s commits))
    (store' : g'.store = Survey.storeOf settings root (Survey.scanned d' reader root s commits)) :
    g.SameBut f g' := by
  have alike := edited.lookAlike
  have shows : ∀ p, d.Shows s root p ↔ d'.Shows s root p := fun p =>
    ⟨roots.shows_of_lookAlike roots' alike, roots'.shows_of_lookAlike roots alike.symm⟩
  rw [Survey.scanned, ← Disk.readable_listing_congr roots roots' shows] at store'
  refine sameBut_of_files Disk.path_fileOf Disk.path_fileOf ?_ ?_ store store'
  · rfl
  · intro p shown other
    exact edited.fileOf_congr roots within (roots.mem_readable.mp shown) other

end Edit

/-! ## An edit of the first of two files -/

namespace Disk

variable {entries entries' : Entries} {rights : Rights}

theorem at?_holding (name : String) (rest : List String) :
    (holding entries rights).at? ("r" :: name :: rest) =
      (entries.lookup name).bind (·.at? rest) := by
  rw [at?, Entry.at?_cons]
  exact Entry.at?_cons _ _ _

theorem at?_holding_other {name : String} (other : name ≠ "r") (rest : List String) :
    (holding entries rights).at? (name :: rest) = none := by
  have absent : (holding entries rights).root.child? name = none := by
    simp [Disk.root, holding, Entry.child?, Entry.entries, other]
  rw [at?, Entry.at?_cons, absent]
  rfl

/-- Putting other bytes into a file of the one folder is an edit. -/
theorem edited_holding (name : String) {bytes bytes' : List UInt8}
    (old : entries.lookup name = some (.file bytes true))
    (new : entries'.lookup name = some (.file bytes' true))
    (rest : ∀ other, other ≠ name → entries.lookup other = entries'.lookup other) :
    (holding entries rights).Edited (holding entries' rights) ["r", name] where
  here := rfl
  before := ⟨bytes, by rw [at?_holding, old]; rfl⟩
  after := ⟨bytes', by rw [at?_holding, new]; rfl⟩
  others := by
    intro place apart
    cases place with
    | nil => rfl
    | cons first more =>
        by_cases top : first = "r"
        · subst top
          cases more with
          | nil => rfl
          | cons second more =>
              rw [at?_holding, at?_holding]
              by_cases edit : second = name
              · subst edit
                -- Nothing lies behind a file.
                cases more with
                | nil => exact absurd rfl apart
                | cons next more =>
                    rw [old, new]
                    rfl
              · rw [rest second edit]
        · rw [at?_holding_other top, at?_holding_other top]

/-- A file with a text beside an empty one. -/
def twoFiles (text : String) : Disk :=
  .holding [("a.ts", .file text.toUTF8.toList true), ("b.ts", .file [] true)] .full

theorem tidy_twoFiles (text : String) : (twoFiles text).root.Tidy := by
  refine tidy_holding (.folder _ _ (by simp) ?_ ?_)
  · have named : ∀ name ∈ ["a.ts", "b.ts"], Entry.IsName name := by decide
    exact List.forall_mem_cons.mpr
      ⟨named _ (by simp), List.forall_mem_singleton.mpr (named _ (by simp))⟩
  · exact List.forall_mem_cons.mpr ⟨.file _ _, List.forall_mem_singleton.mpr (.file _ _)⟩

end Disk

/-- A git that knows of one commit to the first file. -/
def History.Git.knowing : Git where
  installed := true
  reply
    | _, .toplevel _ => .finished 0 "/r\n"
    | _, .log _ => .finished 0 "commit:a1\n\x00a.ts\x00"
    | _, .commitsOf _ _ => .timedOut

/-- Settings that count commits by one log. -/
def Settings.counting : Settings := { plain with churnMode := .history }

theorem Settings.wellTyped_counting : counting.WellTyped :=
  ⟨wellTyped_plain.excludedDirs, wellTyped_plain.topN⟩

/-- The tools of this library on a machine with that git. -/
def Machine.knowing : Machine := { Tools.builtIn with git := .knowing, processors := none }

/-- The git that knows of a commit is never refused a question. -/
theorem Survey.counts_knowing {entries : Entries} {rights : Rights} (files : List Path) :
    ∃ commits, counts (.holding entries rights) .knowing .counting (Path.parse "/r") files =
      .ok commits := by
  have place := @Disk.resolve_holding entries rights
  have first : History.Git.knowing.answer (.whole 10) [] (.toplevel (Path.parse "/r")) =
    .ok (some "/r\n") := by decide
  have second : History.Git.knowing.answer (.whole 10) [.toplevel (Path.parse "/r")]
    (.log (Path.parse "/r")) = .ok (some "commit:a1\n\x00a.ts\x00") := by decide
  have named : History.Session.topOf (.holding entries rights) (some "/r\n") =
      .ok (some (Path.parse "/r")) := by
    rw [History.Session.topOf, show Text.strip "/r\n" = "/r" by decide, if_neg (by decide), place]
  let session := History.Session.start (.holding entries rights) .knowing (.whole 10)
    (Settings.counting.effectiveWorkers none) (Path.parse "/r")
  have top : session.toplevel = (.ok (some (Path.parse "/r")),
      { session with
        top := some (some (Path.parse "/r")), asked := [.toplevel (Path.parse "/r")] }) := by
    rw [History.Session.toplevel]
    simp only [session, History.Session.start, History.Session.ask, first, named]
    rfl
  cases files with
  | nil => exact ⟨[], rfl⟩
  | cons p rest =>
      obtain ⟨commits, after, counted⟩ : ∃ commits after,
          session.historyCounts (p :: rest) = (.ok commits, after) := by
        rw [History.Session.historyCounts, top]
        simp only [session, History.Session.start, History.Session.ask, second]
        exact ⟨_, _, rfl⟩
      refine ⟨commits, ?_⟩
      change (History.collect (.holding entries rights) .knowing (.whole 10)
        (Settings.counting.effectiveWorkers none) (Path.parse "/r") (p :: rest) .history).map _ = _
      rw [History.collect, place]
      change (Except.map _ (session.historyCounts (p :: rest)).1).map _ = _
      rw [counted]
      rfl
/-- An edit of one file below the folder, other than the ignore file, keeps all nodes but for the
    metrics of the file, the hierarchy, and what other files import, as long as the commits that are
    counted stay the same. Where a survey fails before the edit it fails after it, and for the same
    reason. -/
theorem RepoGraph.survey_edited {d d' : Disk} {machine machine' : Machine} {settings : Settings}
    {folder root f : Path} (tidy : d.root.Tidy) (tidy' : d'.root.Tidy)
    (edited : d.Edited d' f.parts) (tools : machine.toTools = machine'.toTools)
    (resolved : d.resolve folder = .ok root) (within : f.Within root)
    (apart : settings.respectIgnoreFile.isYes = true → ∀ name e, settings.ignoreFile = .text name →
      d.find (root.join (Path.parse name)) ≠ .ok (f.parts, e))
    (counts : ∀ files, Survey.counts d machine settings root files =
      Survey.counts d' machine' settings root files) :
    (∃ g g', survey d machine settings (some folder) = .ok g ∧
        survey d' machine' settings (some folder) = .ok g' ∧ g.SameBut f g') ∨
      ∃ problem, ((∃ cause, d.isFolder folder = .error cause ∧ problem = .path (.access cause)) ∨
          Survey.Fails d machine settings root problem) ∧
        survey d machine settings (some folder) = .error problem ∧
        survey d' machine' settings (some folder) = .error problem := by
  have alike := edited.lookAlike
  have look := alike.isFolder folder
  match isFolder : d.isFolder folder with
  | .error cause =>
      refine .inr ⟨_, .inl ⟨cause, rfl, rfl⟩, ?_, ?_⟩
      · simp only [survey, isFolder]
      · simp only [survey, ← look, isFolder]
  | .ok false =>
      exact .inl ⟨_, _, survey_of_not_isFolder isFolder,
        survey_of_not_isFolder (look ▸ isFolder), rfl, rfl, rfl⟩
  | .ok true =>
      have starts : d.Starts folder root := ⟨isFolder, resolved⟩
      have starts' : d'.Starts folder root := ⟨look ▸ isFolder, alike.resolve folder ▸ resolved⟩
      obtain ⟨top, roots⟩ := starts.roots tidy
      obtain ⟨top', roots'⟩ := starts'.roots tidy'
      have rules : Survey.rules d machine.compile settings root =
          Survey.rules d' machine'.compile settings root := by
        rw [← tools]
        exact Survey.rules_congr _ fun heeded name named =>
          edited.ignoreText_congr fun e => apart heeded name e named
      have counted : ∀ s, Survey.counts d machine settings root (d.listing root s) =
          Survey.counts d' machine' settings root (d'.listing root s) := fun s => by
        rw [counts, alike.listing roots roots']
      have forth : ∀ s p, d.Shows s root p → d'.Shows s root p :=
        fun s p => roots.shows_of_lookAlike roots' alike
      have back : ∀ s p, d'.Shows s root p → d.Shows s root p :=
        fun s p => roots'.shows_of_lookAlike roots alike.symm
      rw [survey_of_starts starts, survey_of_starts starts']
      cases outcome : Survey.graphAt d machine settings root with
      | error problem =>
          have fails := roots.graphAt_eq_error_iff.mp outcome
          exact .inr ⟨problem, .inr fails, rfl,
            roots'.graphAt_eq_error_iff.mpr (fails.congr rules forth counted)⟩
      | ok g =>
          cases outcome' : Survey.graphAt d' machine' settings root with
          | error problem =>
              have fails := (roots'.graphAt_eq_error_iff.mp outcome').congr rules.symm back
                fun s => (counted s).symm
              cases outcome.symm.trans (roots.graphAt_eq_error_iff.mpr fails)
          | ok g' =>
              refine .inl ⟨g, g', rfl, rfl, ?_⟩
              obtain ⟨-, known, commits, compiled, tallied, store⟩ := roots.store_of_graphAt outcome
              obtain ⟨-, known', commits', compiled', tallied', store'⟩ :=
                roots'.store_of_graphAt outcome'
              cases compiled.symm.trans (rules.trans compiled')
              cases tallied.symm.trans ((counted _).trans tallied')
              rw [← tools] at store'
              exact sameBut_of_edited edited roots roots' within store store'

/-- An import is replaced by a branch. -/
theorem RepoGraph.survey_edited_branch :
    (Disk.twoFiles "import \"./b\"").Edited (.twoFiles "if (b) \n b()") (Path.parse "/r/a.ts").parts ∧
      ∃ g g', survey (.twoFiles "import \"./b\"") .knowing .counting (some (Path.parse "/r")) =
          .ok g ∧
        survey (.twoFiles "if (b) \n b()") .knowing .counting (some (Path.parse "/r")) = .ok g' ∧
        g.SameBut (Path.parse "/r/a.ts") g' := by
  have compiled : Survey.rules (.twoFiles "import \"./b\"") Machine.knowing.compile .counting
      (Path.parse "/r") = .ok none := Disk.rules_holding_of_absent rfl _ rfl
  have edited : (Disk.twoFiles "import \"./b\"").Edited (.twoFiles "if (b) \n b()")
      (Path.parse "/r/a.ts").parts := by
    refine Disk.edited_holding "a.ts" rfl rfl fun other apart => ?_
    simp only [List.lookup_cons, beq_false_of_ne apart]
  refine ⟨edited, ?_⟩
  refine (survey_edited (Disk.tidy_twoFiles _) (Disk.tidy_twoFiles _) edited rfl
    Disk.resolve_holding (by decide) ?_ fun files => ?_).resolve_right ?_
  · rintro - name e ⟨⟩
    rw [Disk.twoFiles, Disk.find_holding_of_absent rfl rfl]
    exact nofun
  · rw [Survey.counts, Survey.counts, History.collect_congr edited.lookAlike.resolve]
  · rintro ⟨problem, ⟨cause, failed, -⟩ | fails, -⟩
    · cases Disk.isFolder_holding.symm.trans failed
    · exact Survey.not_fails_iff.mpr ⟨⟨none, compiled⟩, Settings.wellTyped_counting.plain, by decide,
        fun _ _ => ⟨Survey.counts_knowing _, .inl ⟨5, rfl⟩⟩⟩ problem fails

end RepoAtlas
