import RepoAtlas.Proofs.Settings
import RepoAtlas.Proofs.Survey

/-! # When a survey fails

The stages of a survey are passed one after the other, and the first that fails is told: it cannot be
told whether the path is a folder, the ignore file has no name, cannot be looked for or holds a line
that is refused, a list is among the excluded names, the path of the root is too long, commits cannot
be counted, or the bound on the most edited files is no whole number although there are files.
-/

namespace RepoAtlas

/-- The selection shows this file of the folder. -/
def Disk.Shows (d : Disk) (s : Selection) (root p : Path) : Prop :=
  ∃ top, d.find root = .ok (root.parts, top) ∧ top.IsListed ∧ s.Shows root top p

/-! ## Reasons to fail -/

/-- Why there are no ignore rules although they are asked for. -/
inductive Survey.RulesFail (d : Disk) (compile : Ignore.Compiler) (s : Settings) (root : Path) :
    SurveyProblem → Prop where
  | unknown {name : String} {problem : AccessProblem} (heeded : s.respectIgnoreFile.isYes = true)
      (named : s.ignoreFile = .text name)
      (failed : d.isFile (root.join (Path.parse name)) = .error problem) :
      RulesFail d compile s root (.ignore (.access problem))
  | refused {name text : String} {refusal : Ignore.RuleProblem}
      (heeded : s.respectIgnoreFile.isYes = true) (named : s.ignoreFile = .text name)
      (read : d.ignoreText root name = .ok (some text))
      (refused : compile (Text.lines text) = .error refusal) :
      RulesFail d compile s root (.ignore (.rule refusal))
  | unnamed (heeded : s.respectIgnoreFile.isYes = true) (unnamed : s.ignoreFile.text? = none) :
      RulesFail d compile s root (.misfit .ignoreFile)

/-- Why a survey of a folder without links fails; each reason counts only if none before it does. -/
inductive Survey.Fails (d : Disk) (machine : Machine) (s : Settings) (root : Path) :
    SurveyProblem → Prop where
  | rules {problem : SurveyProblem} (fails : RulesFail d machine.compile s root problem) :
      Fails d machine s root problem
  | excludedDirs {rules : Option (String → Bool)} {v : Value}
      (compiled : Survey.rules d machine.compile s root = .ok rules) (member : v ∈ s.excludedDirs)
      (parts : v.hasParts = true) : Fails d machine s root (.misfit .excludedDirs)
  | tooLong {rules : Option (String → Bool)}
      (compiled : Survey.rules d machine.compile s root = .ok rules)
      (plain : ∀ v ∈ s.excludedDirs, v.hasParts = false)
      (long : Disk.longestPath < root.text.utf8ByteSize) :
      Fails d machine s root (.path (.access .tooLong))
  | counting {rules : Option (String → Bool)} {trouble : History.Trouble}
      (compiled : Survey.rules d machine.compile s root = .ok rules)
      (plain : ∀ v ∈ s.excludedDirs, v.hasParts = false)
      (short : root.text.utf8ByteSize ≤ Disk.longestPath)
      (failed : Survey.counts d machine s root (d.listing root (s.selection rules)) =
        .error trouble) :
      Fails d machine s root (.counting trouble)
  | topN {rules : Option (String → Bool)} {commits : History.Counts} {p : Path}
      (compiled : Survey.rules d machine.compile s root = .ok rules)
      (plain : ∀ v ∈ s.excludedDirs, v.hasParts = false)
      (short : root.text.utf8ByteSize ≤ Disk.longestPath)
      (counted : Survey.counts d machine s root (d.listing root (s.selection rules)) = .ok commits)
      (unbound : s.topN.whole? = none) (shown : d.Shows (s.selection rules) root p) :
      Fails d machine s root (.misfit .topN)

namespace Disk

variable {d : Disk} {compile : Ignore.Compiler} {root : Path} {name : String}

theorem ignoreText_eq_error_iff {problem : AccessProblem} :
    d.ignoreText root name = .error problem ↔
      d.isFile (root.join (Path.parse name)) = .error problem := by
  rw [ignoreText]
  cases d.isFile (root.join (Path.parse name)) <;> simp [Except.map]

theorem ignoreRules_eq_error_iff {problem : IgnoreProblem} :
    d.ignoreRules compile root name = .error problem ↔
      (∃ cause, d.isFile (root.join (Path.parse name)) = .error cause ∧ problem = .access cause) ∨
        ∃ text refusal, d.ignoreText root name = .ok (some text) ∧
          compile (Text.lines text) = .error refusal ∧ problem = .rule refusal := by
  simp only [← ignoreText_eq_error_iff]
  unfold ignoreRules
  cases d.ignoreText root name with
  | error cause => simp [eq_comm]
  | ok text? =>
      cases text? with
      | none => simp
      | some text =>
          dsimp only
          cases compiled : compile (Text.lines text) <;>
            simp [Except.map, mapError_ok, mapError_error, compiled, eq_comm]

end Disk

namespace Survey

variable {d : Disk} {compile : Ignore.Compiler} {settings : Settings} {root : Path}
  {problem : SurveyProblem}

theorem rulesFail_iff_of_text {name : String} (heeded : settings.respectIgnoreFile.isYes = true)
    (named : settings.ignoreFile = .text name) :
    RulesFail d compile settings root problem ↔
      ∃ cause, d.ignoreRules compile root name = .error cause ∧ .ignore cause = problem := by
  constructor
  · intro fails
    cases fails with
    | unknown _ named' failed =>
        cases named.symm.trans named'
        exact ⟨_, Disk.ignoreRules_eq_error_iff.mpr (.inl ⟨_, failed, rfl⟩), rfl⟩
    | refused _ named' read refused =>
        cases named.symm.trans named'
        exact ⟨_, Disk.ignoreRules_eq_error_iff.mpr (.inr ⟨_, _, read, refused, rfl⟩), rfl⟩
    | unnamed _ unnamed => simp [named, Value.text?] at unnamed
  · rintro ⟨cause, failed, rfl⟩
    rcases Disk.ignoreRules_eq_error_iff.mp failed with
      ⟨problem, unknown, rfl⟩ | ⟨text, refusal, read, refused, rfl⟩
    · exact .unknown heeded named unknown
    · exact .refused heeded named read refused

theorem rules_eq_error_iff :
    rules d compile settings root = .error problem ↔
      RulesFail d compile settings root problem := by
  rw [rules]
  cases heeded : settings.respectIgnoreFile.isYes with
  | false =>
      simp only [Bool.false_eq_true, if_false, reduceCtorEq, false_iff]
      intro fails
      cases fails with
      | unknown yes | refused yes | unnamed yes =>
          exact absurd (heeded.symm.trans yes) Bool.false_ne_true
  | true =>
      cases kind : settings.ignoreFile with
      | text name => rw [rulesFail_iff_of_text heeded kind, if_pos rfl, mapError_eq_error_iff]
      | none | bool b | int n | float x | moment m | list items | table members =>
          have unnamed : settings.ignoreFile.text? = none := by rw [kind]; rfl
          simp only [if_true, Except.error.injEq]
          constructor
          · rintro rfl
            exact .unnamed heeded unnamed
          · intro fails
            cases fails with
            | unknown _ named | refused _ named => cases kind.symm.trans named
            | unnamed => rfl

theorem excludedNames_eq_error_iff {excluded : List Value} :
    excludedNames excluded = .error problem ↔
      (∃ v ∈ excluded, v.hasParts = true) ∧ problem = .misfit .excludedDirs := by
  rw [excludedNames, ← List.any_eq_true]
  cases excluded.any (·.hasParts) <;> simp [eq_comm]

theorem excludedNames_eq_ok_iff {excluded : List Value} {names : List String} :
    excludedNames excluded = .ok names ↔
      (∀ v ∈ excluded, v.hasParts = false) ∧ names = excluded.filterMap (·.text?) := by
  have plain : (∀ v ∈ excluded, v.hasParts = false) ↔ excluded.any (·.hasParts) = false := by
    simp [List.any_eq_false]
  rw [excludedNames, plain]
  cases excluded.any (·.hasParts) <;> simp [eq_comm]

theorem summary_eq_error_iff {store : Store} :
    summary settings store = .error problem ↔
      settings.topN.whole? = none ∧ store.files ≠ [] ∧ problem = .misfit .topN := by
  rw [summary]
  cases settings.topN.whole? with
  | some top => simp
  | none =>
      cases empty : store.files with
      | nil => simp
      | cons f rest => simp [eq_comm]

end Survey

theorem Disk.Roots.shows_iff {d : Disk} {root p : Path} {top : Entry} (roots : d.Roots root top)
    {s : Selection} (reader : Script.Reader) (commits : History.Counts) :
    p ∈ (d.readFiles reader commits (d.listing root s)).map (·.path) ↔ d.Shows s root p := by
  rw [roots.mem_paths, Disk.Shows, roots.find]
  constructor
  · exact fun shows => ⟨top, rfl, shows⟩
  · rintro ⟨top', found, shows⟩
    cases found
    exact shows

theorem Store.files_assembled_ne_nil {root : Path} {withFolders : Bool} {files : List ScannedFile}
    {imports : List (Path × List Path)} :
    (assembled root withFolders files imports).files ≠ [] ↔ ∃ p, p ∈ files.map (·.path) := by
  constructor
  · intro nonempty
    obtain ⟨f, member⟩ := List.exists_mem_of_ne_nil _ nonempty
    obtain ⟨file, inside, -⟩ := file_of_mem_files member
    exact ⟨file.path, List.mem_map_of_mem inside⟩
  · rintro ⟨p, member⟩
    obtain ⟨f, inside, -⟩ := exists_file_of_mem member
    exact List.ne_nil_of_mem inside

section Root

variable {d : Disk} {machine : Machine} {settings : Settings} {root : Path} {top : Entry}
  {problem : SurveyProblem} (roots : d.Roots root top)

include roots

/-- Once the files are read, only the bound on the most edited files can stop a survey, and only if
    there are files. -/
theorem Disk.Roots.graphOf_eq_error_iff {s : Selection} {commits : History.Counts} :
    Survey.graphOf settings root (d.readFiles machine.reader commits (d.listing root s)) =
        .error problem ↔
      settings.topN.whole? = none ∧ (∃ p, d.Shows s root p) ∧ problem = .misfit .topN := by
  rw [Survey.graphOf_eq_summary roots.absolute roots.within_readFiles
    fun file member => (Disk.read_of_mem member).1]
  simp only [← roots.shows_iff machine.reader commits]
  rw [← Store.files_assembled_ne_nil, ← Survey.summary_eq_error_iff, map_eq_error_iff]

/-- A survey of a folder without links fails for the reasons listed and no others, each told as it is
    met. -/
theorem Disk.Roots.graphAt_eq_error_iff :
    Survey.graphAt d machine settings root = .error problem ↔
      Survey.Fails d machine settings root problem := by
  rw [Survey.graphAt_eq_bind]
  constructor
  · -- Each stage that is passed leaves what the later reasons assume.
    intro failed
    rcases bind_eq_error_iff.mp failed with failed | ⟨rules, compiled, failed⟩
    · exact .rules (Survey.rules_eq_error_iff.mp failed)
    rcases bind_eq_error_iff.mp failed with failed | ⟨names, named, failed⟩
    · obtain ⟨⟨v, member, parts⟩, rfl⟩ := Survey.excludedNames_eq_error_iff.mp failed
      exact .excludedDirs compiled member parts
    have plain := (Survey.excludedNames_eq_ok_iff.mp named).1
    by_cases long : longestPath < root.text.utf8ByteSize
    · rw [roots.scan_of_long long] at failed
      cases failed
      exact .tooLong compiled plain long
    have short := Nat.not_lt.mp long
    rw [roots.scan_of_short short, ok_bind] at failed
    rcases bind_eq_error_iff.mp failed with failed | ⟨commits, counted, failed⟩
    · obtain ⟨trouble, uncounted, rfl⟩ := mapError_eq_error_iff.mp failed
      exact .counting compiled plain short uncounted
    · obtain ⟨unbound, ⟨p, shown⟩, rfl⟩ := roots.graphOf_eq_error_iff.mp failed
      exact .topN compiled plain short (mapError_eq_ok_iff.mp counted) unbound shown
  · have passed {names : List Value} (plain : ∀ v ∈ names, v.hasParts = false) :=
      Survey.excludedNames_of_plain plain
    intro fails
    cases fails with
    | rules fails => rw [Survey.rules_eq_error_iff.mpr fails, error_bind]
    | excludedDirs compiled member parts =>
        rw [compiled, ok_bind, Survey.excludedNames_eq_error_iff.mpr ⟨⟨_, member, parts⟩, rfl⟩,
          error_bind]
    | tooLong compiled plain long =>
        rw [compiled, ok_bind, passed plain, ok_bind, roots.scan_of_long long, error_bind]
    | counting compiled plain short failed =>
        rw [compiled, ok_bind, passed plain, ok_bind, roots.scan_of_short short, ok_bind]
        exact bind_eq_error_iff.mpr (.inl (mapError_eq_error_iff.mpr ⟨_, failed, rfl⟩))
    | topN compiled plain short counted unbound shown =>
        rw [compiled, ok_bind, passed plain, ok_bind, roots.scan_of_short short, ok_bind]
        exact bind_eq_error_iff.mpr (.inr ⟨_, mapError_eq_ok_iff.mpr counted,
          roots.graphOf_eq_error_iff.mpr ⟨unbound, ⟨_, shown⟩, rfl⟩⟩)

end Root

namespace RepoGraph

variable {d : Disk} {machine : Machine} {settings : Settings} {folder root : Path}
  {problem : SurveyProblem}

theorem survey_eq_error_iff (tidy : d.root.Tidy) (starts : d.Starts folder root) :
    survey d machine settings (some folder) = .error problem ↔
      Survey.Fails d machine settings root problem := by
  obtain ⟨top, roots⟩ := starts.roots tidy
  rw [survey_of_starts starts, roots.graphAt_eq_error_iff]

theorem survey_returns_iff (tidy : d.root.Tidy) (starts : d.Starts folder root) :
    (∃ g, survey d machine settings (some folder) = .ok g) ↔
      ∀ problem, ¬Survey.Fails d machine settings root problem := by
  simp only [exists_ok_iff, ne_eq, survey_eq_error_iff tidy starts]

theorem survey_of_not_isFolder (absent : d.isFolder folder = .ok false) :
    survey d machine settings (some folder) = .ok empty := by
  simp only [survey, absent]

/-- What is a folder has a path without links. -/
theorem exists_starts (isFolder : d.isFolder folder = .ok true) : ∃ root, d.Starts folder root := by
  obtain ⟨plain, -, _, _, _, found⟩ := Disk.isFolder_eq_true_iff.mp isFolder
  obtain ⟨root, resolved, -⟩ := Disk.resolve_of_find plain found
  exact ⟨root, isFolder, resolved⟩

/-! ## Settings of the kinds that are meant -/

/-- What stops a survey whose settings are of the kinds that are meant. -/
inductive Stops (d : Disk) (machine : Machine) (s : Settings) (folder : Path) :
    SurveyProblem → Prop where
  /-- It cannot be told whether there is a folder. -/
  | folder {problem : AccessProblem} (failed : d.isFolder folder = .error problem) :
      Stops d machine s folder (.path (.access problem))
  /-- It cannot be told whether there is an ignore file. -/
  | ignoreFile {root : Path} {name : String} {problem : AccessProblem}
      (starts : d.Starts folder root) (heeded : s.respectIgnoreFile.isYes = true)
      (named : s.ignoreFile = .text name)
      (failed : d.isFile (root.join (Path.parse name)) = .error problem) :
      Stops d machine s folder (.ignore (.access problem))
  /-- The ignore file can be read, and its lines are refused. -/
  | ignoreLine {root : Path} {name text : String} {refusal : Ignore.RuleProblem}
      (starts : d.Starts folder root) (heeded : s.respectIgnoreFile.isYes = true)
      (named : s.ignoreFile = .text name) (read : d.ignoreText root name = .ok (some text))
      (refused : machine.compile (Text.lines text) = .error refusal) :
      Stops d machine s folder (.ignore (.rule refusal))
  /-- The path without links is too long to be looked up. -/
  | root {root : Path} {rules : Option (String → Bool)} (starts : d.Starts folder root)
      (compiled : Survey.rules d machine.compile s root = .ok rules)
      (long : Disk.longestPath < root.text.utf8ByteSize) :
      Stops d machine s folder (.path (.access .tooLong))
  /-- The commits of the listed files cannot be counted. -/
  | counting {root : Path} {rules : Option (String → Bool)} {trouble : History.Trouble}
      (starts : d.Starts folder root)
      (compiled : Survey.rules d machine.compile s root = .ok rules)
      (short : root.text.utf8ByteSize ≤ Disk.longestPath)
      (failed : Survey.counts d machine s root (d.listing root (s.selection rules)) =
        .error trouble) :
      Stops d machine s folder (.counting trouble)

theorem Stops.fails {s : Settings} (stops : Stops d machine s folder problem)
    (starts : d.Starts folder root) (typed : s.WellTyped) :
    Survey.Fails d machine s root problem := by
  have here : ∀ other, d.Starts folder other → other = root := fun other starts' =>
    Except.ok.inj (starts'.resolved.symm.trans starts.resolved)
  cases stops with
  | folder failed => cases starts.isFolder.symm.trans failed
  | ignoreFile starts' heeded named failed =>
      obtain rfl := here _ starts'
      exact .rules (.unknown heeded named failed)
  | ignoreLine starts' heeded named read refused =>
      obtain rfl := here _ starts'
      exact .rules (.refused heeded named read refused)
  | root starts' compiled long =>
      obtain rfl := here _ starts'
      exact .tooLong compiled typed.plain long
  | counting starts' compiled short failed =>
      obtain rfl := here _ starts'
      exact .counting compiled typed.plain short failed

theorem stops_of_fails {s : Settings} (fails : Survey.Fails d machine s root problem)
    (starts : d.Starts folder root) (typed : s.WellTyped) (named : ∃ name, s.ignoreFile = .text name) :
    Stops d machine s folder problem := by
  cases fails with
  | rules fails =>
      cases fails with
      | unknown heeded named failed => exact .ignoreFile starts heeded named failed
      | refused heeded named read refused => exact .ignoreLine starts heeded named read refused
      | unnamed _ unnamed =>
          obtain ⟨name, text⟩ := named
          simp [text, Value.text?] at unnamed
  | excludedDirs _ member parts =>
      exact absurd ((typed.plain _ member).symm.trans parts) Bool.false_ne_true
  | tooLong compiled _ long => exact .root starts compiled long
  | counting compiled _ short failed => exact .counting starts compiled short failed
  | topN _ _ _ _ unbound =>
      obtain ⟨bound, whole⟩ := typed.topN
      simp [whole, Amount.whole?] at unbound

/-- With settings of the kinds that are meant, a survey returns a graph unless something of the list
    stops it, and then it is told what; this holds for any folder, any git and any parser. -/
theorem survey_returns_unless_refused (tidy : d.root.Tidy) (typed : settings.WellTyped)
    (named : ∃ name, settings.ignoreFile = .text name) :
    ((∃ g, survey d machine settings (some folder) = .ok g) ↔
        ∀ problem, ¬Stops d machine settings folder problem) ∧
      ∀ problem, survey d machine settings (some folder) = .error problem ↔
        Stops d machine settings folder problem := by
  have stops : ∀ problem, survey d machine settings (some folder) = .error problem ↔
      Stops d machine settings folder problem := by
    intro problem
    cases isFolder : d.isFolder folder with
    | error cause =>
        have failed : survey d machine settings (some folder) = .error (.path (.access cause)) := by
          simp only [survey, isFolder]
        rw [failed]
        constructor
        · rintro ⟨⟩
          exact .folder isFolder
        · intro stops
          cases stops with
          | folder failed' =>
              cases isFolder.symm.trans failed'
              rfl
          | ignoreFile starts | ignoreLine starts | root starts | counting starts =>
              cases isFolder.symm.trans starts.isFolder
    | ok shown =>
        cases shown with
        | false =>
            rw [survey_of_not_isFolder isFolder]
            simp only [reduceCtorEq, false_iff]
            intro stops
            cases stops with
            | folder failed => cases isFolder.symm.trans failed
            | ignoreFile starts | ignoreLine starts | root starts | counting starts =>
                cases isFolder.symm.trans starts.isFolder
        | true =>
            obtain ⟨root, starts⟩ := exists_starts isFolder
            rw [survey_eq_error_iff tidy starts]
            exact ⟨fun fails => stops_of_fails fails starts typed named,
              fun stops => stops.fails starts typed⟩
  refine ⟨?_, stops⟩
  simp only [exists_ok_iff, ne_eq, stops]

theorem survey_returns_unless_refused_mixed :
    Disk.mixed.root.Tidy ∧ Settings.plain.WellTyped ∧
      Settings.plain.ignoreFile = .text ".gitignore" ∧
      (∀ problem, ¬Stops .mixed .plain .plain (Path.parse "/r") problem) ∧
      ∃ g, survey .mixed .plain .plain (some (Path.parse "/r")) = .ok g := by
  have starts : Disk.mixed.Starts (Path.parse "/r") (Path.parse "/r") := Disk.starts_holding
  obtain ⟨top, roots⟩ := starts.roots Disk.tidy_mixed
  obtain ⟨g, surveyed, -⟩ := (@Disk.Roots.comes _ .plain _ _ _ _ roots Settings.wellTyped_plain
    Disk.rules_mixed).exists_graph (by decide) rfl
  rw [← survey_of_starts starts] at surveyed
  exact ⟨Disk.tidy_mixed, Settings.wellTyped_plain, rfl,
    (survey_returns_unless_refused Disk.tidy_mixed Settings.wellTyped_plain
      ⟨".gitignore", rfl⟩).1.mp ⟨g, surveyed⟩, g, surveyed⟩

end RepoGraph

/-- The table that `Settings.plain` is made from. -/
def Settings.plainTable : Table :=
  [("extensions", .list [.text ".ts"]), ("excluded_dirs", .list [.text "dist"]),
    ("churn_mode", .text "off"), ("explain_model", .none)]

/-- A folder with a file and an ignore file that holds a lone exclamation mark. -/
def Disk.negating : Disk :=
  .holding [(".gitignore", .file "!\n".toUTF8.toList true), ("a.ts", .file [] true)] .full

/-- The exclamation mark negates nothing, and no graph of the file beside it is returned. -/
theorem RepoGraph.survey_negating_fails :
    Disk.negating.root.Tidy ∧ Settings.ofTable Settings.plainTable = .ok .plain ∧
      Settings.plain.WellTyped ∧ Settings.plain.ignoreFile = .text ".gitignore" ∧
      survey .negating .plain .plain (some (Path.parse "/r")) =
        .error (.ignore (.rule (.invalid "!"))) := by
  have tidy : Disk.negating.root.Tidy := Disk.tidy_holding
    (.folder _ _ (by decide) (by decide)
      (List.forall_mem_cons.mpr ⟨.file _ _, List.forall_mem_singleton.mpr (.file _ _)⟩))
  have read : Disk.negating.ignoreText (Path.parse "/r") ".gitignore" =
      .ok (some (Text.ofBytes "!\n".toUTF8.toList)) := Disk.ignoreText_holding rfl rfl
  have lines : Ignore.Rules.ofLines (Text.lines (Text.ofBytes "!\n".toUTF8.toList)) =
      .error (.invalid "!") := by decide +kernel
  refine ⟨tidy, rfl, Settings.wellTyped_plain, rfl, ?_⟩
  rw [survey_eq_error_iff tidy Disk.starts_holding]
  exact .rules (.refused rfl rfl read (congrArg (Except.map Ignore.Rules.ignores) lines))

/-! ## Settings as they are given -/

theorem Survey.rules_returns_iff {d : Disk} {compile : Ignore.Compiler} {settings : Settings}
    {root : Path} : (∃ known, rules d compile settings root = .ok known) ↔
      (settings.respectIgnoreFile.isYes = true → ∃ name, settings.ignoreFile = .text name ∧
        ∃ known, d.ignoreRules compile root name = .ok known) := by
  rw [rules]
  cases settings.respectIgnoreFile.isYes with
  | false => simp
  | true => cases settings.ignoreFile <;> simp [mapError_eq_ok_iff]

theorem Survey.not_fails_iff {d : Disk} {machine : Machine} {settings : Settings} {root : Path} :
    (∀ problem, ¬Fails d machine settings root problem) ↔
      (∃ known, rules d machine.compile settings root = .ok known) ∧
      (∀ v ∈ settings.excludedDirs, v.hasParts = false) ∧
      root.text.utf8ByteSize ≤ Disk.longestPath ∧
      ∀ known, rules d machine.compile settings root = .ok known →
        (∃ commits, counts d machine settings root
          (d.listing root (settings.selection known)) = .ok commits) ∧
        ((∃ n, settings.topN.whole? = some n) ∨ ∀ p, ¬d.Shows (settings.selection known) root p) := by
  constructor
  · intro works
    obtain ⟨known, compiled⟩ : ∃ known, rules d machine.compile settings root = .ok known :=
      exists_ok_iff.mpr fun problem failed =>
        works problem (.rules (rules_eq_error_iff.mp failed))
    have plain : ∀ v ∈ settings.excludedDirs, v.hasParts = false := fun v member =>
      Bool.eq_false_iff.mpr fun parts => works _ (.excludedDirs compiled member parts)
    have short : root.text.utf8ByteSize ≤ Disk.longestPath :=
      Nat.not_lt.mp fun long => works _ (.tooLong compiled plain long)
    refine ⟨⟨known, compiled⟩, plain, short, ?_⟩
    intro others compiled'
    cases compiled.symm.trans compiled'
    obtain ⟨commits, counted⟩ : ∃ commits, counts d machine settings root
        (d.listing root (settings.selection known)) = .ok commits :=
      exists_ok_iff.mpr fun trouble failed => works _ (.counting compiled plain short failed)
    refine ⟨⟨commits, counted⟩, ?_⟩
    cases whole : settings.topN.whole? with
    | some n => exact .inl ⟨n, rfl⟩
    | none => exact .inr fun p shown => works _ (.topN compiled plain short counted whole shown)
  · rintro ⟨⟨known, compiled⟩, plain, short, later⟩ problem fails
    cases fails with
    | rules fails => cases compiled.symm.trans (rules_eq_error_iff.mpr fails)
    | excludedDirs _ member parts =>
        exact absurd ((plain _ member).symm.trans parts) Bool.false_ne_true
    | tooLong _ _ long => exact absurd long (Nat.not_lt.mpr short)
    | counting compiled' _ _ failed =>
        obtain ⟨⟨commits, counted⟩, -⟩ := later _ compiled'
        cases counted.symm.trans failed
    | topN compiled' _ _ _ unbound shown =>
        rcases (later _ compiled').2 with ⟨n, bound⟩ | empty
        · cases unbound.symm.trans bound
        · exact empty _ shown

/-- A survey under the settings that a table makes returns if they name an ignore file with sound
    rules where one is asked for, exclude no lists, and bound the most edited files by a whole number
    unless there are none, as long as the path of the root can be looked up and commits can be
    counted; and it returns under no other settings. -/
theorem RepoGraph.survey_of_ofTable {d : Disk} {machine : Machine} {given : Table}
    {settings : Settings} {folder root : Path} (tidy : d.root.Tidy)
    (made : Settings.ofTable given = .ok settings) (starts : d.Starts folder root) :
    (∃ g, survey d machine settings (some folder) = .ok g) ↔
      ((Settings.givenOr given .respectIgnoreFile).isYes = true →
        ∃ name, Settings.givenOr given .ignoreFile = .text name ∧
          ∃ rules, d.ignoreRules machine.compile root name = .ok rules) ∧
      (∀ parts, (Settings.givenOr given .excludedDirs).parts? = some parts →
        ∀ v ∈ parts, v.hasParts = false) ∧
      root.text.utf8ByteSize ≤ Disk.longestPath ∧
      ∀ rules, Survey.rules d machine.compile settings root = .ok rules →
        (∃ commits, Survey.counts d machine settings root
          (d.listing root (settings.selection rules)) = .ok commits) ∧
        ((∃ b, Settings.givenOr given .topN = .bool b) ∨
          (∃ n, Settings.givenOr given .topN = .int n) ∨
          ∀ p, ¬d.Shows (settings.selection rules) root p) := by
  have fits := Settings.made_of_ofTable made
  have excluded : (Settings.givenOr given .excludedDirs).parts? = some settings.excludedDirs :=
    Settings.itemsOf_eq_ok_iff.mp fits.excludedDirs
  have bound := Settings.whole_iff (Settings.amountOf_eq_ok_iff.mp fits.topN).1
  rw [survey_returns_iff tidy starts, Survey.not_fails_iff, Survey.rules_returns_iff, excluded,
    ← fits.ignoreFile, ← fits.respectIgnoreFile]
  simp only [Option.some.injEq, forall_eq', ← or_assoc, ← bound]

/-- A number among the excluded names, a text for a flag, and a flag for a bound. -/
def Settings.oddTable : Table :=
  [("extensions", .list [.text ".ts"]), ("excluded_dirs", .list [.int 5, .text "dist"]),
    ("respect_ignore_file", .text "yes"), ("churn_mode", .text "off"), ("top_n", .bool true),
    ("explain_model", .none)]

def Settings.odd : Settings :=
  { plain with
    excludedDirs := [.int 5, .text "dist"], respectIgnoreFile := .text "yes", topN := .flag true }

theorem RepoGraph.survey_of_ofTable_odd :
    Settings.ofTable Settings.oddTable = .ok .odd ∧
      ∃ g, survey .mixed .plain .odd (some (Path.parse "/r")) = .ok g := by
  have made : Settings.ofTable Settings.oddTable = .ok .odd := rfl
  have sound : ∃ rules, Disk.mixed.ignoreRules Machine.plain.compile (Path.parse "/r") ".gitignore" =
      .ok rules :=
    ⟨_, mapError_eq_ok_iff.mp ((Disk.rules_plain ..).symm.trans Disk.rules_mixed)⟩
  refine ⟨made, (survey_of_ofTable Disk.tidy_mixed made Disk.starts_holding).mpr ?_⟩
  refine ⟨fun _ => ⟨".gitignore", rfl, sound⟩, ?_, by decide, fun rules _ => ⟨⟨[], rfl⟩, ?_⟩⟩
  · rintro parts ⟨⟩
    simp [Value.hasParts]
  · exact .inl ⟨true, rfl⟩

/-- A list among the excluded names. -/
def Settings.nestedTable : Table :=
  [("churn_mode", .text "off"), ("excluded_dirs", .list [.list [.text "dist"]])]

def Settings.nested : Settings :=
  { plain with
    extensions := Language.sourceExtensions, excludedDirs := [.list [.text "dist"]]
    explainModel := .text "gemini-2.5-flash" }

def Disk.single : Disk := .holding [("a.ts", .file [] true)] .full

/-- The list is accepted and then no name to be found in a set. -/
theorem RepoGraph.survey_nested_fails :
    Disk.single.root.Tidy ∧ Disk.single.Starts (Path.parse "/r") (Path.parse "/r") ∧
      Settings.ofTable Settings.nestedTable = .ok .nested ∧
      Survey.rules .single Machine.plain.compile .nested (Path.parse "/r") = .ok none ∧
      survey .single .plain .nested (some (Path.parse "/r")) = .error (.misfit .excludedDirs) := by
  have tidy : Disk.single.root.Tidy := Disk.tidy_holding
    (.folder _ _ (by decide) (by decide) (List.forall_mem_singleton.mpr (.file _ _)))
  have starts : Disk.single.Starts (Path.parse "/r") (Path.parse "/r") := Disk.starts_holding
  have compiled : Survey.rules .single Machine.plain.compile .nested (Path.parse "/r") = .ok none :=
    Disk.rules_holding_of_absent rfl _ rfl
  refine ⟨tidy, starts, rfl, compiled, ?_⟩
  rw [survey_eq_error_iff tidy starts]
  exact .excludedDirs compiled (List.mem_singleton_self _) rfl

end RepoAtlas
