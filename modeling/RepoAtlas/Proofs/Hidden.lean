import RepoAtlas.Proofs.Comparison
import RepoAtlas.Proofs.Outline

/-! # What a survey does not see

A survey that counts no commits depends on the ignore file and on the files that it shows, and on
nothing else below its root. `Selection.Hides` names the places that do not count, and trees that
differ only there show the same files with the same texts.
-/

namespace RepoAtlas

/-- Two disks show the same files of a folder with the same texts. -/
structure Disk.ShowAlike (d d' : Disk) (s : Selection) (root : Path) : Prop where
  paths : ∀ p, d.Shows s root p ↔ d'.Shows s root p
  texts : ∀ p, d.Shows s root p → d.text p = d'.text p

namespace Selection

variable {s : Selection} {top top' : Entry} {parts : List String}

/-- A folder that is not entered: it cannot be listed or searched, or it lies below the top and its name
    or its place is one to leave out. -/
inductive Closes (s : Selection) (top : Entry) (parts : List String) : Prop where
  | unreadable {entries : Entries} {rights : Rights}
      (found : top.at? parts = some (.folder entries rights))
      (shut : rights.list = false ∨ rights.search = false)
  | excluded {entries : Entries} {rights : Rights}
      (found : top.at? parts = some (.folder entries rights)) (below : parts ≠ [])
      (named : parts.getLast?.getD "" ∈ s.excluded)
  | ignored {entries : Entries} {rights : Rights}
      (found : top.at? parts = some (.folder entries rights)) (below : parts ≠ [])
      (dropped : s.ignored (Path.joined parts ++ "/") = true)

/-- A place below the top that does not count: nothing is there, or a link or a pipe, or a file that
    cannot be read, has another extension or is ignored; or it lies at or below a folder that is not
    entered. -/
inductive Hides (s : Selection) (top : Entry) (parts : List String) : Prop where
  | absent (found : top.at? parts = none)
  | link {target : String} (found : top.at? parts = some (.link target))
  | other (found : top.at? parts = some .other)
  | unreadable {bytes : List UInt8} (found : top.at? parts = some (.file bytes false))
  | unlisted {bytes : List UInt8} {readable : Bool}
      (found : top.at? parts = some (.file bytes readable))
      (refused : s.accepts (parts.getLast?.getD "") = false)
  | ignored {bytes : List UInt8} {readable : Bool}
      (found : top.at? parts = some (.file bytes readable))
      (dropped : s.ignored (Path.joined parts) = true)
  | inside {start : List String} (before : start <+: parts) (closes : s.Closes top start)

/-- Two trees are alike but for places that count in neither. -/
def DifferHidden (s : Selection) (top top' : Entry) : Prop :=
  ∀ parts, (top.at? parts).map Entry.face = (top'.at? parts).map Entry.face ∨
    s.Hides top parts ∧ s.Hides top' parts

section Shown

variable (lists : s.Lists top parts) (whole : top.IsListed) {bytes : List UInt8}
  (reached : top.reach? parts = some (.file bytes true))

include lists whole reached

/-- All folders on the way to a listed file that can be reached can be listed and searched. -/
theorem Lists.open_above {start : List String} (before : start <+: parts) (strict : start ≠ parts) :
    ∃ entries rights, top.at? start = some (.folder entries rights) ∧ rights.list = true ∧
      rights.search = true := by
  obtain ⟨rest, rfl⟩ := before
  obtain ⟨name, rest, rfl⟩ := List.exists_cons_of_ne_nil fun empty : rest = [] =>
    strict (by rw [empty, List.append_nil])
  obtain ⟨entries, rights, _, here, open', -⟩ := Entry.folder_of_reach? reached
  refine ⟨entries, rights, Entry.at?_of_reach? here, ?_, open'⟩
  by_cases below : start = []
  · subst below
    obtain ⟨_, _, rfl, listed⟩ := whole
    cases here
    exact listed
  · obtain ⟨_, _, found, listed⟩ :=
      (lists.entered start below (List.prefix_append _ _) strict).folder
    cases here.symm.trans found
    exact listed

theorem Lists.not_closes {start : List String} (before : start <+: parts) : ¬s.Closes top start := by
  intro closes
  by_cases strict : start = parts
  · subst strict
    have regular := Entry.at?_of_reach? reached
    cases closes with
    | unreadable found | excluded found | ignored found => cases regular.symm.trans found
  · cases closes with
    | unreadable found shut =>
        obtain ⟨_, _, here, listed, open'⟩ := lists.open_above whole reached before strict
        cases here.symm.trans found
        simp [listed, open'] at shut
    | excluded _ below named =>
        exact (lists.entered start below before strict).included named
    | ignored _ below dropped =>
        exact absurd ((lists.entered start below before strict).kept.symm.trans dropped)
          Bool.false_ne_true

/-- Neither a listed file that can be read nor anything on the way to it is hidden. -/
theorem Lists.not_hides {start : List String} (before : start <+: parts) : ¬s.Hides top start := by
  intro hides
  have inside : ∀ {other}, other <+: start → ¬s.Closes top other :=
    fun earlier => lists.not_closes whole reached (earlier.trans before)
  by_cases strict : start = parts
  · subst strict
    have regular := Entry.at?_of_reach? reached
    cases hides with
    | absent found | link found | other found | unreadable found => cases regular.symm.trans found
    | unlisted _ refused => exact absurd (lists.accepted.symm.trans refused) Bool.noConfusion
    | ignored _ dropped => exact absurd (lists.kept.symm.trans dropped) Bool.false_ne_true
    | inside earlier closes => exact inside earlier closes
  · obtain ⟨entries, rights, here, -⟩ := lists.open_above whole reached before strict
    cases hides with
    | absent found | link found | other found | unreadable found | unlisted found | ignored found =>
        cases here.symm.trans found
    | inside earlier closes => exact inside earlier closes

end Shown

end Selection

theorem Entry.file_of_face {e : Option Entry} {bytes : List UInt8} {readable : Bool}
    (same : (some (Entry.file bytes readable)).map face = e.map face) :
    e = some (.file bytes readable) := by
  obtain ⟨others, rfl⟩ := (LookAlike.of_face same).file_of
  cases same
  rfl

namespace Selection

variable {s : Selection} {top top' : Entry}

/-- A shown file is in the other tree, too, with the same bytes and in folders that are entered. -/
theorem DifferHidden.shows (differ : s.DifferHidden top top') {root p : Path}
    (whole : top.IsListed) (shows : s.Shows root top p) :
    top'.IsListed ∧ s.Shows root top' p ∧
      ∃ bytes, top.reach? (root.beyond p) = some (.file bytes true) ∧
        top'.reach? (root.beyond p) = some (.file bytes true) := by
  obtain ⟨within, lists, bytes, reached⟩ := shows
  have same : ∀ start, start <+: root.beyond p →
      (top.at? start).map Entry.face = (top'.at? start).map Entry.face := fun start before =>
    (differ start).resolve_right fun hidden => lists.not_hides whole reached before hidden.1
  have alike : ∀ start, start <+: root.beyond p →
      Entry.LookAlike (top.at? start) (top'.at? start) :=
    fun start before => .of_face (same start before)
  have whole' : top'.IsListed := by
    obtain ⟨entries, rights, rfl, listed⟩ := whole
    obtain ⟨others, found⟩ := (alike [] List.nil_prefix).folder_of
    exact ⟨others, rights, Option.some.inj found, listed⟩
  have regular' : top'.at? (root.beyond p) = some (.file bytes true) :=
    Entry.file_of_face (Entry.at?_of_reach? reached ▸ same _ List.prefix_rfl)
  have reached' : top'.reach? (root.beyond p) = some (.file bytes true) := by
    obtain ⟨others, found⟩ := (reached ▸ Entry.LookAlike.reach? alike).file_of
    rw [found, ← Entry.at?_of_reach? found, regular']
  exact ⟨whole', ⟨within, lists.congr alike, bytes, reached'⟩, bytes, reached, reached'⟩

/-- What is below a hidden place is hidden. -/
theorem Hides.below {parts : List String} (hides : s.Hides top parts) (more : List String) :
    s.Hides top (parts ++ more) := by
  have leaf : ∀ {e : Entry}, top.at? parts = some e → (∀ entries rights, e ≠ .folder entries rights) →
      more ≠ [] → s.Hides top (parts ++ more) := by
    intro e found leaf nonempty
    obtain ⟨name, rest, rfl⟩ := List.exists_cons_of_ne_nil nonempty
    refine .absent ?_
    by_contra present
    obtain ⟨inner, found'⟩ := Option.ne_none_iff_exists'.mp present
    obtain ⟨entries, rights, _, here, -, -⟩ := Entry.folder_of_at? found'
    exact leaf entries rights (Option.some.inj (found.symm.trans here))
  by_cases nonempty : more = []
  · rw [nonempty, List.append_nil]
    exact hides
  · cases hides with
    | absent found => exact .absent (by rw [Entry.at?_append, found]; rfl)
    | link found | other found | unreadable found | unlisted found | ignored found =>
        exact leaf found (fun _ _ => Entry.noConfusion) nonempty
    | inside before closes => exact .inside (before.trans (List.prefix_append _ _)) closes

/-- Two folders differ at hidden places if each entry by which they differ is hidden. -/
theorem differHidden_of_entries {entries entries' : Entries} {rights : Rights}
    (each : ∀ name, entries.lookup name = entries'.lookup name ∨
      s.Hides (.folder entries rights) [name] ∧ s.Hides (.folder entries' rights) [name]) :
    s.DifferHidden (.folder entries rights) (.folder entries' rights) := by
  intro parts
  cases parts with
  | nil => exact .inl rfl
  | cons name rest =>
      rcases each name with same | ⟨hides, hides'⟩
      · rw [Entry.at?_cons, Entry.at?_cons]
        exact .inl (congrArg (fun e => (e.bind (·.at? rest)).map Entry.face) same)
      · exact .inr ⟨hides.below rest, hides'.below rest⟩

theorem DifferHidden.symm (differ : s.DifferHidden top top') : s.DifferHidden top' top :=
  fun parts => (differ parts).imp Eq.symm And.symm

end Selection

namespace Disk

variable {d d' : Disk} {s : Selection} {root : Path} {top top' : Entry}

theorem Roots.shows_of_differ (roots : d.Roots root top) (roots' : d'.Roots root top')
    (differ : s.DifferHidden top top') {p : Path} (shown : d.Shows s root p) :
    d'.Shows s root p ∧ d.text p = d'.text p := by
  obtain ⟨_, found, whole, shows⟩ := shown
  cases roots.find.symm.trans found
  obtain ⟨whole', shows', bytes, reached, reached'⟩ := differ.shows whole shows
  refine ⟨⟨top', roots'.find, whole', shows'⟩, ?_⟩
  rw [roots.text_of_reach shows.within reached, roots'.text_of_reach shows.within reached']

/-- Trees that differ only where it does not count show the same files with the same texts. -/
theorem Roots.showAlike (roots : d.Roots root top) (roots' : d'.Roots root top')
    (differ : s.DifferHidden top top') : d.ShowAlike d' s root where
  paths _ := ⟨fun shown => (roots.shows_of_differ roots' differ shown).1,
    fun shown => (roots'.shows_of_differ roots differ.symm shown).1⟩
  texts _ shown := (roots.shows_of_differ roots' differ shown).2

theorem ignoreRules_congr {compile : Ignore.Compiler} {name : String}
    (same : d.ignoreText root name = d'.ignoreText root name) :
    d.ignoreRules compile root name = d'.ignoreRules compile root name := by
  unfold ignoreRules
  rw [same]

end Disk

namespace Survey

variable {d d' : Disk} {settings : Settings} {root : Path}

theorem rules_congr (compile : Ignore.Compiler)
    (ignore : settings.respectIgnoreFile.isYes = true → ∀ name, settings.ignoreFile = .text name →
      d.ignoreText root name = d'.ignoreText root name) :
    rules d compile settings root = rules d' compile settings root := by
  rw [rules, rules]
  cases heeded : settings.respectIgnoreFile.isYes with
  | false => rw [if_neg Bool.false_ne_true, if_neg Bool.false_ne_true]
  | true =>
      cases named : settings.ignoreFile with
      | text name => simp only [Disk.ignoreRules_congr (ignore heeded name named)]
      | none | bool | int | float | moment | list | table => rfl

/-- Files that are shown alike are read alike, however they are counted. -/
theorem scanned_congr {reader : Script.Reader} {s : Selection} {commits : History.Counts}
    {top top' : Entry} (roots : d.Roots root top) (roots' : d'.Roots root top')
    (alike : d.ShowAlike d' s root) :
    scanned d reader root s commits = scanned d' reader root s commits := by
  rw [scanned, scanned, Disk.readable_listing_congr roots roots' alike.paths]
  refine List.map_congr_left fun p shown => ?_
  rw [roots'.mem_readable, ← alike.paths] at shown
  exact Disk.fileOf_congr (alike.texts p shown) rfl

end Survey

/-- Two disks whose trees below a folder differ only where it does not count. -/
def Disk.DifferHidden (d d' : Disk) (s : Selection) (root : Path) : Prop :=
  ∃ top top', d.at? root.parts = some top ∧ d'.at? root.parts = some top' ∧ s.DifferHidden top top'

/-! ## A folder veiled -/

/-- The mixed folder with other hidden entries: a link more, another file in an ignored folder that
    cannot be listed either, and less of what was hidden. -/
def Disk.veiled : Disk :=
  .holding
    [(".gitignore", .file "lib/".toUTF8.toList true),
      ("a.ts", .file "import \"./b\"".toUTF8.toList true), ("b.ts", .file [] true),
      ("dist", .folder [] .full), ("l.ts", .link "a.ts"),
      ("lib", .folder [("c.ts", .file [] true)] .unlisted)] .full

theorem Disk.tidy_veiled : veiled.root.Tidy := by
  refine tidy_holding (.folder _ _ (by decide) (by decide) ?_)
  simp only [List.forall_mem_cons]
  refine ⟨.file _ _, .file _ _, .file _ _, ?_, .link _, ?_, by simp⟩
  · exact .folder _ _ (by decide) (by decide) (by simp)
  · exact .folder _ _ (by decide) (by decide) (List.forall_mem_singleton.mpr (.file _ _))

theorem Disk.differHidden_holding {s : Selection} {entries entries' : Entries} {rights : Rights}
    (each : ∀ name, entries.lookup name = entries'.lookup name ∨
      s.Hides (.folder entries rights) [name] ∧ s.Hides (.folder entries' rights) [name]) :
    (holding entries rights).DifferHidden (holding entries' rights) s (Path.parse "/r") :=
  ⟨_, _, rfl, rfl, Selection.differHidden_of_entries each⟩

theorem Disk.differHidden_veiled :
    mixed.DifferHidden veiled (Settings.plain.selection (some Ignore.withoutLib.ignores))
      (Path.parse "/r") := by
  refine differHidden_holding fun name => ?_
  have excluded : "dist" ∈ (Settings.plain.selection (some Ignore.withoutLib.ignores)).excluded := by
    decide
  have ignored : (Settings.plain.selection (some Ignore.withoutLib.ignores)).ignored
      (Path.joined ["lib"] ++ "/") = true := by decide +kernel
  by_cases dist : name = "dist"
  · subst dist
    exact .inr ⟨.inside List.prefix_rfl (.excluded rfl (by simp) excluded),
      .inside List.prefix_rfl (.excluded rfl (by simp) excluded)⟩
  by_cases lib : name = "lib"
  · subst lib
    exact .inr ⟨.inside List.prefix_rfl (.ignored rfl (by simp) ignored),
      .inside List.prefix_rfl (.unreadable rfl (.inl rfl))⟩
  by_cases locked : name = "locked.ts"
  · subst locked
    exact .inr ⟨.unreadable rfl, .absent rfl⟩
  by_cases shut : name = "shut"
  · subst shut
    exact .inr ⟨.inside List.prefix_rfl (.unreadable rfl (.inl rfl)), .absent rfl⟩
  by_cases told : name = "told"
  · subst told
    exact .inr ⟨.inside List.prefix_rfl (.unreadable rfl (.inr rfl)), .absent rfl⟩
  by_cases link : name = "l.ts"
  · subst link
    exact .inr ⟨.absent rfl, .link rfl⟩
  · left
    simp only [List.lookup_cons, beq_false_of_ne dist, beq_false_of_ne lib, beq_false_of_ne locked,
      beq_false_of_ne shut, beq_false_of_ne told, beq_false_of_ne link, List.lookup_nil]

/-- What is hidden does not matter: without commits, surveys of two folders at one place with the
    same ignore file return the same graph if the same files with the same texts are shown, for
    example because the trees differ only at hidden places. Where one fails the other does, and for
    the same reason. -/
theorem RepoGraph.survey_hides {d d' : Disk} {machine machine' : Machine} {settings : Settings}
    {folder root : Path} (tidy : d.root.Tidy) (tidy' : d'.root.Tidy) (starts : d.Starts folder root)
    (starts' : d'.Starts folder root) (tools : machine.toTools = machine'.toTools)
    (off : settings.churnMode = .off)
    (ignore : settings.respectIgnoreFile.isYes = true → ∀ name, settings.ignoreFile = .text name →
      d.ignoreText root name = d'.ignoreText root name)
    (alike : ∀ rules, Survey.rules d machine.compile settings root = .ok rules →
      d.ShowAlike d' (settings.selection rules) root ∨
        d.DifferHidden d' (settings.selection rules) root) :
    (∃ g, survey d machine settings (some folder) = .ok g ∧
        survey d' machine' settings (some folder) = .ok g) ∨
      ∃ problem, Survey.Fails d machine settings root problem ∧
        survey d machine settings (some folder) = .error problem ∧
        survey d' machine' settings (some folder) = .error problem := by
  obtain ⟨top, roots⟩ := starts.roots tidy
  obtain ⟨top', roots'⟩ := starts'.roots tidy'
  have same : Survey.graphAt d machine settings root = Survey.graphAt d' machine' settings root := by
    have compiled := Survey.rules_congr machine.compile ignore
    by_cases long : Disk.longestPath < root.text.utf8ByteSize
    · rw [roots.graphAt_of_long long, roots'.graphAt_of_long long, ← tools, compiled]
    · have short := Nat.not_lt.mp long
      rw [roots.graphAt_eq_bind short, roots'.graphAt_eq_bind short, ← tools, ← compiled]
      cases outcome : Survey.rules d machine.compile settings root with
      | error problem => rw [error_bind, error_bind]
      | ok known =>
          have shown : d.ShowAlike d' (settings.selection known) root := by
            rcases alike known outcome with shown | ⟨_, _, found, found', differ⟩
            · exact shown
            · cases roots.settled.found.symm.trans found
              cases roots'.settled.found.symm.trans found'
              exact roots.showAlike roots' differ
          simp only [ok_bind, Survey.counts_of_off off, Survey.scanned_congr roots roots' shown]
  rw [survey_of_starts starts, survey_of_starts starts', ← same]
  cases outcome : Survey.graphAt d machine settings root with
  | ok g => exact .inl ⟨g, rfl, rfl⟩
  | error problem => exact .inr ⟨problem, roots.graphAt_eq_error_iff.mp outcome, rfl, rfl⟩

/-- The two folders have one graph, although hardly a hidden entry is the same. -/
theorem RepoGraph.survey_hides_veiled :
    Disk.mixed.root.Tidy ∧ Disk.veiled.root.Tidy ∧
      Disk.mixed.DifferHidden .veiled (Settings.plain.selection (some Ignore.withoutLib.ignores))
        (Path.parse "/r") ∧
      ∃ g, survey .mixed .plain .plain (some (Path.parse "/r")) = .ok g ∧
        survey .veiled .plain .plain (some (Path.parse "/r")) = .ok g := by
  refine ⟨Disk.tidy_mixed, Disk.tidy_veiled, Disk.differHidden_veiled, ?_⟩
  refine (survey_hides Disk.tidy_mixed Disk.tidy_veiled Disk.starts_holding Disk.starts_holding rfl
    rfl ?_ ?_).resolve_right ?_
  · rintro - name ⟨⟩
    exact (Disk.ignoreText_holding rfl rfl).trans (Disk.ignoreText_holding rfl rfl).symm
  · intro rules compiled
    cases Disk.rules_mixed.symm.trans compiled
    exact .inr Disk.differHidden_veiled
  · rintro ⟨problem, fails, -⟩
    exact Survey.not_fails Disk.rules_mixed Settings.wellTyped_plain (by decide) rfl fails

end RepoAtlas
