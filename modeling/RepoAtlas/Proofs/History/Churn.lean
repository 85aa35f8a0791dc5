import RepoAtlas.History.Churn
import RepoAtlas.Proofs.Except
import RepoAtlas.Proofs.History.Counting
import RepoAtlas.Proofs.History.Memory

/-! # Churn from any git

Whatever git replies, the counts are those of wanted files, and each is at least one. Where git
names no root there are none, and where it fails for one file, only that file is missing. What stops
the counting is listed by `Stops`; nothing else does.
-/

namespace RepoAtlas.History

/-! ## Any log -/

/-- Every name is touched by a commit. -/
def Touches.Full (touches : Touches) : Prop := ∀ entry ∈ touches, entry.2 ≠ []

theorem Touches.Full.add {touches : Touches} (full : touches.Full) (name commit : String) :
    (touches.add name commit).Full := by
  induction touches with
  | nil => simp [Touches.add, Touches.Full]
  | cons entry rest ih =>
      obtain ⟨n, commits⟩ := entry
      obtain ⟨first, others⟩ := List.forall_mem_cons.mp full
      rw [Touches.add]
      split
      case isTrue =>
        have touched : (if commits.contains commit then commits else commits ++ [commit]) ≠ [] := by
          split
          · exact first
          · simp
        exact List.forall_mem_cons.mpr ⟨touched, others⟩
      case isFalse => exact List.forall_mem_cons.mpr ⟨first, ih others⟩

theorem LogState.full_note {s : LogState} (full : s.touches.Full) (name : List Char) :
    (s.note name).touches.Full := by
  rw [LogState.note]
  split
  · split
    · exact full
    · exact full.add _ _
  · exact full

theorem LogState.full_read {s : LogState} (full : s.touches.Full) (token : List Char) :
    (s.read token).touches.Full := by
  rw [LogState.read]
  generalize dropLineFeeds token = token
  dsimp only
  split
  · generalize splitCommit _ = header
    exact LogState.full_note (s := { s with commit := header.1 }) full header.2
  · exact LogState.full_note full token

theorem full_ofLog (log : String) : (ofLog log).Full := by
  apply List.foldlRecOn (motive := fun s : LogState => s.touches.Full)
  · exact List.forall_mem_nil _
  · intro s full token _
    exact LogState.full_read full token

/-! ## Sound counts -/

/-- Each of the counts belongs to another one of the files, and none is zero. -/
structure Counts.Sound (counts : Counts) (files : List Path) : Prop where
  distinct : (counts.map (·.1)).Nodup
  wanted : ∀ pair ∈ counts, pair.1 ∈ files
  positive : ∀ pair ∈ counts, 1 ≤ pair.2

section Sound

variable {files : List Path} {s : Session}

theorem sound_nil (files : List Path) : Counts.Sound [] files :=
  ⟨List.nodup_nil, List.forall_mem_nil _, List.forall_mem_nil _⟩

theorem sound_foldl_putLast {pairs : Counts} (wanted : ∀ pair ∈ pairs, pair.1 ∈ files)
    (positive : ∀ pair ∈ pairs, 1 ≤ pair.2) :
    Counts.Sound (pairs.foldl (fun counts pair => putLast pair.1 pair.2 counts) []) files where
  distinct := nodup_keys_foldl_putLast pairs
  wanted pair member := wanted pair (mem_of_mem_foldl_putLast member)
  positive pair member := positive pair (mem_of_mem_foldl_putLast member)

theorem Touches.Full.sound_countsOf {touches : Touches} (full : touches.Full) (top : Path) :
    (Session.countsOf top files touches).Sound files := by
  rw [Session.countsOf_eq]
  apply sound_foldl_putLast
  · intro pair member
    exact List.contains_iff_mem.mp (List.mem_filter.mp member).2
  · intro pair member
    obtain ⟨entry, listed, rfl⟩ := List.mem_map.mp (List.mem_filter.mp member).1
    have some_commit := List.length_pos_of_ne_nil (full entry listed)
    omega

theorem sound_positives {pairs : Counts} (wanted : ∀ pair ∈ pairs, pair.1 ∈ files) :
    (Session.positives pairs).Sound files := by
  apply sound_foldl_putLast
  · intro pair member
    exact wanted pair (List.mem_filter.mp member).1
  · intro pair member
    have positive := of_decide_eq_true (List.mem_filter.mp member).2
    omega

theorem Session.LogStep.sound {t : Session} {counts : Counts} (step : s.LogStep files (.ok counts) t) :
    counts.Sound files := by
  cases step with
  | nothing => exact sound_nil files
  | @told top reply =>
      cases reply with
      | none => exact sound_nil files
      | some log => exact (full_ofLog log).sound_countsOf top

theorem Session.FilesStep.sound {t : Session} {answer : Except Trouble Counts} {counts : Counts}
    (step : s.FilesStep files answer t) (counted : answer = .ok counts) : counts.Sound files := by
  cases step with
  | stopped => cases counted
  | nothing =>
      cases counted
      exact sound_nil files
  | pool => cases counted
  | @asked _ u =>
      obtain ⟨pairs, each, rfl⟩ := exists_of_map_ok counted
      apply sound_positives
      intro pair member
      rw [← map_fileCounts each]
      exact List.mem_map_of_mem member

end Sound

/-! ## A failure for one file -/

/-- Git replies as the first one does, but fails for one file. -/
structure Git.Loses (git : Git) (file : Path) (lossy : Git) : Prop where
  installed : lossy.installed = git.installed
  fails : ∀ asked folder, (lossy.reply asked (.commitsOf folder file)).text? = none
  same : ∀ asked q, q.isAbout file = false → lossy.reply asked q = git.reply asked q

theorem Git.Loses.answer {git lossy : Git} {file : Path} (loses : git.Loses file lossy)
    {patience : Amount} {asked : List Question} {q : Question} (other : q.isAbout file = false) :
    lossy.answer patience asked q = git.answer patience asked q := by
  rw [Git.answer, Git.answer, loses.same asked q other]

/-- No commits for a file. -/
def Counts.forget (file : Path) (counts : Counts) : Counts :=
  counts.map fun pair => (pair.1, if pair.1 = file then 0 else pair.2)

/-- The session with a git that fails for a file. -/
def Session.losing (s : Session) (file : Path) (lossy : Git) : Session :=
  { s with git := lossy, known := s.known.forget file }

theorem forget_cons (file : Path) (pair : Path × Int) (counts : Counts) :
    Counts.forget file (pair :: counts) =
      (pair.1, if pair.1 = file then 0 else pair.2) :: Counts.forget file counts := rfl

theorem lookup_forget (file : Path) (counts : Counts) (p : Path) :
    (counts.forget file).lookup p = (counts.lookup p).map fun n => if p = file then 0 else n := by
  induction counts with
  | nil => rfl
  | cons pair rest ih =>
      rw [forget_cons, List.lookup_cons, List.lookup_cons]
      by_cases same : p = pair.1
      · simp [same]
      · rw [beq_false_of_ne same]
        exact ih

theorem forget_putLast (file p : Path) (n : Int) (counts : Counts) :
    Counts.forget file (putLast p n counts) =
      putLast p (if p = file then 0 else n) (counts.forget file) := by
  induction counts with
  | nil => rfl
  | cons pair rest ih =>
      rw [forget_cons, putLast, putLast]
      by_cases same : pair.1 = p
      · simp [same, forget_cons]
      · rw [if_neg (by simpa using same), if_neg (by simpa using same), forget_cons, ih]

/-- To leave out what was forgotten is to leave out the file. -/
theorem filter_forget (file : Path) (counts : Counts) :
    (counts.forget file).filter (fun pair => 0 < pair.2) =
      (counts.filter fun pair => 0 < pair.2).filter fun pair => pair.1 ≠ file := by
  induction counts with
  | nil => rfl
  | cons pair rest ih =>
      rw [forget_cons, List.filter_cons, List.filter_cons, ih]
      by_cases same : pair.1 = file
      · by_cases positive : 0 < pair.2 <;> simp [same, positive]
      · by_cases positive : 0 < pair.2 <;> simp [same, positive]

/-! ## Sessions that wait -/

/-- No wait for the commits of a file is too long for a session, and no words that it has asked about
    a file hold a NUL. -/
structure Session.Waits (s : Session) : Prop where
  wait : waitProblem? 1 s.patience = none
  folder : s.folder.hasNul = false
  known : ∀ file n, s.known.lookup file = some n → file.hasNul = false

section Waits

variable {s t : Session} {file : Path}

theorem command_commitsOf (folder file : Path) :
    (Question.commitsOf folder file).command.any (·.toList.contains '\x00') =
      (folder.hasNul || file.hasNul) := by
  simp [Question.command, Path.hasNul]

namespace Session.Waits

theorem answer_nul (nul : file.hasNul = true) (git : Git) (patience : Amount)
    (asked : List Question) (folder : Path) :
    git.answer patience asked (.commitsOf folder file) = .error .nul := by
  rw [Git.answer, command_commitsOf, nul, Bool.or_true, if_pos rfl]

variable (waits : s.Waits)
include waits

theorem answer (free : file.hasNul = false) (git : Git) (asked : List Question) :
    git.answer s.patience asked (.commitsOf s.folder file) =
      .ok (git.reply asked (.commitsOf s.folder file)).text? := by
  apply Git.answer_of_wait
  · rw [command_commitsOf, waits.folder, free, Bool.or_false]
  · exact waits.wait

/-- A file is counted unless its path holds a NUL. -/
theorem fileStep {answer : Except Trouble Int} (step : s.FileStep file answer t) :
    t.Waits ∧ ∀ trouble, answer = .error trouble ↔ file.hasNul = true ∧ trouble = .refused .nul := by
  cases nul : file.hasNul with
  | true =>
      have refuses := answer_nul nul s.git s.patience s.asked s.folder
      cases step with
      | known known => exact absurd (waits.known file _ known) (by simp [nul])
      | refused _ refused =>
          cases refused.symm.trans refuses
          simp [waits, eq_comm]
      | told _ told => cases told.symm.trans refuses
  | false =>
      have tells := waits.answer nul s.git s.asked
      cases step with
      | known => simp [waits]
      | refused _ refused => cases refused.symm.trans tells
      | told =>
          refine ⟨⟨waits.wait, waits.folder, ?_⟩, by simp⟩
          intro other n known
          rw [lookup_putLast] at known
          split at known
          case isTrue same => exact beq_iff_eq.mp same ▸ nul
          case isFalse => exact waits.known other n known

/-- Files are counted unless a NUL stands in one of their paths. -/
theorem fileCounts (files : List Path) (trouble : Trouble) :
    (s.fileCounts files).1 = .error trouble ↔
      (∃ file ∈ files, file.hasNul = true) ∧ trouble = .refused .nul := by
  induction files generalizing s with
  | nil => simp [Session.fileCounts]
  | cons file rest ih =>
      obtain ⟨waitsRest, fails⟩ := waits.fileStep (s.fileCount_step file)
      rw [Session.fileCounts]
      generalize s.fileCount file = outcome at waitsRest fails ⊢
      obtain ⟨first | count, t⟩ := outcome
      · obtain ⟨nul, rfl⟩ := (fails first).mp rfl
        constructor
        · rintro ⟨⟩
          exact ⟨⟨file, List.mem_cons_self, nul⟩, rfl⟩
        · rintro ⟨-, rfl⟩
          rfl
      · have free : ¬file.hasNul = true := fun nul => by
          simpa using (fails (.refused .nul)).mpr ⟨nul, rfl⟩
        have others := ih waitsRest
        rw [List.exists_mem_cons_iff, or_iff_right free, ← others]
        dsimp only
        generalize t.fileCounts rest = outcome
        obtain ⟨second | counts, u⟩ := outcome <;> simp

end Session.Waits

end Waits

section Loses

variable {s : Session} {file : Path} {lossy : Git}

namespace Session

theorem RootStep.losing (loses : s.git.Loses file lossy) {answer : Except Trouble (Option Path)}
    {t : Session} (step : s.RootStep answer t) :
    (s.losing file lossy).RootStep answer (t.losing file lossy) := by
  have same : (s.losing file lossy).git.answer s.patience s.asked (.toplevel s.folder) =
      s.git.answer s.patience s.asked (.toplevel s.folder) := loses.answer rfl
  have installs : (s.losing file lossy).git.installed = s.git.installed := loses.installed
  cases step with
  | known known => exact .known known
  | absent unknown absent => exact .absent unknown (installs.trans absent)
  | refused unknown installed refused =>
      exact .refused unknown (installs.trans installed) (same.trans refused)
  | unresolvable unknown installed told nonblank failed =>
      exact .unresolvable unknown (installs.trans installed) (same.trans told) nonblank failed
  | told unknown installed told named =>
      exact .told unknown (installs.trans installed) (same.trans told) named

theorem losing_told (s : Session) (q : Question) (p : Path) (n : Int) :
    { s with asked := s.asked ++ [q], known := putLast p n s.known }.losing file lossy =
      { s.losing file lossy with
        asked := (s.losing file lossy).asked ++ [q]
        known := putLast p (if p = file then 0 else n) (s.losing file lossy).known } := by
  simp only [losing, forget_putLast]

theorem FileStep.losing (loses : s.git.Loses file lossy) (waits : s.Waits) {p : Path}
    {answer : Except Trouble Int} {t : Session} (step : s.FileStep p answer t) :
    (s.losing file lossy).FileStep p (answer.map fun n => if p = file then 0 else n)
      (t.losing file lossy) := by
  have known : (s.losing file lossy).known.lookup p =
      (s.known.lookup p).map fun n => if p = file then 0 else n := lookup_forget file s.known p
  cases step with
  | known found => exact .known (by rw [known, found]; rfl)
  | refused unknown refused =>
      have nul : p.hasNul = true := by
        by_contra free
        cases refused.symm.trans (waits.answer (Bool.eq_false_iff.mpr free) s.git s.asked)
      cases refused.symm.trans (Waits.answer_nul nul s.git s.patience s.asked s.folder)
      exact .refused (by rw [known, unknown]; rfl) (Waits.answer_nul nul lossy _ _ _)
  | @told reply unknown told =>
      have free : p.hasNul = false := by
        by_contra nul
        rw [Waits.answer_nul (Bool.not_eq_false _ ▸ nul)] at told
        cases told
      have lost : (s.losing file lossy).known.lookup p = none := by rw [known, unknown]; rfl
      by_cases same : p = file
      · subst same
        have none : lossy.answer s.patience s.asked (.commitsOf s.folder p) = .ok none := by
          rw [waits.answer free, loses.fails]
        rw [losing_told, Except.map, if_pos rfl]
        exact .told lost none
      · have again := (loses.answer (by simp [Question.isAbout, same])).trans told
        rw [losing_told, Except.map, if_neg same]
        exact .told lost again

theorem fileCounts_losing (loses : s.git.Loses file lossy) (waits : s.Waits) (files : List Path) :
    (s.losing file lossy).fileCounts files =
      ((s.fileCounts files).1.map (Counts.forget file), (s.fileCounts files).2.losing file lossy) := by
  induction files generalizing s with
  | nil => rfl
  | cons p rest ih =>
      have step := s.fileCount_step p
      have waitsRest := (waits.fileStep step).1
      have first := (step.losing loses waits).eq
      have git := step.git
      rw [Session.fileCounts, Session.fileCounts, first]
      generalize s.fileCount p = outcome at waitsRest git ⊢
      obtain ⟨trouble | count, t⟩ := outcome
      · rfl
      · have others := ih (git ▸ loses) waitsRest
        simp only [Except.map] at others ⊢
        rw [others]
        generalize t.fileCounts rest = outcome
        obtain ⟨trouble | counts, u⟩ := outcome <;> rfl

theorem positives_forget (file : Path) (counts : Counts) :
    positives (counts.forget file) = (positives counts).filter fun pair => pair.1 ≠ file := by
  rw [positives, filter_forget]
  exact (filter_foldl_putLast (fun p => decide (p ≠ file)) _).symm

theorem perFileCounts_losing (loses : s.git.Loses file lossy)
    (waits : ∀ top t, s.RootStep (.ok (some top)) t → t.Waits) (files : List Path) :
    ((s.losing file lossy).perFileCounts files).1 =
      (s.perFileCounts files).1.map fun counts => counts.filter fun pair => pair.1 ≠ file := by
  have step := s.perFileCounts_step files
  generalize s.perFileCounts files = outcome at step ⊢
  obtain ⟨answer, u⟩ := outcome
  cases step with
  | stopped root => rw [(FilesStep.stopped (root.losing loses)).eq]; rfl
  | nothing root nothing => rw [(FilesStep.nothing (root.losing loses) nothing).eq]; rfl
  | pool root nonempty pool => rw [(FilesStep.pool (root.losing loses) nonempty pool).eq]; rfl
  | @asked top t root nonempty pool =>
      have losesThere : t.git.Loses file lossy := root.git.1 ▸ loses
      have counted := fileCounts_losing losesThere (waits top t root) files
      rw [(FilesStep.asked (root.losing loses) nonempty pool).eq, counted]
      cases (t.fileCounts files).1 with
      | error trouble => rfl
      | ok counts => exact congrArg _ (positives_forget file counts)

end Session

end Loses

/-! ## Churn -/

/-- Git names the root of the working tree of a folder. -/
structure Git.Names (git : Git) (patience : Amount) (disk : Disk) (place top : Path) : Prop where
  installed : git.installed = true
  told : ∃ out, git.answer patience [] (.toplevel place) = .ok (some out) ∧ Text.strip out ≠ "" ∧
    disk.resolve (Path.parse (Text.strip out)) = .ok top

/-- Git is missing, fails or says nothing when it is asked for the root. -/
def Git.Rootless (git : Git) (place : Path) : Prop :=
  git.installed = false ∨
    ∀ out, (git.reply [] (.toplevel place)).text? = some out → Text.strip out = ""

/-- What can stop the counting: folders that cannot be resolved, waits that are too long, nobody to
    ask, and paths that no command can hold. -/
inductive Stops (disk : Disk) (git : Git) (patience workers : Amount) (folder : Path)
    (files : List Path) : ChurnMode → Trouble → Prop
  /-- The given folder cannot be resolved. -/
  | given {mode : ChurnMode} {problem : Unresolvable}
      (failed : disk.resolve folder = .error problem) :
      Stops disk git patience workers folder files mode (.unresolvable problem)
  /-- The question for the root is refused. -/
  | unasked {mode : ChurnMode} {place : Path} {refusal : Refusal}
      (given : disk.resolve folder = .ok place) (installed : git.installed = true)
      (refused : git.answer patience [] (.toplevel place) = .error refusal) :
      Stops disk git patience workers folder files mode (.refused refusal)
  /-- The root that git names cannot be resolved. -/
  | named {mode : ChurnMode} {place : Path} {out : String} {problem : Unresolvable}
      (given : disk.resolve folder = .ok place) (installed : git.installed = true)
      (told : git.answer patience [] (.toplevel place) = .ok (some out))
      (nonblank : Text.strip out ≠ "")
      (failed : disk.resolve (Path.parse (Text.strip out)) = .error problem) :
      Stops disk git patience workers folder files mode (.unresolvable problem)
  /-- The question for the log is refused. -/
  | log {place top : Path} {refusal : Refusal} (given : disk.resolve folder = .ok place)
      (names : git.Names patience disk place top)
      (refused : git.answer patience [.toplevel place] (.log top) = .error refusal) :
      Stops disk git patience workers folder files .history (.refused refusal)
  /-- Nothing is asked about single files. -/
  | pool {place top : Path} {problem : PoolProblem} (given : disk.resolve folder = .ok place)
      (names : git.Names patience disk place top) (pool : poolProblem? workers = some problem) :
      Stops disk git patience workers folder files .perFile (.pool problem)
  /-- A NUL stands in the path of a file. -/
  | file {place top file : Path} (given : disk.resolve folder = .ok place)
      (names : git.Names patience disk place top) (pool : poolProblem? workers = none)
      (wanted : file ∈ files) (nul : file.hasNul = true) :
      Stops disk git patience workers folder files .perFile (.refused .nul)

/-- The counts of files by the way of a mode that counts. -/
def Session.counted (s : Session) (files : List Path) (mode : ChurnMode) :
    Except Trouble Counts × Session :=
  if mode = .perFile then s.perFileCounts files else s.historyCounts files

theorem Session.counted_perFile (s : Session) (files : List Path) :
    s.counted files .perFile = s.perFileCounts files := if_pos rfl

theorem Session.counted_history (s : Session) (files : List Path) :
    s.counted files .history = s.historyCounts files := if_neg ChurnMode.noConfusion

section Collect

variable {disk : Disk} {git : Git} {patience workers : Amount} {folder place top : Path}
  {files : List Path} {mode : ChurnMode} {t : Session}

/-- The session that has asked for the root. -/
def rooted (disk : Disk) (git : Git) (patience workers : Amount) (place top : Path) : Session :=
  { Session.start disk git patience workers place with
    top := some (some top), asked := [.toplevel place] }

theorem Git.Names.step (names : git.Names patience disk place top) (workers : Amount) :
    (Session.start disk git patience workers place).RootStep (.ok (some top))
      (rooted disk git patience workers place top) := by
  obtain ⟨out, told, nonblank, resolved⟩ := names.told
  refine .told rfl names.installed told ?_
  simp only [Session.topOf, if_neg nonblank, Session.start, resolved]

theorem Session.RootStep.names
    (step : (Session.start disk git patience workers place).RootStep (.ok (some top)) t) :
    git.Names patience disk place top ∧ t = rooted disk git patience workers place top := by
  cases step with
  | known known => cases known
  | @told reply _ _ installed told named =>
      refine ⟨⟨installed, ?_⟩, rfl⟩
      cases reply with
      | none => cases named
      | some out =>
          rw [topOf] at named
          split at named
          · cases named
          · split at named
            · cases named
              exact ⟨out, told, ‹_›, ‹_›⟩
            · cases named

theorem Git.Names.waits (names : git.Names patience disk place top) (workers : Amount) :
    (rooted disk git patience workers place top).Waits := by
  obtain ⟨out, told, -⟩ := names.told
  obtain ⟨free, wait⟩ := answer_eq_some told
  exact ⟨wait, by simpa [Question.command, Path.hasNul, rooted, Session.start] using free, nofun⟩

theorem collect_of_stop (stop : mode = .off ∨ files = []) :
    collect disk git patience workers folder files mode = .ok ([], []) := by
  have guard : (mode = .off || files.isEmpty) = true := by simpa using stop
  rw [collect, if_pos guard]

theorem collect_of_unresolvable {problem : Unresolvable} (on : mode ≠ .off) (nonempty : files ≠ [])
    (given : disk.resolve folder = .error problem) :
    collect disk git patience workers folder files mode = .error (.unresolvable problem) := by
  have guard : ¬(mode = .off || files.isEmpty) = true := by simpa using ⟨on, nonempty⟩
  rw [collect, if_neg guard, given]

theorem collect_of_given (on : mode ≠ .off) (nonempty : files ≠ [])
    (given : disk.resolve folder = .ok place) :
    let counted := (Session.start disk git patience workers place).counted files mode
    collect disk git patience workers folder files mode = counted.1.map (·, counted.2.asked) := by
  have guard : ¬(mode = .off || files.isEmpty) = true := by simpa using ⟨on, nonempty⟩
  rw [collect, if_neg guard, given]
  rfl

theorem stops_of_rootStep {trouble : Trouble} (given : disk.resolve folder = .ok place)
    (step : (Session.start disk git patience workers place).RootStep (.error trouble) t) :
    Stops disk git patience workers folder files mode trouble := by
  cases step with
  | refused _ installed refused => exact .unasked given installed refused
  | unresolvable _ installed told nonblank failed => exact .named given installed told nonblank failed

theorem stops_of_logStep {trouble : Trouble} (given : disk.resolve folder = .ok place)
    (step : (Session.start disk git patience workers place).LogStep files (.error trouble) t) :
    Stops disk git patience workers folder files .history trouble := by
  cases step with
  | stopped root => exact stops_of_rootStep given root
  | refused root _ refused =>
      obtain ⟨names, rfl⟩ := root.names
      exact .log given names refused

theorem stops_of_filesStep {trouble : Trouble} {answer : Except Trouble Counts}
    (given : disk.resolve folder = .ok place)
    (step : (Session.start disk git patience workers place).FilesStep files answer t)
    (failed : answer = .error trouble) :
    Stops disk git patience workers folder files .perFile trouble := by
  cases step with
  | stopped root =>
      cases failed
      exact stops_of_rootStep given root
  | nothing => cases failed
  | pool root _ pool =>
      cases failed
      obtain ⟨names, rfl⟩ := root.names
      exact .pool given names pool
  | asked root _ pool =>
      obtain ⟨names, rfl⟩ := root.names
      obtain ⟨⟨file, wanted, nul⟩, rfl⟩ :=
        ((names.waits workers).fileCounts files trouble).mp (map_eq_error_iff.mp failed)
      exact .file given names pool wanted nul

theorem counted_of_stopped {trouble : Trouble}
    (root : (Session.start disk git patience workers place).RootStep (.error trouble) t) :
    ((Session.start disk git patience workers place).counted files mode).1 = .error trouble := by
  rw [Session.counted]
  split
  · rw [(Session.FilesStep.stopped root).eq]
  · rw [(Session.LogStep.stopped root).eq]

theorem counted_eq_error_iff {trouble : Trouble} (on : mode ≠ .off) (nonempty : files ≠ [])
    (given : disk.resolve folder = .ok place) :
    ((Session.start disk git patience workers place).counted files mode).1 = .error trouble ↔
      Stops disk git patience workers folder files mode trouble := by
  constructor
  · intro failed
    cases mode with
    | off => exact absurd rfl on
    | history =>
        rw [Session.counted_history] at failed
        exact stops_of_logStep given (failed ▸ Session.historyCounts_step _ files)
    | perFile =>
        rw [Session.counted_perFile] at failed
        exact stops_of_filesStep given (Session.perFileCounts_step _ files) failed
  · intro stops
    cases stops with
    | given failed => cases failed.symm.trans given
    | unasked given' installed refused =>
        cases given'.symm.trans given
        exact counted_of_stopped (.refused rfl installed refused)
    | named given' installed told nonblank failed =>
        cases given'.symm.trans given
        exact counted_of_stopped (.unresolvable rfl installed told nonblank failed)
    | log given' names refused =>
        cases given'.symm.trans given
        rw [Session.counted_history, (Session.LogStep.refused (names.step workers) nonempty refused).eq]
    | pool given' names pool =>
        cases given'.symm.trans given
        rw [Session.counted_perFile, (Session.FilesStep.pool (names.step workers) nonempty pool).eq]
    | file given' names pool wanted nul =>
        cases given'.symm.trans given
        rw [Session.counted_perFile, (Session.FilesStep.asked (names.step workers) nonempty pool).eq]
        exact map_eq_error_iff.mpr (((names.waits workers).fileCounts files _).mpr
          ⟨⟨_, wanted, nul⟩, rfl⟩)

theorem collect_eq_error_iff {trouble : Trouble} :
    collect disk git patience workers folder files mode = .error trouble ↔
      mode ≠ .off ∧ files ≠ [] ∧ Stops disk git patience workers folder files mode trouble := by
  by_cases stop : mode = .off ∨ files = []
  case pos =>
    rw [collect_of_stop stop]
    simp only [reduceCtorEq, false_iff]
    rintro ⟨on, nonempty, -⟩
    exact stop.elim on nonempty
  case neg =>
    rw [not_or] at stop
    simp only [stop, ne_eq, not_false_eq_true, true_and]
    cases given : disk.resolve folder with
    | error problem =>
        rw [collect_of_unresolvable stop.1 stop.2 given]
        constructor
        · rintro ⟨⟩
          exact .given given
        · intro stops
          cases stops with
          | given failed => exact congrArg _ (congrArg _ (Except.error.inj (given.symm.trans failed)))
          | unasked given' => cases given.symm.trans given'
          | named given' => cases given.symm.trans given'
          | log given' => cases given.symm.trans given'
          | pool given' => cases given.symm.trans given'
          | file given' => cases given.symm.trans given'
    | ok place =>
        rw [collect_of_given stop.1 stop.2 given, map_eq_error_iff]
        exact counted_eq_error_iff stop.1 stop.2 given

theorem toplevel_of_rootless (rootless : git.Rootless place) {root : Option Path}
    (step : (Session.start disk git patience workers place).RootStep (.ok root) t) : root = none := by
  cases step with
  | known known => cases known
  | absent => rfl
  | @told reply _ _ installed told named =>
      have blank := rootless.resolve_left (Bool.not_eq_false _ ▸ installed)
      have text := Git.answer_eq_text told
      cases reply with
      | none => exact (Except.ok.inj named).symm
      | some out =>
          rw [Session.topOf, if_pos (blank out text.symm)] at named
          exact (Except.ok.inj named).symm

theorem Session.LogStep.eq_nil_of_rootless (rootless : git.Rootless place) {counts : Counts}
    (step : (start disk git patience workers place).LogStep files (.ok counts) t) : counts = [] := by
  cases step with
  | nothing => rfl
  | told found => cases toplevel_of_rootless rootless found

theorem Session.FilesStep.eq_nil_of_rootless (rootless : git.Rootless place)
    {answer : Except Trouble Counts} {counts : Counts}
    (step : (start disk git patience workers place).FilesStep files answer t)
    (counted : answer = .ok counts) : counts = [] := by
  cases step with
  | stopped => cases counted
  | nothing => exact (Except.ok.inj counted).symm
  | pool found => cases counted
  | asked found => cases toplevel_of_rootless rootless found

/-- What is given was given by one of the two ways of asking. -/
theorem steps_of_collect {counts : Counts} {asked : List Question}
    (collected : collect disk git patience workers folder files mode = .ok (counts, asked)) :
    (mode = .off ∨ files = []) ∧ counts = [] ∧ asked = [] ∨
      ∃ place t, disk.resolve folder = .ok place ∧
        ((Session.start disk git patience workers place).LogStep files (.ok counts) t ∨
          (Session.start disk git patience workers place).FilesStep files (.ok counts) t) := by
  by_cases stop : mode = .off ∨ files = []
  case pos =>
    cases (collect_of_stop stop).symm.trans collected
    exact .inl ⟨stop, rfl, rfl⟩
  case neg =>
    rw [not_or] at stop
    cases given : disk.resolve folder with
    | error problem =>
        cases (collect_of_unresolvable stop.1 stop.2 given).symm.trans collected
    | ok place =>
        rw [collect_of_given stop.1 stop.2 given] at collected
        obtain ⟨counts, counted, ⟨⟩⟩ := exists_of_map_ok collected
        rw [Session.counted] at counted
        split at counted
        · exact .inr ⟨place, _, rfl, .inr (counted ▸ Session.perFileCounts_step _ files)⟩
        · exact .inr ⟨place, _, rfl, .inl (counted ▸ Session.historyCounts_step _ files)⟩

theorem collect_losing {file : Path} {lossy : Git} (loses : git.Loses file lossy)
    (files : List Path) :
    (collect disk lossy patience workers folder files .perFile).map (·.1) =
      (collect disk git patience workers folder files .perFile).map fun collected =>
        collected.1.filter fun pair => pair.1 ≠ file := by
  by_cases empty : files = []
  case pos =>
    rw [collect_of_stop (.inr empty), collect_of_stop (.inr empty)]
    rfl
  case neg =>
    have on : ChurnMode.perFile ≠ .off := ChurnMode.noConfusion
    cases given : disk.resolve folder with
    | error problem =>
        rw [collect_of_unresolvable on empty given, collect_of_unresolvable on empty given]
        rfl
    | ok place =>
        let start := Session.start disk git patience workers place
        have waits : ∀ top t, start.RootStep (.ok (some top)) t → t.Waits := by
          intro top t step
          obtain ⟨names, rfl⟩ := step.names
          exact names.waits workers
        have fewer := Session.perFileCounts_losing loses waits files
        have fst {α : Type} (counted : Except Trouble Counts) (asked : List Question)
            (f : Counts → α) :
            (counted.map (·, asked)).map (fun collected => f collected.1) = counted.map f := by
          cases counted <;> rfl
        rw [collect_of_given on empty given, collect_of_given on empty given,
          Session.counted_perFile, Session.counted_perFile,
          fst _ _ fun counts => counts.filter fun pair => pair.1 ≠ file, ← fewer]
        exact (fst _ _ id).trans (congrFun Except.map_id _)

end Collect

/-- Counts are of wanted files only, each at least one, and there are none if git names no root.
    Nothing is asked where there is nothing to count. A failure for one file takes that file away
    and no other. Counts are given unless one of few things stops the counting. -/
theorem collect_keeps_to_files (disk : Disk) (git : Git) (patience workers : Amount) (folder : Path)
    (files : List Path) (mode : ChurnMode) :
    (∀ trouble, collect disk git patience workers folder files mode = .error trouble ↔
      mode ≠ .off ∧ files ≠ [] ∧ Stops disk git patience workers folder files mode trouble) ∧
    (mode = .off ∨ files = [] →
      collect disk git patience workers folder files mode = .ok ([], [])) ∧
    (∀ counts asked, collect disk git patience workers folder files mode = .ok (counts, asked) →
      counts.Sound files ∧
        ∀ place, disk.resolve folder = .ok place → git.Rootless place → counts = []) ∧
    ∀ file lossy, git.Loses file lossy →
      (collect disk lossy patience workers folder files .perFile).map (·.1) =
        (collect disk git patience workers folder files .perFile).map fun collected =>
          collected.1.filter fun pair => pair.1 ≠ file := by
  refine ⟨fun trouble => collect_eq_error_iff, collect_of_stop, ?_,
    fun file lossy loses => collect_losing loses files⟩
  intro counts asked collected
  rcases steps_of_collect collected with ⟨-, rfl, -⟩ | ⟨place, t, given, byLog | byFile⟩
  · exact ⟨sound_nil files, fun _ _ _ => rfl⟩
  · refine ⟨byLog.sound, ?_⟩
    intro place' given' rootless
    cases given.symm.trans given'
    exact byLog.eq_nil_of_rootless rootless
  · refine ⟨byFile.sound rfl, ?_⟩
    intro place' given' rootless
    cases given.symm.trans given'
    exact byFile.eq_nil_of_rootless rootless rfl

/-- A git that names a root with a NUL. -/
def nulRoot : Git := ⟨true, fun _ _ => .finished 0 "/r\x00\n"⟩

/-- There are no counts, not even none, for a root that cannot be resolved. -/
theorem collect_nulRoot :
    let files := [Path.parse "/r/a.ts"]
    let collected := collect workTree nulRoot (.whole 10) (.whole 4) (Path.parse "/r") files .perFile
    collected = .error (.unresolvable .nul) ∧ ¬∃ counts asked, collected = .ok (counts, asked) := by
  intro files collected
  have told : nulRoot.answer (.whole 10) [] (.toplevel (Path.parse "/r")) =
      .ok (some "/r\x00\n") :=
    Git.answer_of_wait (by decide) (waitProblem?_ten _)
  have stops : collected = .error (.unresolvable .nul) := by
    apply collect_eq_error_iff.mpr
    refine ⟨by decide, by decide, .named Disk.resolve_holding rfl told (by decide) ?_⟩
    rw [Disk.resolve, if_pos (by decide)]
  refine ⟨stops, ?_⟩
  rintro ⟨counts, asked, given⟩
  cases stops.symm.trans given

end RepoAtlas.History
