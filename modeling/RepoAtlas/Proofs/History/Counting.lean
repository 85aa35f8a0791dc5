import RepoAtlas.Proofs.Disk
import RepoAtlas.Proofs.History.Log
import RepoAtlas.Proofs.History.Session
import RepoAtlas.Proofs.Index
import RepoAtlas.Proofs.Text

/-! # Two ways of counting commits

One way reads the commits of all files off one log, the other asks about each file. If git tells the
same history either way, both give every file the number of commits that touch it, provided that no
name of the history looks like a header of the log: such a name is lost, and the names behind it are
counted for a commit that does not exist. What a session remembers is true of the history, so it
makes no difference what was asked before.
-/

namespace RepoAtlas.History

/-! ## A history and what git says of it -/

/-- The text is made of components that lead down, with slashes between them. -/
def IsRelativeName (name : String) : Prop :=
  ∃ parts, parts ≠ [] ∧ (∀ part ∈ parts, isComponent part = true ∧ part ≠ "..") ∧
    name = Path.joined parts

def hexDigits : List Char := "0123456789abcdefABCDEF".toList

/-- A commit as a repository holds it. -/
structure Commit.Tracked (c : Commit) : Prop where
  hash : c.hash ≠ "" ∧ c.hash.toList.all hexDigits.contains = true
  names : ∀ name ∈ c.names, IsRelativeName name ∧ '\x00' ∉ name.toList

/-- The commits that touch a path below the root of a working tree. -/
def touching (history : List Commit) (top p : Path) : List Commit :=
  history.filter fun c => c.names.any fun name => top.join (Path.parse name) = p

/-- Git tells a history of the working tree at a root to who is patient enough: all of it in some
    layout of a log, and the hashes of the commits that touch a wanted file line by line. -/
structure Git.Answers (git : Git) (patience : Amount) (disk : Disk) (folder root top : Path)
    (history : List Commit) (files : List Path) : Prop where
  installed : git.installed = true
  resolved : disk.resolve root = .ok top
  toplevel : ∀ asked, git.answer patience asked (.toplevel folder) = .ok (some (root.text ++ "\n"))
  log : ∀ asked, ∃ records : List Record, records.map (·.commit) = history ∧
    (∀ r ∈ records.dropLast, r.Closed) ∧
    git.answer patience asked (.log top) = .ok (some (render records))
  commitsOf : ∀ asked, ∀ p ∈ files, git.answer patience asked (.commitsOf folder p) =
    .ok (some (Text.ofLines ((touching history top p).map (·.hash))))

/-- A git that tells a history: the log in one layout, the same whenever it is asked. -/
def Git.telling (top root : Path) (history : List Commit) : Git where
  installed := true
  reply _
    | .toplevel _ => .finished 0 (root.text ++ "\n")
    | .log _ => .finished 0 (render (history.map fun c => ⟨c, .lineFeedNul, 0⟩))
    | .commitsOf _ p => .finished 0 (Text.ofLines ((touching history top p).map (·.hash)))

theorem Git.answers_telling {patience : Amount} {disk : Disk} {folder root top : Path}
    {files : List Path} (wait : ∀ q : Question, waitProblem? q.patience patience = none)
    (resolved : disk.resolve root = .ok top) (folderFree : folder.hasNul = false)
    (topFree : top.hasNul = false) (filesFree : ∀ p ∈ files, p.hasNul = false)
    (history : List Commit) :
    (telling top root history).Answers patience disk folder root top history files where
  installed := rfl
  resolved := resolved
  toplevel asked := answer_of_wait (by simpa [Question.command, Path.hasNul] using folderFree) (wait _)
  log asked := by
    refine ⟨history.map fun c => ⟨c, .lineFeedNul, 0⟩, ?_, ?_, ?_⟩
    · rw [List.map_map]
      exact List.map_id history
    · intro r member
      obtain ⟨c, -, rfl⟩ := List.mem_map.mp (List.dropLast_subset _ member)
      exact .inl Separator.noConfusion
    · exact answer_of_wait (by simpa [Question.command, Path.hasNul] using topFree) (wait _)
  commitsOf asked p member := by
    have free := filesFree p member
    exact answer_of_wait (by simp_all [Question.command, Path.hasNul]) (wait _)

/-- A repository: each commit once, under its own hash. -/
structure Repository (history : List Commit) : Prop where
  distinct : (history.map (·.hash)).Nodup
  tracked : ∀ c ∈ history, c.Tracked

theorem hexDigits_solid {x : Char} (digit : hexDigits.contains x = true) :
    Text.isBlank x = false ∧ Text.isLineEnd x = false ∧ x ≠ '\x00' ∧ x ≠ '\n' := by
  have solid : (hexDigits.all fun x => !Text.isBlank x && !Text.isLineEnd x && x != '\x00' &&
      x != '\n') = true := by decide
  simpa [and_assoc] using List.all_eq_true.mp solid x (List.contains_iff_mem.mp digit)

theorem Commit.Tracked.digit {c : Commit} (tracked : c.Tracked) {x : Char}
    (member : x ∈ c.hash.toList) : hexDigits.contains x = true :=
  List.all_eq_true.mp tracked.hash.2 x member

theorem Commit.Tracked.tight {c : Commit} (tracked : c.Tracked) : Text.Tight c.hash := by
  have solid : ∀ x ∈ c.hash.toList, (!Text.isBlank x) = true := fun x member => by
    rw [(hexDigits_solid (tracked.digit member)).1]
    rfl
  refine ⟨?_, ?_⟩
  · cases head : c.hash.toList.head? with
    | none => rfl
    | some x => exact solid x (List.mem_of_mem_head? head)
  · cases last : c.hash.toList.getLast? with
    | none => rfl
    | some x => exact solid x (List.mem_of_getLast? last)

theorem Commit.Tracked.legible {c : Commit} (tracked : c.Tracked)
    (plain : ∀ name ∈ c.names, PlainName name) : c.Legible where
  hash := ⟨tracked.hash.1, Text.strip_of_tight tracked.tight⟩
  hashFree := by
    refine ⟨fun nul => ?_, fun lineFeed => ?_⟩
    · exact (hexDigits_solid (tracked.digit nul)).2.2.1 rfl
    · exact (hexDigits_solid (tracked.digit lineFeed)).2.2.2 rfl
  names := by
    intro name listed
    obtain ⟨⟨parts, nonempty, proper, rfl⟩, free⟩ := tracked.names name listed
    refine ⟨?_, free, plain _ listed⟩
    intro empty
    have none := Path.joined_injective (fun part member => (proper part member).1) (by simp)
      (empty.trans Path.joined_nil.symm)
    exact nonempty none

/-- Different names of a history lie at different paths of the working tree. -/
theorem join_parse_injective {top : Path} {name other : String} (relative : IsRelativeName name)
    (relative' : IsRelativeName other)
    (same : top.join (Path.parse name) = top.join (Path.parse other)) : name = other := by
  obtain ⟨parts, -, proper, rfl⟩ := relative
  obtain ⟨more, -, proper', rfl⟩ := relative'
  rw [Path.parse_joined fun part member => (proper part member).1,
    Path.parse_joined fun part member => (proper' part member).1] at same
  have behind := congrArg Path.parts same
  simp only [Path.join, if_true, List.append_cancel_left_eq] at behind
  rw [behind]

/-! ## Counts from a log -/

variable {history : List Commit} {top p : Path} {files : List Path}

/-- What an entry of the touches counts for its path is the number of commits that touch it. -/
theorem length_of_tells (repository : Repository history) {touches : Touches}
    (tells : touches.Tells history) {entry : String × List String} (member : entry ∈ touches) :
    entry.2.length = (touching history top (top.join (Path.parse entry.1))).length := by
  have relative : ∀ c ∈ history, ∀ name ∈ c.names, IsRelativeName name :=
    fun c inside name listed => ((repository.tracked c inside).names name listed).1
  obtain ⟨c₀, inside₀, listed₀⟩ : ∃ c ∈ history, entry.1 ∈ c.names := by
    have named : entry.1 ∈ touches.map (·.1) := List.mem_map_of_mem member
    rw [tells.names, List.mem_eraseDups, List.mem_flatMap] at named
    exact named
  -- Neither list repeats a hash, so it is enough that they have the same members.
  have hashes : entry.2.Perm
      ((touching history top (top.join (Path.parse entry.1))).map (·.hash)) := by
    refine (List.perm_ext_iff_of_nodup (tells.once entry member) ?_).mpr ?_
    · exact repository.distinct.sublist (List.filter_sublist.map _)
    · intro hash
      simp only [tells.hashes entry member, touching, List.mem_map, List.mem_filter, List.any_eq_true,
        decide_eq_true_eq]
      constructor
      · rintro ⟨c, inside, rfl, listed⟩
        exact ⟨c, ⟨inside, entry.1, listed, rfl⟩, rfl⟩
      · rintro ⟨c, ⟨inside, name, listed, same⟩, rfl⟩
        have same' := join_parse_injective (relative c inside name listed)
          (relative c₀ inside₀ entry.1 listed₀) same
        exact ⟨c, inside, rfl, same' ▸ listed⟩
  rw [hashes.length_eq, List.length_map]

/-- The counts that a history gives to files: of those that it touches, the number of commits. -/
def countIn (history : List Commit) (top : Path) (files : List Path) (p : Path) : Option Int :=
  if p ∈ files ∧ touching history top p ≠ [] then some ((touching history top p).length : Int)
  else none

/-- The counts are those that a history gives to files. -/
structure Counts.Tell (counts : Counts) (history : List Commit) (top : Path) (files : List Path) :
    Prop where
  distinct : (counts.map (·.1)).Nodup
  lookup : ∀ p, counts.lookup p = countIn history top files p

theorem Counts.Tell.perm {counts more : Counts} (tell : counts.Tell history top files)
    (tell' : more.Tell history top files) : counts.Perm more :=
  perm_of_lookup tell.distinct tell'.distinct fun p => (tell.lookup p).trans (tell'.lookup p).symm

/-- A path is touched if its name is among the touches. -/
theorem touching_ne_nil_iff {touches : Touches} (tells : touches.Tells history) :
    touching history top p ≠ [] ↔ ∃ entry ∈ touches, top.join (Path.parse entry.1) = p := by
  have names : ∀ name, name ∈ touches.map (·.1) ↔ ∃ c ∈ history, name ∈ c.names := by
    intro name
    rw [tells.names, List.mem_eraseDups, List.mem_flatMap]
  have some_commit : touching history top p ≠ [] ↔
      ∃ c ∈ history, ∃ name ∈ c.names, top.join (Path.parse name) = p := by
    rw [touching, Ne, List.filter_eq_nil_iff]
    simp only [List.any_eq_true, decide_eq_true_eq]
    push Not
    rfl
  rw [some_commit]
  constructor
  · rintro ⟨c, inside, name, listed, rfl⟩
    obtain ⟨entry, member, rfl⟩ := List.mem_map.mp ((names name).mpr ⟨c, inside, listed⟩)
    exact ⟨entry, member, rfl⟩
  · rintro ⟨entry, member, rfl⟩
    obtain ⟨c, inside, listed⟩ := (names entry.1).mp (List.mem_map_of_mem member)
    exact ⟨c, inside, entry.1, listed, rfl⟩

namespace Session

theorem countsOf_eq (touches : Touches) :
    countsOf top files touches =
      ((touches.map fun entry => (top.join (Path.parse entry.1), (entry.2.length : Int))).filter
        fun pair => files.contains pair.1).foldl
          (fun known pair => putLast pair.1 pair.2 known) [] := by
  rw [List.foldl_filter, List.foldl_map]
  rfl

theorem lookup_countsOf (repository : Repository history) {touches : Touches}
    (tells : touches.Tells history) :
    (countsOf top files touches).lookup p = countIn history top files p := by
  have agree : ∀ pair ∈ (touches.map fun entry =>
        (top.join (Path.parse entry.1), (entry.2.length : Int))).filter
          fun pair => files.contains pair.1,
      pair.1 = p → pair.2 = ((touching history top p).length : Int) := by
    rintro pair member rfl
    obtain ⟨entry, inside, rfl⟩ := List.mem_map.mp (List.mem_filter.mp member).1
    rw [length_of_tells repository tells inside]
  rw [countsOf_eq, lookup_foldl_putLast agree, countIn]
  refine if_congr ?_ rfl rfl
  rw [touching_ne_nil_iff tells]
  simp only [List.mem_map, List.mem_filter, List.contains_iff_mem]
  constructor
  · rintro ⟨_, ⟨⟨entry, inside, rfl⟩, wanted⟩, rfl⟩
    exact ⟨wanted, entry, inside, rfl⟩
  · rintro ⟨wanted, entry, inside, rfl⟩
    exact ⟨_, ⟨⟨entry, inside, rfl⟩, wanted⟩, rfl⟩

theorem tell_countsOf (repository : Repository history) {touches : Touches}
    (tells : touches.Tells history) : (countsOf top files touches).Tell history top files where
  distinct := by
    rw [countsOf_eq]
    exact nodup_keys_foldl_putLast _
  lookup _ := lookup_countsOf repository tells

theorem countsOf_nil (touches : Touches) : countsOf top [] touches = [] := by
  rw [countsOf_eq, List.filter_eq_nil_iff.mpr (by simp), List.foldl_nil]

/-! ## Counts of one file at a time -/

theorem not_isBlankText {c : Commit} (tracked : c.Tracked) : Text.isBlankText c.hash = false := by
  obtain ⟨x, rest, spelled⟩ : ∃ x rest, c.hash.toList = x :: rest :=
    List.exists_cons_of_ne_nil (by simpa using tracked.hash.1)
  have digit : hexDigits.contains x = true := tracked.digit (by simp [spelled])
  rw [Text.isBlankText, spelled, List.all_cons, (hexDigits_solid digit).1, Bool.false_and]

/-- The lines that git prints for a file come to the number of commits that touch it. -/
theorem countLines_touching (repository : Repository history) :
    countLines (Text.ofLines ((touching history top p).map (·.hash))) =
      ((touching history top p).length : Int) := by
  have tracked : ∀ c ∈ touching history top p, c.Tracked :=
    fun c member => repository.tracked c (List.mem_filter.mp member).1
  have read : Text.lines (Text.ofLines ((touching history top p).map (·.hash))) =
      (touching history top p).map (·.hash) := by
    apply Text.lines_ofLines
    intro line member x inside
    obtain ⟨c, touches, rfl⟩ := List.mem_map.mp member
    exact (hexDigits_solid ((tracked c touches).digit inside)).2.1
  have full : ∀ line ∈ (touching history top p).map (·.hash), (!Text.isBlankText line) = true := by
    intro line member
    obtain ⟨c, touches, rfl⟩ := List.mem_map.mp member
    rw [not_isBlankText (tracked c touches)]
    rfl
  have distinct : ((touching history top p).map (·.hash)).Nodup :=
    repository.distinct.sublist (List.filter_sublist.map _)
  rw [countLines, read, List.filter_eq_self.mpr full, eraseDups_of_nodup distinct, List.length_map]

/-- The counts of files one after the other, those without commits left out. -/
def countsOfEach (history : List Commit) (top : Path) (files : List Path) : Counts :=
  ((files.map fun file => (file, ((touching history top file).length : Int))).filter
    fun pair => 0 < pair.2).foldl (fun known pair => putLast pair.1 pair.2 known) []

theorem tell_countsOfEach (history : List Commit) (top : Path) (files : List Path) :
    (countsOfEach history top files).Tell history top files where
  distinct := nodup_keys_foldl_putLast _
  lookup p := by
    have agree : ∀ pair ∈ (files.map fun file =>
          (file, ((touching history top file).length : Int))).filter fun pair => 0 < pair.2,
        pair.1 = p → pair.2 = ((touching history top p).length : Int) := by
      rintro pair member rfl
      obtain ⟨file, -, rfl⟩ := List.mem_map.mp (List.mem_filter.mp member).1
      rfl
    rw [countsOfEach, lookup_foldl_putLast agree, countIn]
    refine if_congr ?_ rfl rfl
    simp only [List.mem_map, List.mem_filter, decide_eq_true_eq]
    constructor
    · rintro ⟨_, ⟨⟨file, wanted, rfl⟩, some_commit⟩, rfl⟩
      exact ⟨wanted, List.ne_nil_of_length_pos (Int.natCast_pos.mp some_commit)⟩
    · rintro ⟨wanted, some_commit⟩
      exact ⟨_, ⟨⟨p, wanted, rfl⟩, Int.natCast_pos.mpr (List.length_pos_of_ne_nil some_commit)⟩, rfl⟩

/-! ## What a session remembers -/

/-- Git tells a session the history, and all that the session remembers is true of it. -/
structure Informed (workers : Amount) (root top : Path) (history : List Commit) (files : List Path)
    (s : Session) : Prop where
  workers : s.workers = workers
  answers : s.git.Answers s.patience s.disk s.folder root top history files
  knowsTop : ∀ found, s.top = some found → found = some top
  knowsCounts : ∀ file ∈ files, ∀ count, s.known.lookup file = some count →
    count = ((touching history top file).length : Int)

variable {workers : Amount} {root : Path} {wanted : List Path} {s t : Session}

theorem topOf_root {disk : Disk} (tight : Text.Tight root.text) (resolved : disk.resolve root = .ok top) :
    topOf disk (some (root.text ++ "\n")) = .ok (some top) := by
  have nonempty : root.text ≠ "" := by
    intro empty
    have bare : root = Path.bare .relative := by rw [← Path.parse_text root, empty]; rfl
    rw [bare] at empty
    exact absurd empty (by decide)
  simp only [topOf, Text.strip_lineFeed tight, if_neg nonempty, Path.parse_text, resolved]

namespace Informed

variable (informed : s.Informed workers root top history files)
include informed

theorem rootStep (tight : Text.Tight root.text) {answer : Except Trouble (Option Path)}
    (step : s.RootStep answer t) :
    answer = .ok (some top) ∧ t.Informed workers root top history files := by
  have replies := informed.answers.toplevel s.asked
  have names := topOf_root tight informed.answers.resolved
  cases step with
  | known known => exact ⟨congrArg _ (informed.knowsTop _ known), informed⟩
  | absent _ absent => exact absurd (absent.symm.trans informed.answers.installed) (by decide)
  | refused _ _ refused => cases refused.symm.trans replies
  | unresolvable _ _ told nonblank failed =>
      cases told.symm.trans replies
      rw [topOf, if_neg nonblank, failed] at names
      cases names
  | told _ _ told named =>
      cases told.symm.trans replies
      cases named.symm.trans names
      refine ⟨rfl, informed.workers, informed.answers, ?_, informed.knowsCounts⟩
      rintro found known
      exact (Option.some.inj known).symm

theorem fileStep (repository : Repository history) {file : Path} {answer : Except Trouble Int}
    (step : s.FileStep file answer t) :
    t.Informed workers root top history files ∧
      (file ∈ files → answer = .ok ((touching history top file).length : Int)) := by
  have replies := informed.answers.commitsOf s.asked
  cases step with
  | known known =>
      refine ⟨informed, ?_⟩
      intro inside
      rw [informed.knowsCounts file inside _ known]
  | refused _ refused =>
      refine ⟨informed, ?_⟩
      intro inside
      cases refused.symm.trans (replies file inside)
  | @told reply _ told =>
      have counted : file ∈ files →
          (reply.map countLines).getD 0 = ((touching history top file).length : Int) := by
        intro inside
        cases told.symm.trans (replies file inside)
        rw [Option.map_some, Option.getD_some, countLines_touching repository]
      refine ⟨⟨informed.workers, informed.answers, informed.knowsTop, ?_⟩, ?_⟩
      · intro other inside count known
        rw [lookup_putLast] at known
        split at known
        case isTrue same =>
          cases beq_iff_eq.mp same
          exact (Option.some.inj known).symm.trans (counted inside)
        case isFalse => exact informed.knowsCounts other inside count known
      · intro inside
        rw [counted inside]

theorem fileCounts (repository : Repository history) (wanted : List Path) :
    (s.fileCounts wanted).2.Informed workers root top history files ∧
      ((∀ file ∈ wanted, file ∈ files) → (s.fileCounts wanted).1 = .ok (wanted.map fun file =>
        (file, ((touching history top file).length : Int)))) := by
  induction wanted generalizing s with
  | nil => exact ⟨informed, fun _ => rfl⟩
  | cons file rest ih =>
      have first := informed.fileStep repository (s.fileCount_step file)
      rw [Session.fileCounts]
      generalize s.fileCount file = outcome at first ⊢
      obtain ⟨trouble | count, t⟩ := outcome
      · refine ⟨first.1, ?_⟩
        intro inside
        cases first.2 (inside file List.mem_cons_self)
      · have others := ih first.1
        dsimp only
        generalize t.fileCounts rest = outcome at others ⊢
        obtain ⟨trouble | counts, u⟩ := outcome <;> refine ⟨others.1, ?_⟩ <;> intro inside
        · cases others.2 fun file member => inside file (List.mem_cons_of_mem _ member)
        · cases first.2 (inside file List.mem_cons_self)
          cases others.2 fun file member => inside file (List.mem_cons_of_mem _ member)
          rfl

/-- The counts by the log are those of what git replied. -/
theorem historyCounts (tight : Text.Tight root.text) (wanted : List Path) :
    (s.historyCounts wanted).2.Informed workers root top history files ∧
      ∃ asked log, s.git.answer s.patience asked (.log top) = .ok (some log) ∧
        (s.historyCounts wanted).1 = .ok (countsOf top wanted (ofLog log)) := by
  have step := s.historyCounts_step wanted
  generalize s.historyCounts wanted = outcome at step ⊢
  obtain ⟨answer, u⟩ := outcome
  cases step with
  | stopped root => cases (informed.rootStep tight root).1
  | nothing root nothing =>
      obtain ⟨named, informedThere⟩ := informed.rootStep tight root
      cases named
      obtain ⟨records, -, -, reply⟩ := informed.answers.log []
      -- The log is not even asked for, but any log would count nothing.
      rw [nothing.resolve_left (by simp)]
      exact ⟨informedThere, [], _, reply, congrArg _ (countsOf_nil _).symm⟩
  | refused root _ refused =>
      obtain ⟨named, informedThere⟩ := informed.rootStep tight root
      cases named
      obtain ⟨records, -, -, reply⟩ := informedThere.answers.log _
      cases refused.symm.trans reply
  | @told _ _ t root _ told =>
      obtain ⟨named, informedThere⟩ := informed.rootStep tight root
      cases named
      obtain ⟨records, -, -, reply⟩ := informedThere.answers.log t.asked
      cases told.symm.trans reply
      rw [root.git.1, root.git.2.1] at reply
      exact ⟨⟨informedThere.workers, informedThere.answers, informedThere.knowsTop,
        informedThere.knowsCounts⟩, t.asked, _, reply, rfl⟩

/-- The counts file by file are those of what git replied. No other thing stops them than the pool. -/
theorem perFileCounts (tight : Text.Tight root.text) (repository : Repository history)
    (wanted : List Path) :
    (s.perFileCounts wanted).2.Informed workers root top history files ∧
      ((∀ file ∈ wanted, file ∈ files) → (s.perFileCounts wanted).1 =
        match poolProblem? workers with
        | some problem => if wanted = [] then .ok [] else .error (.pool problem)
        | none => .ok (countsOfEach history top wanted)) := by
  have step := s.perFileCounts_step wanted
  generalize s.perFileCounts wanted = outcome at step ⊢
  obtain ⟨answer, u⟩ := outcome
  cases step with
  | stopped root => cases (informed.rootStep tight root).1
  | nothing root nothing =>
      obtain ⟨named, informedThere⟩ := informed.rootStep tight root
      cases named
      rw [nothing.resolve_left (by simp)]
      refine ⟨informedThere, fun _ => ?_⟩
      cases poolProblem? workers <;> rfl
  | pool root nonempty pool =>
      have informedThere := (informed.rootStep tight root).2
      rw [informedThere.workers] at pool
      refine ⟨informedThere, fun _ => ?_⟩
      simp only [pool, if_neg nonempty]
  | @asked _ t root nonempty pool =>
      have informedThere := (informed.rootStep tight root).2
      obtain ⟨informedLater, counted⟩ := informedThere.fileCounts repository wanted
      rw [informedThere.workers] at pool
      refine ⟨informedLater, fun inside => ?_⟩
      rw [counted inside, pool]
      rfl

theorem answer (tight : Text.Tight root.text) (repository : Repository history) (call : Call) :
    (s.answer call).2.Informed workers root top history files := by
  cases call with
  | toplevel => exact (informed.rootStep tight s.toplevel_step).2
  | historyCounts wanted => exact (informed.historyCounts tight wanted).1
  | perFileCounts wanted => exact (informed.perFileCounts tight repository wanted).1
  | fileCount file => exact (informed.fileStep repository (s.fileCount_step file)).1

end Informed

/-- The session behind a row of calls. -/
def after (s : Session) (calls : List Call) : Session :=
  calls.foldl (fun s call => (s.answer call).2) s

theorem Informed.after (informed : s.Informed workers root top history files)
    (tight : Text.Tight root.text) (repository : Repository history) (calls : List Call) :
    (s.after calls).Informed workers root top history files := by
  induction calls generalizing s with
  | nil => exact informed
  | cons call rest ih => exact ih (informed.answer tight repository call)

theorem informed_start {git : Git} {patience : Amount} {disk : Disk} {folder : Path}
    (answers : git.Answers patience disk folder root top history files) (workers : Amount) :
    (start disk git patience workers folder).Informed workers root top history files where
  workers := rfl
  answers := answers
  knowsTop := nofun
  knowsCounts := nofun

end Session

/-- Whatever a session was asked before, the two ways of counting give the same counts: to each
    wanted file that commits touch, their number. Files are counted one by one unless
    nothing can be asked about them. -/
theorem countings_agree {disk : Disk} {git : Git} {patience : Amount} {folder root top : Path}
    {history : List Commit} {files : List Path}
    (answers : git.Answers patience disk folder root top history files)
    (tight : Text.Tight root.text) (repository : Repository history)
    (plain : ∀ c ∈ history, ∀ name ∈ c.names, PlainName name) (workers : Amount)
    (calls more : List Call) :
    let start := Session.start disk git patience workers folder
    let byLog := ((start.after calls).historyCounts files).1
    let byFile := ((start.after more).perFileCounts files).1
    ∃ counts : Counts, byLog = .ok counts ∧ counts.Tell history top files ∧
      match poolProblem? workers with
      | some problem => byFile = if files = [] then .ok counts else .error (.pool problem)
      | none => ∃ others, byFile = .ok others ∧ counts.Perm others ∧ others.Tell history top files := by
  intro start byLog byFile
  have begun : start.Informed workers root top history files :=
    Session.informed_start answers workers
  obtain ⟨-, asked, log, reply, counted⟩ :=
    (begun.after tight repository calls).historyCounts tight files
  have informed := begun.after tight repository calls
  obtain ⟨records, whole, closed, told⟩ := informed.answers.log asked
  -- Two replies to one question, so the log is the one that git wrote.
  cases reply.symm.trans told
  have legible : ∀ r ∈ records, r.commit.Legible := by
    intro r member
    have inside : r.commit ∈ history := whole ▸ List.mem_map_of_mem member
    exact (repository.tracked _ inside).legible (plain _ inside)
  have tells : (ofLog (render records)).Tells history :=
    whole ▸ (lists_render legible closed).tells
  have tell := @Session.tell_countsOf history top files repository _ tells
  have counts := ((begun.after tight repository more).perFileCounts tight repository files).2
    fun _ member => member
  refine ⟨_, counted, tell, ?_⟩
  cases pool : poolProblem? workers with
  | some problem =>
      rw [pool] at counts
      by_cases empty : files = []
      · subst empty
        exact counts.trans (congrArg _ (Session.countsOf_nil _).symm)
      · simpa only [if_neg empty] using counts
  | none =>
      rw [pool] at counts
      have tellFiles := Session.tell_countsOfEach history top files
      exact ⟨_, counts, tell.perm tellFiles, tellFiles⟩


theorem isRelativeName_component {name : String} (named : isComponent name = true)
    (down : name ≠ "..") : IsRelativeName name :=
  ⟨[name], List.cons_ne_nil _ _, List.forall_mem_singleton.mpr ⟨named, down⟩,
    (Path.joined_singleton name).symm⟩

/-- Two files and one in a folder, one of them touched twice, and a commit without files. -/
def smallHistory : List Commit := [⟨"a1", ["x.ts", "y z.ts"]⟩, ⟨"b2", []⟩, ⟨"c3", ["lib/x.ts", "x.ts"]⟩]

theorem repository_smallHistory : Repository smallHistory where
  distinct := by decide
  tracked := by
    simp only [smallHistory, List.forall_mem_cons]
    refine ⟨⟨by decide, ?_⟩, ⟨by decide, by simp⟩, ⟨by decide, ?_⟩, by simp⟩
    all_goals simp only [List.forall_mem_cons]
    · exact ⟨⟨isRelativeName_component (by decide) (by decide), by decide⟩,
        ⟨isRelativeName_component (by decide) (by decide), by decide⟩, by simp⟩
    · exact ⟨⟨⟨["lib", "x.ts"], by decide, by decide, by decide⟩, by decide⟩,
        ⟨isRelativeName_component (by decide) (by decide), by decide⟩, by simp⟩

/-- A working tree at `/r`. -/
def workTree : Disk := .holding [] .full

theorem waitProblem?_ten (q : Question) : waitProblem? q.patience (.whole 10) = none := by
  have short : ¬(longestWait : Int) < 10 * (q.patience : Int) * 1000 := by
    have few : q.patience ≤ 6 := by cases q <;> simp [Question.patience]
    simp only [longestWait]
    omega
  exact if_neg short

/-- A git that tells who waits ten seconds a history of the working tree. -/
theorem answers_workTree (history : List Commit) {files : List Path}
    (free : ∀ p ∈ files, p.hasNul = false) :
    let root := Path.parse "/r"
    (Git.telling root root history).Answers (.whole 10) workTree root root root history files :=
  Git.answers_telling waitProblem?_ten Disk.resolve_holding (by decide) (by decide) free history

theorem countings_agree_small :
    let root := Path.parse "/r"
    let git := Git.telling root root smallHistory
    let files := [Path.parse "/r/lib/x.ts", Path.parse "/r/x.ts", Path.parse "/r/new.ts"]
    let start := Session.start workTree git (.whole 10) (.whole 4) root
    let byLog := ((start.after [.fileCount (Path.parse "/r/x.ts")]).historyCounts files).1
    let byFile := ((start.after []).perFileCounts files).1
    ∃ counts : Counts, byLog = .ok counts ∧ counts.Tell smallHistory root files ∧
      ∃ others, byFile = .ok others ∧ counts.Perm others ∧ others.Tell smallHistory root files :=
  countings_agree (answers_workTree smallHistory (by decide)) (by decide) repository_smallHistory
    (by decide) (.whole 4) [.fileCount (Path.parse "/r/x.ts")] []

/-- A commit that touches a file whose name looks like a header. -/
def misreadHistory : List Commit := [⟨"a1", ["commit:x.ts", "y.ts"]⟩]

/-- The name that looks like a header is lost from the log, and the other file is counted for the
    commit that the name seems to introduce. -/
theorem countings_differ :
    let root := Path.parse "/r"
    let git := Git.telling root root misreadHistory
    let files := [Path.parse "/r/commit:x.ts", Path.parse "/r/y.ts"]
    let start := Session.start workTree git (.whole 10) (.whole 4) root
    git.Answers (.whole 10) workTree root root root misreadHistory files ∧ Text.Tight root.text ∧
      Repository misreadHistory ∧ poolProblem? (.whole 4) = none ∧
      (start.historyCounts files).1 = .ok [(Path.parse "/r/y.ts", 1)] ∧
      (start.perFileCounts files).1 =
        .ok [(Path.parse "/r/commit:x.ts", 1), (Path.parse "/r/y.ts", 1)] ∧
      ¬∃ counts others : Counts, (start.historyCounts files).1 = .ok counts ∧
        (start.perFileCounts files).1 = .ok others ∧ counts.Perm others := by
  intro root git files start
  have answers : git.Answers (.whole 10) workTree root root root misreadHistory files :=
    answers_workTree misreadHistory (by decide)
  have tight : Text.Tight root.text := by decide
  have repository : Repository misreadHistory := by
    refine ⟨by decide, List.forall_mem_singleton.mpr ⟨by decide, ?_⟩⟩
    simp only [List.forall_mem_cons]
    exact ⟨⟨isRelativeName_component (by decide) (by decide), by decide⟩,
      ⟨isRelativeName_component (by decide) (by decide), by decide⟩, by simp⟩
  have begun := Session.informed_start answers (.whole 4)
  have byLog : (start.historyCounts files).1 = .ok [(Path.parse "/r/y.ts", 1)] := by
    obtain ⟨-, asked, log, reply, counts⟩ := begun.historyCounts tight files
    cases Git.answer_eq_text reply
    rw [counts]
    decide +kernel
  have byFile : (start.perFileCounts files).1 =
      .ok [(Path.parse "/r/commit:x.ts", 1), (Path.parse "/r/y.ts", 1)] := by
    rw [(begun.perFileCounts tight repository files).2 fun _ member => member]
    decide
  refine ⟨answers, tight, repository, by decide, byLog, byFile, ?_⟩
  rintro ⟨counts, others, counted, countedToo, same⟩
  cases byLog.symm.trans counted
  cases byFile.symm.trans countedToo
  exact absurd same.length_eq (by decide)

end RepoAtlas.History
