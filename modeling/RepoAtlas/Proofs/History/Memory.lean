import RepoAtlas.Proofs.History.Session
import RepoAtlas.Proofs.Index

/-! # What a session remembers

Git may answer the same question differently each time. A session asks for the root of the working
tree once and about each file once, whatever it is called for and in whatever order, and all that it
tells about a root or a file later on is what git said then. Because git may answer anything, it
makes no difference in which order the files of one call are asked about.
-/

namespace RepoAtlas.History

/-! ## First replies -/

namespace Question

def isToplevel : Question → Bool
  | .toplevel _ => true
  | _ => false

/-- Does the question ask for the commits of the file? -/
def isAbout (file : Path) : Question → Bool
  | .commitsOf _ other => other = file
  | _ => false

end Question

/-- The reply to the first question of a kind, with the questions that were asked before. -/
def Git.firstReply? (git : Git) (wanted : Question → Bool) (before : List Question) :
    List Question → Option Reply
  | [] => none
  | q :: rest =>
    if wanted q then some (git.reply before q) else git.firstReply? wanted (before ++ [q]) rest

/-- The commits that a reply about a file comes to; a failure comes to none. -/
def Reply.count (reply : Reply) : Int := (reply.text?.map Session.countLines).getD 0

/-- The count of the first reply about a file. -/
def Git.firstCount? (git : Git) (asked : List Question) (file : Path) : Option Int :=
  (git.firstReply? (Question.isAbout file) [] asked).map Reply.count

section FirstReply

variable {git : Git} {wanted : Question → Bool} {before asked : List Question} {q : Question}

theorem firstReply?_eq_none_iff :
    git.firstReply? wanted before asked = none ↔ ∀ q ∈ asked, wanted q = false := by
  induction asked generalizing before with
  | nil => simp [Git.firstReply?]
  | cons q rest ih =>
      rw [Git.firstReply?, List.forall_mem_cons]
      cases wanted q with
      | true => simp
      | false => simpa using ih

theorem firstReply?_append (more : List Question) :
    git.firstReply? wanted before (asked ++ more) =
      (git.firstReply? wanted before asked).or (git.firstReply? wanted (before ++ asked) more) := by
  induction asked generalizing before with
  | nil => simp [Git.firstReply?]
  | cons q rest ih =>
      rw [List.cons_append, Git.firstReply?, Git.firstReply?]
      cases wanted q with
      | true => rfl
      | false => simpa using @ih (before ++ [q])

theorem firstCount?_mono {more : List Question} {file : Path} {n : Int}
    (first : git.firstCount? asked file = some n) :
    git.firstCount? (asked ++ more) file = some n := by
  obtain ⟨reply, found, counted⟩ := Option.map_eq_some_iff.mp first
  rw [Git.firstCount?, firstReply?_append, found, Option.some_or, Option.map_some, counted]

end FirstReply

namespace Session

/-! ## Sessions that remember -/

/-- All that the first session knows is still known in the second one. -/
structure Leads (s t : Session) : Prop where
  disk : t.disk = s.disk
  git : t.git = s.git
  patience : t.patience = s.patience
  workers : t.workers = s.workers
  folder : t.folder = s.folder
  asked : s.asked <+: t.asked
  top : ∀ root, s.top = some root → t.top = some root
  known : ∀ file n, s.known.lookup file = some n → t.known.lookup file = some n

/-- What a session knows is what git replied when it was asked first, and git was asked no second
    time. -/
structure Remembers (s : Session) : Prop where
  rootUnasked : s.top = none → ∀ q ∈ s.asked, q.isToplevel = false
  rootOnce : s.asked.countP Question.isToplevel ≤ 1
  known : ∀ file, s.known.lookup file = s.git.firstCount? s.asked file
  fileOnce : ∀ file, s.asked.countP (Question.isAbout file) ≤ 1

variable {s t u : Session}

theorem Leads.refl (s : Session) : s.Leads s where
  disk := rfl
  git := rfl
  patience := rfl
  workers := rfl
  folder := rfl
  asked := List.prefix_refl _
  top _ known := known
  known _ _ known := known

theorem Leads.trans (first : s.Leads t) (second : t.Leads u) : s.Leads u where
  disk := second.disk.trans first.disk
  git := second.git.trans first.git
  patience := second.patience.trans first.patience
  workers := second.workers.trans first.workers
  folder := second.folder.trans first.folder
  asked := first.asked.trans second.asked
  top root known := second.top root (first.top root known)
  known file n known := second.known file n (first.known file n known)

theorem Remembers.unasked (remembers : s.Remembers) {file : Path}
    (unknown : s.known.lookup file = none) : ∀ q ∈ s.asked, q.isAbout file = false := by
  rw [remembers.known, Git.firstCount?, Option.map_eq_none_iff] at unknown
  exact firstReply?_eq_none_iff.mp unknown

/-! ## One question more -/

/-- One question leads from one session to the other: for a root that was unknown, for a file that was
    unknown, or for a log, which is not kept. -/
structure Asks (s : Session) (q : Question) (t : Session) : Prop where
  disk : t.disk = s.disk
  git : t.git = s.git
  patience : t.patience = s.patience
  workers : t.workers = s.workers
  folder : t.folder = s.folder
  asked : t.asked = s.asked ++ [q]
  top : if q.isToplevel then s.top = none ∧ t.top ≠ none else t.top = s.top
  known : ∀ file, if q.isAbout file then
      s.known.lookup file = none ∧ t.known.lookup file = some (s.git.reply s.asked q).count
    else t.known.lookup file = s.known.lookup file

theorem Asks.leads {q : Question} (asks : s.Asks q t) : s.Leads t where
  disk := asks.disk
  git := asks.git
  patience := asks.patience
  workers := asks.workers
  folder := asks.folder
  asked := asks.asked ▸ List.prefix_append _ _
  top root found := by
    have top := asks.top
    split at top
    · exact absurd (top.1.symm.trans found) (by simp)
    · exact top.trans found
  known file n found := by
    have known := asks.known file
    split at known
    · exact absurd (known.1.symm.trans found) (by simp)
    · exact known.trans found

theorem Remembers.asks {q : Question} (remembers : s.Remembers) (asks : s.Asks q t) :
    t.Remembers where
  rootUnasked unknown p member := by
    rw [asks.asked, List.mem_append, List.mem_singleton] at member
    have top := asks.top
    split at top
    case isTrue => exact absurd unknown top.2
    case isFalse other =>
      rcases member with old | rfl
      · exact remembers.rootUnasked (top.symm.trans unknown) p old
      · exact Bool.eq_false_iff.mpr other
  rootOnce := by
    rw [asks.asked, List.countP_append, List.countP_singleton]
    have top := asks.top
    split at top
    case isTrue root =>
      have none : s.asked.countP Question.isToplevel = 0 :=
        List.countP_eq_zero.mpr fun p old => by simp [remembers.rootUnasked top.1 p old]
      simp [none, root]
    case isFalse other =>
      rw [if_neg other]
      exact remembers.rootOnce
  known file := by
    have before := remembers.known file
    have known := asks.known file
    rw [asks.git, asks.asked, Git.firstCount?, firstReply?_append, List.nil_append,
      Git.firstReply?]
    rw [Git.firstCount?] at before
    split at known
    case isTrue about =>
      rw [known.1, eq_comm, Option.map_eq_none_iff] at before
      rw [before, if_pos about, Option.none_or, Option.map_some, known.2]
    case isFalse other => rw [if_neg other, Git.firstReply?, Option.or_none, known, before]
  fileOnce file := by
    rw [asks.asked, List.countP_append, List.countP_singleton]
    have known := asks.known file
    split at known
    case isTrue about =>
      have none : s.asked.countP (Question.isAbout file) = 0 :=
        List.countP_eq_zero.mpr fun p old => by simp [remembers.unasked known.1 p old]
      simp [none, about]
    case isFalse other =>
      rw [if_neg other]
      exact remembers.fileOnce file

theorem asks_root (unknown : s.top = none) (root : Option Path) :
    s.Asks (.toplevel s.folder)
      { s with top := some root, asked := s.asked ++ [.toplevel s.folder] } where
  disk := rfl
  git := rfl
  patience := rfl
  workers := rfl
  folder := rfl
  asked := rfl
  top := ⟨unknown, by simp⟩
  known _ := rfl

theorem asks_log (s : Session) (top : Path) :
    s.Asks (.log top) { s with asked := s.asked ++ [.log top] } where
  disk := rfl
  git := rfl
  patience := rfl
  workers := rfl
  folder := rfl
  asked := rfl
  top := rfl
  known _ := rfl

theorem asks_file {file : Path} {reply : Option String} (unknown : s.known.lookup file = none)
    (told : s.git.answer s.patience s.asked (.commitsOf s.folder file) = .ok reply) :
    s.Asks (.commitsOf s.folder file)
      { s with
        asked := s.asked ++ [.commitsOf s.folder file]
        known := putLast file ((reply.map countLines).getD 0) s.known } where
  disk := rfl
  git := rfl
  patience := rfl
  workers := rfl
  folder := rfl
  asked := rfl
  top := rfl
  known other := by
    simp only [Question.isAbout, decide_eq_true_eq, lookup_putLast, beq_iff_eq]
    split
    case isTrue same =>
      subst same
      exact ⟨unknown, by simp [Reply.count, Git.answer_eq_text told]⟩
    case isFalse apart => rw [if_neg (Ne.symm apart)]

/-! ## What the calls do -/

/-- Why a session has no root: git named one that cannot be resolved, or was not to be asked. -/
inductive RootFails (later : Session) : Trouble → List Question → Prop
  | unresolvable {out : String} {problem : Unresolvable}
      (first : (later.git.firstReply? Question.isToplevel [] later.asked).bind Reply.text? = some out)
      (failed : later.disk.resolve (Path.parse (Text.strip out)) = .error problem) :
      RootFails later (.unresolvable problem) [.toplevel later.folder]
  | refused {refusal : Refusal} (reason : ∃ before,
        later.git.answer later.patience before (.toplevel later.folder) = .error refusal) :
      RootFails later (.refused refusal) []

theorem Remembers.without (remembers : s.Remembers) : { s with top := some none }.Remembers where
  rootUnasked := nofun
  rootOnce := remembers.rootOnce
  known := remembers.known
  fileOnce := remembers.fileOnce

theorem leads_without (unknown : s.top = none) : s.Leads { s with top := some none } where
  disk := rfl
  git := rfl
  patience := rfl
  workers := rfl
  folder := rfl
  asked := List.prefix_refl _
  top _ found := absurd (unknown.symm.trans found) (by simp)
  known _ _ known := known

/-- What a session knows behind a call that needed the root. -/
def KnowsRoot (later : Session) (asked : List Question) : Except Trouble (Option Path) → Prop
  | .ok root => later.top = some root
  | .error trouble => later.top = some none ∧ later.RootFails trouble asked

/-- The root is known behind every call that needs it, or it is known that there is none. -/
theorem Remembers.rootStep (remembers : s.Remembers) {answer : Except Trouble (Option Path)}
    (step : s.RootStep answer t) :
    t.Remembers ∧ s.Leads t ∧ ∃ new, t.asked = s.asked ++ new ∧
      (∀ q ∈ new, q.isToplevel = true) ∧ t.KnowsRoot new answer := by
  have one : ∀ q ∈ [Question.toplevel s.folder], q.isToplevel = true :=
    List.forall_mem_singleton.mpr rfl
  cases step with
  | known known => exact ⟨remembers, Leads.refl s, [], by simp, by simp, known⟩
  | absent unknown => exact ⟨remembers.without, leads_without unknown, [], by simp, by simp, rfl⟩
  | refused unknown _ refused =>
      exact ⟨remembers.without, leads_without unknown, [], by simp, by simp, rfl,
        .refused ⟨s.asked, refused⟩⟩
  | unresolvable unknown _ told _ failed =>
      have asks := asks_root unknown none
      have unasked : s.git.firstReply? Question.isToplevel [] s.asked = none :=
        firstReply?_eq_none_iff.mpr (remembers.rootUnasked unknown)
      refine ⟨remembers.asks asks, asks.leads, _, rfl, one, rfl, .unresolvable ?_ failed⟩
      rw [asks.asked, firstReply?_append, unasked, Option.none_or]
      exact (Git.answer_eq_text told).symm
  | @told _ root unknown =>
      have asks := asks_root unknown root
      exact ⟨remembers.asks asks, asks.leads, _, rfl, one, rfl⟩

/-- What the second session knows of a file that the first one was to count. -/
def KnowsFile (s : Session) (file : Path) (later : Session) : Except Trouble Int → Prop
  | .ok n => later.known.lookup file = some n
  | .error trouble => later = s ∧ ∃ refusal, trouble = .refused refusal ∧
      s.git.answer s.patience s.asked (.commitsOf s.folder file) = .error refusal

/-- The count of a file is known behind the call for it, unless the question was refused. -/
theorem Remembers.fileStep (remembers : s.Remembers) {file : Path} {answer : Except Trouble Int}
    (step : s.FileStep file answer t) :
    t.Remembers ∧ s.Leads t ∧ KnowsFile s file t answer := by
  cases step with
  | known known => exact ⟨remembers, Leads.refl s, known⟩
  | refused _ refused => exact ⟨remembers, Leads.refl s, rfl, _, rfl, refused⟩
  | told unknown told =>
      have asks := asks_file unknown told
      refine ⟨remembers.asks asks, asks.leads, ?_⟩
      rw [KnowsFile, lookup_putLast, beq_self_eq_true, if_pos rfl]

theorem map_fileCounts {s : Session} {files : List Path} {counts : Counts}
    (counted : (s.fileCounts files).1 = .ok counts) : counts.map (·.1) = files := by
  induction files generalizing s counts with
  | nil =>
      cases counted
      rfl
  | cons file rest ih =>
      rw [Session.fileCounts] at counted
      generalize s.fileCount file = first at counted
      obtain ⟨trouble | count, t⟩ := first
      · cases counted
      · dsimp only at counted
        generalize others : t.fileCounts rest = later at counted
        obtain ⟨trouble | more, u⟩ := later
        · cases counted
        · cases counted
          rw [List.map_cons, ih (congrArg Prod.fst others)]

/-- What the second session knows of the files that the first one was to count. -/
def KnowsFiles (s : Session) (files : List Path) (later : Session) : Except Trouble Counts → Prop
  | .ok counts => ∀ pair ∈ counts, later.known.lookup pair.1 = some pair.2
  | .error trouble => ∃ file ∈ files, ∃ refusal before, trouble = .refused refusal ∧
      s.git.answer s.patience before (.commitsOf s.folder file) = .error refusal

/-- Behind a call for several files the counts that it gives are known; it gives none if a question
    about one of them was refused. -/
theorem Remembers.fileCounts (remembers : s.Remembers) (files : List Path) :
    (s.fileCounts files).2.Remembers ∧ s.Leads (s.fileCounts files).2 ∧
      KnowsFiles s files (s.fileCounts files).2 (s.fileCounts files).1 := by
  induction files generalizing s with
  | nil => exact ⟨remembers, Leads.refl s, List.forall_mem_nil _⟩
  | cons file rest ih =>
      have first := remembers.fileStep (s.fileCount_step file)
      rw [Session.fileCounts]
      generalize s.fileCount file = outcome at first ⊢
      obtain ⟨trouble | count, t⟩ := outcome
      · obtain ⟨remembers, leads, -, refusal, rfl, refused⟩ := first
        exact ⟨remembers, leads, file, List.mem_cons_self, refusal, _, rfl, refused⟩
      · obtain ⟨remembers, leads, known⟩ := first
        have later := ih remembers
        dsimp only
        generalize t.fileCounts rest = others at later ⊢
        obtain ⟨trouble | counts, u⟩ := others
        · obtain ⟨remembers, leadsRest, other, wanted, refusal, before, rfl, refused⟩ := later
          rw [leads.git, leads.patience, leads.folder] at refused
          exact ⟨remembers, leads.trans leadsRest, other, List.mem_cons_of_mem file wanted, refusal,
            before, rfl, refused⟩
        · obtain ⟨remembers, leadsRest, counted⟩ := later
          exact ⟨remembers, leads.trans leadsRest,
            List.forall_mem_cons.mpr ⟨leadsRest.known file _ known, counted⟩⟩

end Session

/-! ## What a call gives -/

/-- A call of a session, what it gave and the questions that it asked. -/
structure Event where
  call : Call
  answer : Except Trouble Answer
  asked : List Question

/-- An event is as a later session has it: roots are the root that it knows, counts are those of the
    first replies that it got, and what was not given was refused. -/
inductive Event.Stands (later : Session) : Event → Prop
  /-- There is no root to be had. The session goes on without one. -/
  | rootless {call : Call} {trouble : Trouble} {asked : List Question}
      (needsRoot : ∀ file, call ≠ .fileCount file) (known : later.top = some none)
      (fails : later.RootFails trouble asked) : Stands later ⟨call, .error trouble, asked⟩
  | root {root : Option Path} {asked : List Question} (known : later.top = some root) :
      Stands later ⟨.toplevel, .ok (.root root), asked⟩
  | byLog {files : List Path} {root : Option Path} {counts : Counts} {asked : List Question}
      (known : later.top = some root)
      (few : asked.countP (!·.isToplevel) ≤ 1)
      (rootless : root = none → counts = [] ∧ ∀ q ∈ asked, q.isToplevel = true) :
      Stands later ⟨.historyCounts files, .ok (.counts counts), asked⟩
  | logRefused {files : List Path} {top : Path} {refusal : Refusal} {asked : List Question}
      (known : later.top = some (some top)) (quiet : ∀ q ∈ asked, q.isToplevel = true)
      (reason : ∃ before, later.git.answer later.patience before (.log top) = .error refusal) :
      Stands later ⟨.historyCounts files, .error (.refused refusal), asked⟩
  | byFile {files : List Path} {root : Option Path} {counts : Counts} {asked : List Question}
      (known : later.top = some root)
      (first : ∀ pair ∈ counts, later.git.firstCount? later.asked pair.1 = some pair.2)
      (absent : root ≠ none → ∀ file ∈ files,
        counts.lookup file = none ↔ later.git.firstCount? later.asked file = some 0)
      (rootless : root = none → counts = [] ∧ ∀ q ∈ asked, q.isToplevel = true) :
      Stands later ⟨.perFileCounts files, .ok (.counts counts), asked⟩
  | filesRefused {files : List Path} {top file : Path} {refusal : Refusal} {asked : List Question}
      (known : later.top = some (some top)) (wanted : file ∈ files)
      (reason : ∃ before, later.git.answer later.patience before (.commitsOf later.folder file) =
        .error refusal) :
      Stands later ⟨.perFileCounts files, .error (.refused refusal), asked⟩
  | poolRefused {files : List Path} {top : Path} {problem : PoolProblem} {asked : List Question}
      (known : later.top = some (some top)) (quiet : ∀ q ∈ asked, q.isToplevel = true)
      (reason : poolProblem? later.workers = some problem) :
      Stands later ⟨.perFileCounts files, .error (.pool problem), asked⟩
  | count {file : Path} {n : Int} {asked : List Question}
      (first : later.git.firstCount? later.asked file = some n) :
      Stands later ⟨.fileCount file, .ok (.count n), asked⟩
  | fileRefused {file : Path} {refusal : Refusal}
      (reason : ∃ before, later.git.answer later.patience before (.commitsOf later.folder file) =
        .error refusal) :
      Stands later ⟨.fileCount file, .error (.refused refusal), []⟩

/-- The event leads from one session to the other. -/
structure Event.Happens (s : Session) (e : Event) (t : Session) : Prop where
  remembers : t.Remembers
  leads : s.Leads t
  asked : t.asked = s.asked ++ e.asked
  stands : e.Stands t

section Events

variable {s t u : Session} {e : Event} {files : List Path}

theorem Reply.count_nonneg (reply : Reply) : 0 ≤ reply.count := by
  cases told : reply.text? <;> simp [Reply.count, told, Session.countLines]

theorem firstCount?_nonneg {git : Git} {asked : List Question} {file : Path} {n : Int}
    (first : git.firstCount? asked file = some n) : 0 ≤ n := by
  obtain ⟨reply, -, rfl⟩ := Option.map_eq_some_iff.mp first
  exact reply.count_nonneg

/-- Of the counts of a list the positive ones are kept, so a count that is missing was none. -/
theorem lookup_positive_eq_none_iff {pairs : Counts} {file : Path} {n : Int}
    (member : (file, n) ∈ pairs) (agree : ∀ pair ∈ pairs, pair.1 = file → pair.2 = n)
    (nonneg : 0 ≤ n) :
    (Session.positives pairs).lookup file = none ↔ n = 0 := by
  have kept : file ∈ (pairs.filter fun pair => 0 < pair.2).map (·.1) ↔ 0 < n := by
    constructor
    · intro inside
      obtain ⟨pair, kept, same⟩ := List.mem_map.mp inside
      obtain ⟨listed, positive⟩ := List.mem_filter.mp kept
      rw [← agree pair listed same]
      exact of_decide_eq_true positive
    · intro positive
      exact List.mem_map_of_mem (List.mem_filter.mpr ⟨member, decide_eq_true_eq.mpr positive⟩)
  have agreeKept : ∀ pair ∈ pairs.filter fun pair => 0 < pair.2, pair.1 = file → pair.2 = n := by
    intro pair kept
    exact agree pair (List.mem_filter.mp kept).1
  rw [Session.positives, lookup_foldl_putLast agreeKept]
  split
  case isTrue inside =>
    have positive := kept.mp inside
    simp only [reduceCtorEq, false_iff]
    omega
  case isFalse outside =>
    have none := mt kept.mpr outside
    simp only [true_iff]
    omega

theorem Session.Leads.firstCount? (leads : s.Leads t) {file : Path} {n : Int}
    (first : s.git.firstCount? s.asked file = some n) :
    t.git.firstCount? t.asked file = some n := by
  obtain ⟨more, asked⟩ := leads.asked
  rw [leads.git, ← asked]
  exact firstCount?_mono first

theorem Session.RootFails.mono {trouble : Trouble} {asked : List Question}
    (fails : s.RootFails trouble asked) (leads : s.Leads t) : t.RootFails trouble asked := by
  cases fails with
  | unresolvable first failed =>
      obtain ⟨reply, found, told⟩ := Option.bind_eq_some_iff.mp first
      obtain ⟨more, asked⟩ := leads.asked
      rw [← leads.folder]
      refine .unresolvable ?_ (leads.disk ▸ failed)
      rw [leads.git, ← asked, firstReply?_append, found]
      exact told
  | refused reason =>
      rw [← leads.git, ← leads.patience, ← leads.folder] at reason
      exact .refused reason

theorem Event.Stands.mono (stands : e.Stands s) (leads : s.Leads t) : e.Stands t := by
  cases stands with
  | rootless needsRoot known fails =>
      exact .rootless needsRoot (leads.top none known) (fails.mono leads)
  | root known => exact .root (leads.top _ known)
  | byLog known few rootless => exact .byLog (leads.top _ known) few rootless
  | logRefused known quiet reason =>
      rw [← leads.git, ← leads.patience] at reason
      exact .logRefused (leads.top _ known) quiet reason
  | byFile known first absent rootless =>
      apply Event.Stands.byFile (leads.top _ known) _ _ rootless
      · intro pair member
        exact leads.firstCount? (first pair member)
      · intro someRoot file wanted
        have now := absent someRoot file wanted
        constructor
        · intro missing
          exact leads.firstCount? (now.mp missing)
        · intro none
          -- What is counted now is counted later, so a count there would have to be zero.
          cases found : List.lookup file _ with
          | none => rfl
          | some n =>
              have counted := first _ (mem_of_lookup found)
              have zero : n = 0 := by simpa [leads.firstCount? counted] using none
              subst zero
              exact found.symm.trans (now.mpr counted)
  | filesRefused known wanted reason =>
      rw [← leads.git, ← leads.patience, ← leads.folder] at reason
      exact .filesRefused (leads.top _ known) wanted reason
  | poolRefused known quiet reason =>
      exact .poolRefused (leads.top _ known) quiet (leads.workers ▸ reason)
  | count first => exact .count (leads.firstCount? first)
  | fileRefused reason =>
      rw [← leads.git, ← leads.patience, ← leads.folder] at reason
      exact .fileRefused reason

namespace Session

theorem countP_eq_zero_of_toplevels {asked : List Question}
    (toplevels : ∀ q ∈ asked, q.isToplevel = true) : asked.countP (!·.isToplevel) = 0 := by
  apply List.countP_eq_zero.mpr
  intro q member
  simp [toplevels q member]

theorem Remembers.happens_toplevel (remembers : s.Remembers) :
    ∃ asked, Event.Happens s ⟨.toplevel, s.toplevel.1.map .root, asked⟩ s.toplevel.2 := by
  have root := remembers.rootStep s.toplevel_step
  generalize s.toplevel = outcome at root ⊢
  obtain ⟨trouble | root?, t⟩ := outcome
  · obtain ⟨remembers, leads, new, asked, -, known, fails⟩ := root
    exact ⟨new, remembers, leads, asked, .rootless nofun known fails⟩
  · obtain ⟨remembers, leads, new, asked, -, known⟩ := root
    exact ⟨new, remembers, leads, asked, .root known⟩

theorem Remembers.happens_fileCount (remembers : s.Remembers) (file : Path) :
    ∃ asked, Event.Happens s ⟨.fileCount file, (s.fileCount file).1.map .count, asked⟩
      (s.fileCount file).2 := by
  have step := remembers.fileStep (s.fileCount_step file)
  generalize s.fileCount file = outcome at step ⊢
  obtain ⟨trouble | n, t⟩ := outcome
  · obtain ⟨remembers, leads, rfl, refusal, rfl, refused⟩ := step
    exact ⟨[], remembers, leads, by simp, .fileRefused ⟨_, refused⟩⟩
  · obtain ⟨remembers, leads, known⟩ := step
    obtain ⟨new, asked⟩ := leads.asked
    exact ⟨new, remembers, leads, asked.symm, .count (remembers.known file ▸ known)⟩

theorem Remembers.happens_historyCounts (remembers : s.Remembers) (files : List Path) :
    ∃ asked, Event.Happens s ⟨.historyCounts files, (s.historyCounts files).1.map .counts, asked⟩
      (s.historyCounts files).2 := by
  have step := s.historyCounts_step files
  generalize s.historyCounts files = outcome at step ⊢
  obtain ⟨answer, u⟩ := outcome
  cases step with
  | stopped root =>
      obtain ⟨remembers, leads, new, asked, -, known, fails⟩ := remembers.rootStep root
      exact ⟨new, remembers, leads, asked, .rootless nofun known fails⟩
  | nothing root =>
      obtain ⟨remembers, leads, new, asked, toplevels, known⟩ := remembers.rootStep root
      refine ⟨new, remembers, leads, asked, .byLog known ?_ fun _ => ⟨rfl, toplevels⟩⟩
      rw [countP_eq_zero_of_toplevels toplevels]
      exact Nat.zero_le 1
  | refused root _ refused =>
      obtain ⟨remembers, leads, new, asked, toplevels, known⟩ := remembers.rootStep root
      exact ⟨new, remembers, leads, asked, .logRefused known toplevels ⟨_, refused⟩⟩
  | @told top reply t root _ told =>
      obtain ⟨remembers, leads, new, asked, toplevels, known⟩ := remembers.rootStep root
      have asks := asks_log t top
      refine ⟨new ++ [.log top], remembers.asks asks, leads.trans asks.leads, ?_, ?_⟩
      · rw [asks.asked, asked, List.append_assoc]
      · refine .byLog (asks.leads.top _ known) ?_ nofun
        rw [List.countP_append, countP_eq_zero_of_toplevels toplevels]
        exact Nat.le_refl 1

theorem Remembers.happens_perFileCounts (remembers : s.Remembers) (files : List Path) :
    ∃ asked, Event.Happens s ⟨.perFileCounts files, (s.perFileCounts files).1.map .counts, asked⟩
      (s.perFileCounts files).2 := by
  have step := s.perFileCounts_step files
  generalize s.perFileCounts files = outcome at step ⊢
  obtain ⟨answer, u⟩ := outcome
  cases step with
  | stopped root =>
      obtain ⟨remembers, leads, new, asked, -, known, fails⟩ := remembers.rootStep root
      exact ⟨new, remembers, leads, asked, .rootless nofun known fails⟩
  | nothing root nothing =>
      obtain ⟨remembers, leads, new, asked, toplevels, known⟩ := remembers.rootStep root
      refine ⟨new, remembers, leads, asked,
        .byFile known (List.forall_mem_nil _) ?_ fun _ => ⟨rfl, toplevels⟩⟩
      intro someRoot file wanted
      rw [nothing.resolve_left someRoot] at wanted
      exact absurd wanted List.not_mem_nil
  | pool root _ pool =>
      obtain ⟨remembers, leads, new, asked, toplevels, known⟩ := remembers.rootStep root
      exact ⟨new, remembers, leads, asked, .poolRefused known toplevels pool⟩
  | @asked top t root =>
      obtain ⟨remembers, leads, new, asked, toplevels, known⟩ := remembers.rootStep root
      obtain ⟨remembersFiles, leadsFiles, counted⟩ := remembers.fileCounts files
      have keys := @map_fileCounts t files
      obtain ⟨more, askedFiles⟩ := leadsFiles.asked
      generalize t.fileCounts files = outcome at *
      obtain ⟨trouble | counts, u⟩ := outcome
      · obtain ⟨file, wanted, refusal, before, rfl, refused⟩ := counted
        refine ⟨new ++ more, remembersFiles, leads.trans leadsFiles, ?_, ?_⟩
        · rw [← askedFiles, asked, List.append_assoc]
        · rw [← leadsFiles.git, ← leadsFiles.patience, ← leadsFiles.folder] at refused
          exact .filesRefused (leadsFiles.top _ known) wanted ⟨_, refused⟩
      · refine ⟨new ++ more, remembersFiles, leads.trans leadsFiles, ?_, ?_⟩
        · rw [← askedFiles, asked, List.append_assoc]
        · refine .byFile (leadsFiles.top _ known) ?_ ?_ nofun
          · intro pair member
            rw [← remembersFiles.known]
            exact counted pair (List.mem_filter.mp (mem_of_mem_foldl_putLast member)).1
          · intro _ file wanted
            rw [← keys rfl] at wanted
            obtain ⟨⟨file, n⟩, member, rfl⟩ := List.mem_map.mp wanted
            have knows := counted _ member
            have first := remembersFiles.known file ▸ knows
            have agree : ∀ pair ∈ counts, pair.1 = file → pair.2 = n := by
              rintro pair inside rfl
              exact Option.some.inj ((counted pair inside).symm.trans knows)
            rw [first, Option.some_inj]
            exact lookup_positive_eq_none_iff member agree (firstCount?_nonneg first)

theorem Remembers.happens (remembers : s.Remembers) (call : Call) :
    ∃ asked, Event.Happens s ⟨call, (s.answer call).1, asked⟩ (s.answer call).2 := by
  cases call with
  | toplevel => exact remembers.happens_toplevel
  | historyCounts files => exact remembers.happens_historyCounts files
  | perFileCounts files => exact remembers.happens_perFileCounts files
  | fileCount file => exact remembers.happens_fileCount file

/-! ## Runs -/

/-- The calls of a list one after the other, and the session behind them. -/
def run (s : Session) : List Call → List Event × Session
  | [] => ([], s)
  | call :: rest =>
    let (given, t) := s.answer call
    let (events, u) := t.run rest
    (⟨call, given, t.asked.drop s.asked.length⟩ :: events, u)

theorem Remembers.run (remembers : s.Remembers) (calls : List Call) :
    (s.run calls).2.Remembers ∧ s.Leads (s.run calls).2 ∧
      (s.run calls).1.map (·.call) = calls ∧
      (s.run calls).2.asked = s.asked ++ (s.run calls).1.flatMap (·.asked) ∧
      ∀ e ∈ (s.run calls).1, e.Stands (s.run calls).2 := by
  induction calls generalizing s with
  | nil => exact ⟨remembers, Leads.refl s, rfl, (List.append_nil _).symm, List.forall_mem_nil _⟩
  | cons call rest ih =>
      obtain ⟨asked, happens⟩ := remembers.happens call
      obtain ⟨remembers, leads, calls, askedRest, stand⟩ := ih happens.remembers
      have new : (s.answer call).2.asked.drop s.asked.length = asked := by
        rw [happens.asked, List.drop_left]
      simp only [Session.run, new, List.map_cons, List.flatMap_cons, List.forall_mem_cons]
      refine ⟨remembers, happens.leads.trans leads, by rw [calls], ?_, ?_, stand⟩
      · rw [askedRest, happens.asked, List.append_assoc]
      · exact happens.stands.mono leads

end Session

end Events

end RepoAtlas.History
