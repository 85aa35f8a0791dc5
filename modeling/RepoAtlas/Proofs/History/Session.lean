import RepoAtlas.History.Call

/-! # The steps of a session

For each thing that a session does there is one list of the ways in which it can come out, with what
was so before and what the session is afterwards. All that is said of runs of calls goes by these
lists.
-/

namespace RepoAtlas.History

/-- A question that is not refused is answered with the text of the reply. -/
theorem Git.answer_eq_text {git : Git} {patience : Amount} {asked : List Question} {q : Question}
    {reply : Option String} (told : git.answer patience asked q = .ok reply) :
    reply = (git.reply asked q).text? := by
  unfold Git.answer at told
  split at told
  · cases told
  · split at told
    · rename_i missing
      cases told
      rw [missing]
      rfl
    · split at told
      · cases told
      · exact (Except.ok.inj told).symm

/-- What is answered was asked in words without a NUL, and the wait for it was no problem. -/
theorem Git.answer_eq_some {git : Git} {patience : Amount} {asked : List Question} {q : Question}
    {out : String} (told : git.answer patience asked q = .ok (some out)) :
    q.command.any (·.toList.contains '\x00') = false ∧ waitProblem? q.patience patience = none := by
  unfold Git.answer at told
  split at told
  · cases told
  · rename_i free
    refine ⟨Bool.eq_false_iff.mpr free, ?_⟩
    split at told
    · cases told
    · split at told
      · cases told
      · assumption

/-- Nothing refuses a question without a NUL to who does not wait too long. -/
theorem Git.answer_of_wait {git : Git} {patience : Amount} {asked : List Question} {q : Question}
    (free : q.command.any (·.toList.contains '\x00') = false)
    (wait : waitProblem? q.patience patience = none) :
    git.answer patience asked q = .ok (git.reply asked q).text? := by
  unfold Git.answer
  rw [free, if_neg Bool.false_ne_true]
  split
  · rename_i missing
    rw [missing]
    rfl
  · rw [wait]

namespace Session

variable {s : Session}

/-- How asking for the root of the working tree comes out. -/
inductive RootStep (s : Session) : Except Trouble (Option Path) → Session → Prop
  | known {root : Option Path} (known : s.top = some root) : RootStep s (.ok root) s
  | absent (unknown : s.top = none) (absent : s.git.installed = false) :
      RootStep s (.ok none) { s with top := some none }
  | refused {refusal : Refusal} (unknown : s.top = none) (installed : s.git.installed = true)
      (refused : s.git.answer s.patience s.asked (.toplevel s.folder) = .error refusal) :
      RootStep s (.error (.refused refusal)) { s with top := some none }
  | unresolvable {out : String} {problem : Unresolvable} (unknown : s.top = none)
      (installed : s.git.installed = true)
      (told : s.git.answer s.patience s.asked (.toplevel s.folder) = .ok (some out))
      (nonblank : Text.strip out ≠ "")
      (failed : s.disk.resolve (Path.parse (Text.strip out)) = .error problem) :
      RootStep s (.error (.unresolvable problem))
        { s with top := some none, asked := s.asked ++ [.toplevel s.folder] }
  | told {reply : Option String} {root : Option Path} (unknown : s.top = none)
      (installed : s.git.installed = true)
      (told : s.git.answer s.patience s.asked (.toplevel s.folder) = .ok reply)
      (named : topOf s.disk reply = .ok root) :
      RootStep s (.ok root) { s with top := some root, asked := s.asked ++ [.toplevel s.folder] }

theorem RootStep.git {t : Session} {answer : Except Trouble (Option Path)} (step : s.RootStep answer t) :
    t.git = s.git ∧ t.patience = s.patience ∧ t.folder = s.folder := by
  cases step <;> exact ⟨rfl, rfl, rfl⟩

theorem exists_of_topOf_error {disk : Disk} {reply : Option String} {trouble : Trouble}
    (failed : topOf disk reply = .error trouble) : ∃ out problem, reply = some out ∧
      Text.strip out ≠ "" ∧ disk.resolve (Path.parse (Text.strip out)) = .error problem ∧
        trouble = .unresolvable problem := by
  cases reply with
  | none => cases failed
  | some out =>
      rw [topOf] at failed
      split at failed
      · cases failed
      · rename_i nonblank
        split at failed
        · cases failed
        · rename_i problem unresolvable
          cases failed
          exact ⟨out, problem, rfl, nonblank, unresolvable, rfl⟩

theorem toplevel_step (s : Session) : s.RootStep s.toplevel.1 s.toplevel.2 := by
  rw [toplevel]
  cases unknown : s.top with
  | some root => exact .known unknown
  | none =>
      cases installed : s.git.installed with
      | false =>
          simp only [installed, Bool.false_eq_true, if_false]
          exact .absent unknown installed
      | true =>
          simp only [installed, if_true, ask]
          cases told : s.git.answer s.patience s.asked (.toplevel s.folder) with
          | error refusal => exact .refused unknown installed told
          | ok reply =>
              cases named : topOf s.disk reply with
              | ok root =>
                  simp only [named]
                  exact .told unknown installed told named
              | error trouble =>
                  obtain ⟨out, problem, rfl, nonblank, failed, rfl⟩ := exists_of_topOf_error named
                  simp only [named]
                  exact .unresolvable unknown installed told nonblank failed

theorem RootStep.eq {t : Session} {answer : Except Trouble (Option Path)} (step : s.RootStep answer t) :
    s.toplevel = (answer, t) := by
  rw [toplevel]
  cases step with
  | known known => rw [known]
  | absent unknown absent => simp [unknown, absent]
  | refused unknown installed refused => simp [unknown, installed, ask, refused]
  | unresolvable unknown installed told nonblank failed =>
      simp [unknown, installed, ask, told, topOf, nonblank, failed]
  | told unknown installed told named => simp [unknown, installed, ask, told, named]

/-- How counting the commits of one file comes out. -/
inductive FileStep (s : Session) (file : Path) : Except Trouble Int → Session → Prop
  | known {count : Int} (known : s.known.lookup file = some count) : FileStep s file (.ok count) s
  | refused {refusal : Refusal} (unknown : s.known.lookup file = none)
      (refused : s.git.answer s.patience s.asked (.commitsOf s.folder file) = .error refusal) :
      FileStep s file (.error (.refused refusal)) s
  | told {reply : Option String} (unknown : s.known.lookup file = none)
      (told : s.git.answer s.patience s.asked (.commitsOf s.folder file) = .ok reply) :
      FileStep s file (.ok ((reply.map countLines).getD 0))
        { s with
          asked := s.asked ++ [.commitsOf s.folder file]
          known := putLast file ((reply.map countLines).getD 0) s.known }

theorem fileCount_step (s : Session) (file : Path) :
    s.FileStep file (s.fileCount file).1 (s.fileCount file).2 := by
  rw [fileCount]
  cases unknown : s.known.lookup file with
  | some count => exact .known unknown
  | none =>
      simp only [ask]
      cases told : s.git.answer s.patience s.asked (.commitsOf s.folder file) with
      | error refusal => exact .refused unknown told
      | ok reply => exact .told unknown told

theorem FileStep.eq {t : Session} {file : Path} {answer : Except Trouble Int}
    (step : s.FileStep file answer t) : s.fileCount file = (answer, t) := by
  rw [fileCount]
  cases step with
  | known known => rw [known]
  | refused unknown refused => simp [unknown, ask, refused]
  | told unknown told => simp [unknown, ask, told]

theorem FileStep.git {t : Session} {file : Path} {answer : Except Trouble Int}
    (step : s.FileStep file answer t) : t.git = s.git := by
  cases step <;> rfl

/-- How counting by the log comes out. -/
inductive LogStep (s : Session) (files : List Path) : Except Trouble Counts → Session → Prop
  | stopped {trouble : Trouble} {t : Session} (root : s.RootStep (.error trouble) t) :
      LogStep s files (.error trouble) t
  | nothing {root : Option Path} {t : Session} (found : s.RootStep (.ok root) t)
      (nothing : root = none ∨ files = []) : LogStep s files (.ok []) t
  | refused {top : Path} {refusal : Refusal} {t : Session} (found : s.RootStep (.ok (some top)) t)
      (nonempty : files ≠ [])
      (refused : t.git.answer t.patience t.asked (.log top) = .error refusal) :
      LogStep s files (.error (.refused refusal)) t
  | told {top : Path} {reply : Option String} {t : Session} (found : s.RootStep (.ok (some top)) t)
      (nonempty : files ≠ []) (told : t.git.answer t.patience t.asked (.log top) = .ok reply) :
      LogStep s files (.ok ((reply.map fun log => countsOf top files (ofLog log)).getD []))
        { t with asked := t.asked ++ [.log top] }

theorem historyCounts_step (s : Session) (files : List Path) :
    s.LogStep files (s.historyCounts files).1 (s.historyCounts files).2 := by
  have root := s.toplevel_step
  rw [historyCounts]
  generalize s.toplevel = outcome at root ⊢
  obtain ⟨trouble | top?, t⟩ := outcome
  · exact .stopped root
  · cases top? with
    | none => exact .nothing root (.inl rfl)
    | some top =>
        by_cases empty : files = []
        · subst empty
          exact .nothing root (.inr rfl)
        · simp only [List.isEmpty_iff, empty, if_false, ask]
          cases told : t.git.answer t.patience t.asked (.log top) with
          | error refusal => exact .refused root empty told
          | ok reply => exact .told root empty told

theorem LogStep.eq {t : Session} {files : List Path} {answer : Except Trouble Counts}
    (step : s.LogStep files answer t) : s.historyCounts files = (answer, t) := by
  rw [historyCounts]
  cases step with
  | stopped root => rw [root.eq]
  | nothing root nothing =>
      rw [root.eq]
      rcases nothing with rfl | rfl
      · rfl
      · split <;> simp_all
  | refused root nonempty refused => simp [root.eq, nonempty, ask, refused]
  | told root nonempty told => simp [root.eq, nonempty, ask, told]

/-- How counting file by file comes out. -/
inductive FilesStep (s : Session) (files : List Path) : Except Trouble Counts → Session → Prop
  | stopped {trouble : Trouble} {t : Session} (root : s.RootStep (.error trouble) t) :
      FilesStep s files (.error trouble) t
  | nothing {root : Option Path} {t : Session} (found : s.RootStep (.ok root) t)
      (nothing : root = none ∨ files = []) : FilesStep s files (.ok []) t
  | pool {top : Path} {problem : PoolProblem} {t : Session} (found : s.RootStep (.ok (some top)) t)
      (nonempty : files ≠ []) (pool : poolProblem? t.workers = some problem) :
      FilesStep s files (.error (.pool problem)) t
  | asked {top : Path} {t : Session} (found : s.RootStep (.ok (some top)) t) (nonempty : files ≠ [])
      (pool : poolProblem? t.workers = none) :
      FilesStep s files ((t.fileCounts files).1.map positives) (t.fileCounts files).2

theorem perFileCounts_step (s : Session) (files : List Path) :
    s.FilesStep files (s.perFileCounts files).1 (s.perFileCounts files).2 := by
  have root := s.toplevel_step
  rw [perFileCounts]
  generalize s.toplevel = outcome at root ⊢
  obtain ⟨trouble | top?, t⟩ := outcome
  · exact .stopped root
  · cases top? with
    | none => exact .nothing root (.inl rfl)
    | some top =>
        by_cases empty : files = []
        · subst empty
          exact .nothing root (.inr rfl)
        · simp only [List.isEmpty_iff, empty, if_false]
          cases pool : poolProblem? t.workers with
          | some problem => exact .pool root empty pool
          | none =>
              have asked := FilesStep.asked root empty pool
              generalize t.fileCounts files = counted at asked ⊢
              obtain ⟨trouble | counts, u⟩ := counted <;> exact asked

theorem FilesStep.eq {t : Session} {files : List Path} {answer : Except Trouble Counts}
    (step : s.FilesStep files answer t) : s.perFileCounts files = (answer, t) := by
  rw [perFileCounts]
  cases step with
  | stopped root => rw [root.eq]
  | nothing root nothing =>
      rw [root.eq]
      rcases nothing with rfl | rfl
      · rfl
      · split <;> simp_all
  | pool root nonempty pool => simp [root.eq, nonempty, pool]
  | @asked _ t root nonempty pool =>
      simp only [root.eq, List.isEmpty_iff, nonempty, if_false, pool]
      generalize t.fileCounts files = counted
      obtain ⟨trouble | counts, u⟩ := counted <;> rfl

end Session

end RepoAtlas.History
