import RepoAtlas.History.Churn
import RepoAtlas.Proofs.Scan

/-! # Disks that look alike from outside

Following a path and listing files look at names, folders and links, but open no file. So on two
disks that differ in the bytes of files only, every path leads to the same place, the same files are
listed, and counting commits, which asks the disk for places alone, comes to the same result.
-/

namespace RepoAtlas

namespace Entry

/-- What is seen of an entry by itself: of a folder not what it holds. -/
def face : Entry → Entry
  | .folder _ rights => .folder [] rights
  | e => e

/-- What is or is not at two places looks alike from outside: of files the bytes are not seen, of
    folders the entries. -/
inductive LookAlike : Option Entry → Option Entry → Prop
  | none : LookAlike none none
  | file (bytes bytes' : List UInt8) (readable : Bool) :
      LookAlike (some (.file bytes readable)) (some (.file bytes' readable))
  | folder (entries entries' : Entries) (rights : Rights) :
      LookAlike (some (.folder entries rights)) (some (.folder entries' rights))
  | link (target : String) : LookAlike (some (.link target)) (some (.link target))
  | other : LookAlike (some .other) (some .other)

theorem LookAlike.of_face {x y : Option Entry} (same : x.map face = y.map face) : LookAlike x y := by
  cases x with
  | none =>
      cases y with
      | none => exact .none
      | some => cases same
  | some e =>
      cases y with
      | none => cases same
      | some e' => cases e <;> cases e' <;> cases same <;> constructor

theorem LookAlike.folder_of {entries : Entries} {rights : Rights} {e : Option Entry}
    (alike : LookAlike (some (.folder entries rights)) e) :
    ∃ others, e = some (.folder others rights) := by
  cases alike
  exact ⟨_, rfl⟩

theorem LookAlike.file_of {bytes : List UInt8} {readable : Bool} {e : Option Entry}
    (alike : LookAlike (some (.file bytes readable)) e) :
    ∃ others, e = some (.file others readable) := by
  cases alike
  exact ⟨_, rfl⟩

/-- Where two trees look alike on the way to a place, it can be reached in both or in none. -/
theorem LookAlike.reach? {top top' : Entry} {place : List String}
    (alike : ∀ start, start <+: place → LookAlike (top.at? start) (top'.at? start)) :
    LookAlike (top.reach? place) (top'.reach? place) := by
  induction place using List.reverseRecOn with
  | nil => exact alike [] List.prefix_rfl
  | append_singleton front name ih =>
      have above := ih fun start before => alike start (before.trans (List.prefix_append _ _))
      have here := alike (front ++ [name]) List.prefix_rfl
      rw [reach?_append, reach?_append]
      generalize reached : top.reach? front = x at above
      generalize reached' : top'.reach? front = x' at above
      cases above with
      | folder entries entries' rights =>
          cases open' : rights.search with
          | false => simpa [Entry.reach?, isSearched, open'] using LookAlike.none
          | true =>
              rw [at?_concat, at?_concat, at?_of_reach? reached, at?_of_reach? reached'] at here
              rw [← reached, ← reached', ← reach?_append, ← reach?_append,
                reach?_below reached open', reach?_below reached' open']
              exact here
      | none | file | link | other => exact .none

end Entry

/-- Whether a file is listed depends on how the way to it looks. -/
theorem Selection.Lists.congr {s : Selection} {top top' : Entry} {parts : List String}
    (lists : s.Lists top parts)
    (alike : ∀ start, start <+: parts → Entry.LookAlike (top.at? start) (top'.at? start)) :
    s.Lists top' parts := by
  obtain ⟨bytes, readable, regular⟩ := lists.regular
  obtain ⟨others, regular'⟩ := (regular ▸ alike parts List.prefix_rfl).file_of
  refine ⟨⟨others, readable, regular'⟩, lists.accepted, lists.kept, ?_⟩
  intro start below before strict
  obtain ⟨⟨entries, rights, found, listed⟩, included, kept⟩ :=
    lists.entered start below before strict
  have reached := Entry.LookAlike.reach? fun first shorter => alike first (shorter.trans before)
  obtain ⟨others, found'⟩ := (found ▸ reached).folder_of
  exact ⟨⟨others, rights, found', listed⟩, included, kept⟩

/-- Two disks look alike at every place and start relative paths in the same folder. -/
structure Disk.LookAlike (d d' : Disk) : Prop where
  here : d.here = d'.here
  places : ∀ place, Entry.LookAlike (d.at? place) (d'.at? place)

/-- A path fails alike or leads to one place with entries that look alike. -/
inductive Disk.FoundAlike : Except AccessProblem (List String × Entry) →
    Except AccessProblem (List String × Entry) → Prop
  | found (place : List String) {e e' : Entry} (alike : Entry.LookAlike (some e) (some e')) :
      FoundAlike (.ok (place, e)) (.ok (place, e'))
  | failed (problem : AccessProblem) : FoundAlike (.error problem) (.error problem)

namespace Disk

variable {d d' : Disk}

theorem at?_below {reached : List String} {name : String} {entries : Entries} {rights : Rights}
    (here : d.at? reached = some (.folder entries rights)) :
    d.at? (reached ++ [name]) = entries.lookup name := by
  rw [at?, Entry.at?_concat, show d.root.at? reached = some _ from here]
  rfl

theorem LookAlike.follow (alike : d.LookAlike d') (links : Nat) (reached todo : List String) :
    FoundAlike (d.follow links reached todo) (d'.follow links reached todo) := by
  have places := alike.places reached
  match todo with
  | [] =>
      rw [Disk.follow, Disk.follow]
      generalize d.at? reached = x, d'.at? reached = x' at places
      cases places with
      | none => exact .failed _
      | file | folder | link | other => exact .found _ (by constructor)
  | name :: rest =>
      rw [Disk.follow, Disk.follow]
      generalize here : d.at? reached = x at places
      generalize here' : d'.at? reached = x' at places
      cases places with
      | none | file | link | other => exact .failed _
      | folder entries entries' rights =>
          cases open' : rights.search with
          | false => simpa [open'] using .failed _
          | true =>
              simp only [open', Bool.not_true, Bool.false_eq_true, if_false]
              by_cases dots : name = ".."
              · simp only [dots, if_true]
                exact alike.follow links reached.dropLast rest
              · have next := alike.places (reached ++ [name])
                rw [at?_below here, at?_below here'] at next
                simp only [dots, if_false]
                generalize entries.lookup name = y, entries'.lookup name = y' at next
                cases next with
                | none => exact .failed _
                | file | folder | other => exact alike.follow links (reached ++ [name]) rest
                | link target =>
                    cases links with
                    | zero => exact .failed _
                    | succ links => exact alike.follow links _ _
termination_by (links, todo.length)

theorem LookAlike.linkAt? (alike : d.LookAlike d') (place : List String) :
    d.linkAt? place = d'.linkAt? place := by
  have reached : Entry.LookAlike (d.root.reach? place) (d'.root.reach? place) :=
    Entry.LookAlike.reach? fun start _ => alike.places start
  rw [Disk.linkAt?, Disk.linkAt?]
  generalize d.root.reach? place = x, d'.root.reach? place = x' at reached
  cases reached <;> rfl

/-- Resolving looks at nothing but links. -/
theorem resolveFrom_congr (same : ∀ place, d.linkAt? place = d'.linkAt? place)
    (met : List (List String)) (reached todo : List String) :
    d.resolveFrom met reached todo = d'.resolveFrom met reached todo := by
  match todo with
  | [] => rw [resolveFrom, resolveFrom]
  | name :: rest =>
      by_cases dots : name = ".."
      · rw [resolveFrom, resolveFrom, if_pos dots, if_pos dots]
        exact resolveFrom_congr same met _ rest
      · have there := same (reached ++ [name])
        cases link : d.linkAt? (reached ++ [name]) with
        | none =>
            rw [resolveFrom_plain dots link, resolveFrom_plain dots (there ▸ link)]
            exact resolveFrom_congr same met _ rest
        | some target =>
            by_cases known : reached ++ [name] ∈ met
            · rw [resolveFrom_met dots link known, resolveFrom_met dots (there ▸ link) known]
            · rw [resolveFrom_link dots link known, resolveFrom_link dots (there ▸ link) known,
                resolveFrom_congr same (_ :: met)]
              split
              · exact resolveFrom_congr same met _ rest
              · rfl
termination_by (d.linksBeside met, todo.length)
decreasing_by
  · exact Prod.Lex.right _ (Nat.lt_succ_self _)
  · exact Prod.Lex.right _ (Nat.lt_succ_self _)
  · exact Prod.Lex.left _ _ (linksBeside_cons_lt link known)
  · exact Prod.Lex.right _ (Nat.lt_succ_self _)

theorem LookAlike.absolute (alike : d.LookAlike d') (p : Path) : d.absolute p = d'.absolute p := by
  rw [Disk.absolute, Disk.absolute, alike.here]

theorem LookAlike.find (alike : d.LookAlike d') (p : Path) : FoundAlike (d.find p) (d'.find p) := by
  rw [Disk.find, Disk.find, alike.absolute]
  exact alike.follow _ _ _

theorem LookAlike.resolve (alike : d.LookAlike d') (p : Path) : d.resolve p = d'.resolve p := by
  simp only [Disk.resolve, alike.absolute, resolveFrom_congr alike.linkAt?]
  have found := alike.find (pathOf (Resolution.cancelDots true []
    (d'.resolveFrom [] [] (d'.absolute p).parts).1))
  generalize d.find _ = x, d'.find _ = x' at found
  cases found <;> rfl

/-- Looking up a path fails alike or finds entries that look alike. -/
theorem LookAlike.lookUp (alike : d.LookAlike d') (p : Path) :
    (∃ e e', d.lookUp p = .ok e ∧ d'.lookUp p = .ok e' ∧ Entry.LookAlike e e') ∨
      ∃ problem, d.lookUp p = .error problem ∧ d'.lookUp p = .error problem := by
  have found := alike.find p
  rw [Disk.lookUp, Disk.lookUp]
  split
  · exact .inl ⟨_, _, rfl, rfl, .none⟩
  · split
    · exact .inr ⟨_, rfl, rfl⟩
    · generalize d.find p = x, d'.find p = x' at found
      cases found with
      | failed problem =>
          dsimp only
          split
          · exact .inl ⟨_, _, rfl, rfl, .none⟩
          · exact .inr ⟨_, rfl, rfl⟩
      | found place alike => exact .inl ⟨_, _, rfl, rfl, alike⟩

theorem LookAlike.isFolder (alike : d.LookAlike d') (p : Path) : d.isFolder p = d'.isFolder p := by
  rw [Disk.isFolder, Disk.isFolder]
  rcases alike.lookUp p with ⟨e, e', looked, looked', alike⟩ | ⟨problem, looked, looked'⟩
  · rw [looked, looked']
    cases alike <;> rfl
  · rw [looked, looked']

theorem LookAlike.isFile (alike : d.LookAlike d') (p : Path) : d.isFile p = d'.isFile p := by
  rw [Disk.isFile, Disk.isFile]
  rcases alike.lookUp p with ⟨e, e', looked, looked', alike⟩ | ⟨problem, looked, looked'⟩
  · rw [looked, looked']
    cases alike <;> rfl
  · rw [looked, looked']

end Disk

/-! ## Counting commits -/

namespace History

open Session

variable {d d' : Disk}

/-- The session on another disk. -/
def Session.on (s : Session) (d : Disk) : Session := { s with disk := d }

theorem ask_on (s : Session) (q : Question) : (s.on d).ask q = ((s.ask q).1, (s.ask q).2.on d) := by
  rw [ask, ask, Session.on]
  cases s.git.answer s.patience s.asked q <;> rfl

theorem fileCount_on (s : Session) (file : Path) :
    (s.on d).fileCount file = ((s.fileCount file).1, (s.fileCount file).2.on d) := by
  obtain ⟨disk, git, patience, workers, folder, top, known, asked⟩ := s
  simp only [fileCount, Session.on, Session.ask]
  cases known.lookup file with
  | some count => rfl
  | none => cases git.answer patience asked (.commitsOf folder file) <;> rfl

theorem fileCounts_on (s : Session) (files : List Path) :
    (s.on d).fileCounts files = ((s.fileCounts files).1, (s.fileCounts files).2.on d) := by
  induction files generalizing s with
  | nil => rfl
  | cons file rest ih =>
      rw [fileCounts, fileCounts, fileCount_on]
      rcases s.fileCount file with ⟨trouble | count, s⟩
      · rfl
      · dsimp only
        rw [ih]
        rcases s.fileCounts rest with ⟨trouble | counts, s⟩ <;> rfl

section On

variable {s : Session} (places : ∀ p, s.disk.resolve p = d.resolve p)

include places

theorem toplevel_on : (s.on d).toplevel = (s.toplevel.1, s.toplevel.2.on d) := by
  have named : ∀ reply, topOf s.disk reply = topOf d reply := by
    intro reply
    cases reply <;> simp only [topOf, places]
  obtain ⟨disk, git, patience, workers, folder, top, known, asked⟩ := s
  cases top with
  | some top => rfl
  | none =>
      cases installed : git.installed with
      | false => simp [toplevel, Session.on, installed]
      | true =>
          simp only [toplevel, Session.on, installed, if_true, Session.ask]
          cases git.answer patience asked (.toplevel folder) with
          | error refusal => rfl
          | ok reply =>
              simp only [← named]
              cases topOf disk reply <;> rfl

theorem historyCounts_on (files : List Path) :
    (s.on d).historyCounts files = ((s.historyCounts files).1, (s.historyCounts files).2.on d) := by
  rw [historyCounts, historyCounts, toplevel_on places]
  rcases s.toplevel with ⟨trouble | top, s⟩
  · rfl
  · cases top with
    | none => rfl
    | some top =>
        dsimp only
        split
        · rfl
        · rw [ask_on]
          rcases s.ask (.log top) with ⟨trouble | reply, s⟩ <;> rfl

theorem perFileCounts_on (files : List Path) :
    (s.on d).perFileCounts files = ((s.perFileCounts files).1, (s.perFileCounts files).2.on d) := by
  rw [perFileCounts, perFileCounts, toplevel_on places]
  rcases s.toplevel with ⟨trouble | top, s⟩
  · rfl
  · cases top with
    | none => rfl
    | some top =>
        dsimp only
        split
        · rfl
        · rw [show (s.on d).workers = s.workers from rfl]
          cases poolProblem? s.workers with
          | some problem => rfl
          | none =>
              dsimp only
              rw [fileCounts_on]
              rcases s.fileCounts files with ⟨trouble | counts, s⟩ <;> rfl

end On

/-- Where all paths lead to the same places, one git counts the same commits. -/
theorem collect_congr (places : ∀ p, d.resolve p = d'.resolve p) (git : Git)
    (patience workers : Amount) (folder : Path) (files : List Path) (mode : ChurnMode) :
    collect d git patience workers folder files mode =
      collect d' git patience workers folder files mode := by
  rw [collect, collect, places]
  split
  · rfl
  · cases d'.resolve folder with
    | error problem => rfl
    | ok place =>
        have started : Session.start d' git patience workers place =
          (Session.start d git patience workers place).on d' := rfl
        have places' : ∀ p, (Session.start d git patience workers place).disk.resolve p =
          d'.resolve p := places
        dsimp only
        rw [started, perFileCounts_on places', historyCounts_on places']
        split <;> rfl

end History

end RepoAtlas
