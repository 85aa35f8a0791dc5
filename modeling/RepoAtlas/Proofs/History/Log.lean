import RepoAtlas.History.Log
import RepoAtlas.Proofs.Distinct
import RepoAtlas.Proofs.Path

/-! # Reading a log back

A log is written commit by commit: a header, a separator in one of four layouts, the names with a
NUL behind each, and further NULs. Reading it gives back which commits touch which names, as long as
no name looks like a header. One layout is ambiguous: if a header ends with a line feed and no name
and no NUL follow, the next header stands where the first name is due, and is taken for it.
-/

namespace RepoAtlas.History

/-- A commit and the names of the files that it touches. -/
structure Commit where
  hash : String
  names : List String
  deriving DecidableEq, Repr

/-- Nothing at the start of the name belongs to the framing of a log. -/
def PlainName (name : String) : Prop :=
  name.toList.head? ≠ some '\n' ∧ ¬commitMarker.toList <+: name.toList

instance (name : String) : Decidable (PlainName name) :=
  inferInstanceAs (Decidable (name.toList.head? ≠ some '\n' ∧ ¬commitMarker.toList <+: name.toList))

/-- Neither the hash nor a name can be taken for something else in a log. -/
structure Commit.Legible (c : Commit) : Prop where
  hash : c.hash ≠ "" ∧ Text.strip c.hash = c.hash
  hashFree : '\x00' ∉ c.hash.toList ∧ '\n' ∉ c.hash.toList
  names : ∀ name ∈ c.names, name ≠ "" ∧ '\x00' ∉ name.toList ∧ PlainName name

instance (c : Commit) : Decidable c.Legible :=
  decidable_of_iff ((c.hash ≠ "" ∧ Text.strip c.hash = c.hash) ∧
      ('\x00' ∉ c.hash.toList ∧ '\n' ∉ c.hash.toList) ∧
      ∀ name ∈ c.names, name ≠ "" ∧ '\x00' ∉ name.toList ∧ PlainName name)
    ⟨fun ⟨hash, hashFree, names⟩ => ⟨hash, hashFree, names⟩, fun ⟨hash, hashFree, names⟩ =>
      ⟨hash, hashFree, names⟩⟩

/-- What stands between the header of a commit and its first name. -/
inductive Separator where
  | lineFeed
  | nul
  | lineFeedNul
  | nulLineFeed
  deriving DecidableEq, Repr

def Separator.text : Separator → List Char
  | .lineFeed => ['\n']
  | .nul => ['\x00']
  | .lineFeedNul => ['\n', '\x00']
  | .nulLineFeed => ['\x00', '\n']

/-- A commit as it is written: with its separator and the number of NULs behind it. -/
structure Record where
  commit : Commit
  separator : Separator
  padding : Nat
  deriving DecidableEq, Repr

namespace Record

/-- The names and the NULs of a record. -/
def body (r : Record) : List Char :=
  r.commit.names.flatMap (fun name => name.toList ++ ['\x00']) ++ List.replicate r.padding '\x00'

def text (r : Record) : List Char :=
  commitMarker.toList ++ r.commit.hash.toList ++ r.separator.text ++ r.body

/-- The header of the next record cannot be taken for a name of this one. -/
def Closed (r : Record) : Prop := r.separator ≠ .lineFeed ∨ r.commit.names ≠ [] ∨ 0 < r.padding

instance (r : Record) : Decidable r.Closed :=
  inferInstanceAs (Decidable (r.separator ≠ .lineFeed ∨ r.commit.names ≠ [] ∨ 0 < r.padding))

end Record

/-- The log that records make up. -/
def render (records : List Record) : String := String.ofList (records.flatMap Record.text)

/-- The touches are those of the commits: each name where it first occurs, each with the commits
    that list it. -/
structure Touches.Tells (touches : Touches) (commits : List Commit) : Prop where
  names : touches.map (·.1) = (commits.flatMap (·.names)).eraseDups
  once : ∀ entry ∈ touches, entry.2.Nodup
  hashes : ∀ entry ∈ touches, ∀ hash,
    hash ∈ entry.2 ↔ ∃ c ∈ commits, c.hash = hash ∧ entry.1 ∈ c.names

/-! ## Tokens -/

namespace LogState

variable {s : LogState}

def readAll (s : LogState) (cs : List Char) : LogState := (Text.splitList '\x00' cs).foldl read s

theorem readAll_token {token : List Char} (free : '\x00' ∉ token) (rest : List Char) :
    s.readAll (token ++ '\x00' :: rest) = (s.read token).readAll rest := by
  rw [readAll, Text.splitList_append free, List.foldl_cons, readAll]

theorem exists_splitList (cs : List Char) :
    ∃ first more, Text.splitList '\x00' cs = first :: more := by
  cases cs with
  | nil => exact ⟨[], [], rfl⟩
  | cons c rest =>
      rw [Text.splitList]
      split
      · exact ⟨_, _, rfl⟩
      · split <;> exact ⟨_, _, rfl⟩

/-- A front without separators becomes part of the first piece. -/
theorem splitList_front {front : List Char} (free : '\x00' ∉ front) {cs first : List Char}
    {more : List (List Char)} (split : Text.splitList '\x00' cs = first :: more) :
    Text.splitList '\x00' (front ++ cs) = (front ++ first) :: more := by
  induction front with
  | nil => exact split
  | cons c rest ih =>
      have other : c ≠ '\x00' := fun same => free (by simp [same])
      have tail : '\x00' ∉ rest := fun member => free (List.mem_cons_of_mem c member)
      simp only [List.cons_append, Text.splitList, if_neg other, ih tail]

theorem read_lineFeed (token : List Char) : s.read ('\n' :: token) = s.read token := by
  rw [read, read, dropLineFeeds, List.dropWhile_cons_of_pos (by rfl), ← dropLineFeeds]

theorem read_nil : s.read [] = s := by
  have unmarked : commitMarker.toList.isPrefixOf (dropLineFeeds []) = false := by decide
  rw [read]
  simp only [unmarked]
  cases h : s.commit <;> simp [note, h, dropLineFeeds]

/-- A line feed in front of a text belongs to no token. -/
theorem readAll_lineFeed (cs : List Char) : s.readAll ('\n' :: cs) = s.readAll cs := by
  obtain ⟨first, more, split⟩ := exists_splitList cs
  have split' : Text.splitList '\x00' (['\n'] ++ cs) = (['\n'] ++ first) :: more :=
    splitList_front (by decide) split
  rw [List.singleton_append, List.singleton_append] at split'
  rw [readAll, readAll, split, split', List.foldl_cons, List.foldl_cons, read_lineFeed]

theorem readAll_nul (cs : List Char) : s.readAll ('\x00' :: cs) = s.readAll cs := by
  have empty : s.readAll ([] ++ '\x00' :: cs) = (s.read []).readAll cs := readAll_token (by simp) cs
  rwa [List.nil_append, read_nil] at empty

theorem readAll_padding (n : Nat) (cs : List Char) :
    s.readAll (List.replicate n '\x00' ++ cs) = s.readAll cs := by
  induction n with
  | zero => rfl
  | succ n ih => rw [List.replicate_succ, List.cons_append, readAll_nul, ih]

/-! ## Names and headers -/

/-- The text is no header, line feeds in front aside. -/
def Unmarked (token : List Char) : Prop := ¬commitMarker.toList <+: dropLineFeeds token

theorem unmarked_nil : Unmarked [] := by simp [Unmarked, dropLineFeeds, commitMarker]

theorem read_unmarked {token : List Char} (unmarked : Unmarked token) :
    s.read token = s.note (dropLineFeeds token) := by
  have no : commitMarker.toList.isPrefixOf (dropLineFeeds token) = false := by
    rw [← Bool.not_eq_true, List.isPrefixOf_iff_prefix]
    exact unmarked
  rw [read]
  simp only [no]
  rfl

theorem dropLineFeeds_of_head {cs : List Char} (solid : cs.head? ≠ some '\n') :
    dropLineFeeds cs = cs := by
  cases cs with
  | nil => rfl
  | cons c rest =>
      have other : c ≠ '\n' := by simpa using solid
      rw [dropLineFeeds, List.dropWhile_cons_of_neg (by simpa using other)]

theorem unmarked_of_plain {name : String} (plain : PlainName name) : Unmarked name.toList := by
  rw [Unmarked, dropLineFeeds_of_head plain.1]
  exact plain.2

theorem read_name {name : String} (plain : PlainName name) :
    s.read name.toList = s.note name.toList := by
  rw [read_unmarked (unmarked_of_plain plain), dropLineFeeds_of_head plain.1]

end LogState

/-- The state after a commit: it is the latest, and its names are noted. -/
def LogState.touch (s : LogState) (c : Commit) : LogState :=
  c.names.foldl (fun s name => s.note name.toList) { s with commit := some c.hash }

namespace LogState

variable {s : LogState} {c : Commit}

/-- The first line of a token names the commit, whether or not a line feed ends it. -/
theorem splitCommit_hash (legible : c.Legible) {rest : List Char}
    (ended : rest = [] ∨ ∃ token, rest = '\n' :: token) :
    splitCommit (c.hash.toList ++ rest) = (some c.hash, dropLineFeeds (rest.drop 1)) := by
  have solid : ∀ x ∈ c.hash.toList, (x != '\n') = true := by
    intro x member
    rw [bne_iff_ne]
    exact fun same => legible.hashFree.2 (same ▸ member)
  have stop : rest.takeWhile (· != '\n') = [] ∧ rest.dropWhile (· != '\n') = rest := by
    rcases ended with rfl | ⟨token, rfl⟩ <;> exact ⟨rfl, rfl⟩
  have line : (c.hash.toList ++ rest).takeWhile (· != '\n') = c.hash.toList := by
    rw [List.takeWhile_append_of_pos solid, stop.1, List.append_nil]
  have behind : (c.hash.toList ++ rest).dropWhile (· != '\n') = rest := by
    rw [List.dropWhile_append_of_pos solid, stop.2]
  simp only [splitCommit, line, behind]
  simp [legible.hash.1, legible.hash.2]

theorem read_marked (token : List Char) :
    s.read (commitMarker.toList ++ token) =
      { s with commit := (splitCommit token).1 }.note (splitCommit token).2 := by
  have solid : dropLineFeeds (commitMarker.toList ++ token) = commitMarker.toList ++ token :=
    dropLineFeeds_of_head (by simp [commitMarker])
  have marked : commitMarker.toList.isPrefixOf (commitMarker.toList ++ token) = true :=
    List.isPrefixOf_iff_prefix.mpr (List.prefix_append _ _)
  rw [read]
  simp only [solid, marked, if_true]
  rw [show commitMarker.length = commitMarker.toList.length from rfl, List.drop_left]

/-- A header ends at its first line feed; what follows is a name. -/
theorem read_header (legible : c.Legible) (token : List Char) :
    s.read (commitMarker.toList ++ c.hash.toList ++ '\n' :: token) =
      { s with commit := some c.hash }.note (dropLineFeeds token) := by
  rw [List.append_assoc, read_marked, splitCommit_hash legible (.inr ⟨token, rfl⟩)]
  rfl

theorem read_header_alone (legible : c.Legible) :
    s.read (commitMarker.toList ++ c.hash.toList) = { s with commit := some c.hash } := by
  have whole := splitCommit_hash legible (.inl rfl)
  rw [List.append_nil] at whole
  rw [read_marked, whole]
  rfl

theorem header_free (legible : c.Legible) : '\x00' ∉ commitMarker.toList ++ c.hash.toList := by
  intro member
  rcases List.mem_append.mp member with marker | hash
  · exact absurd marker (by decide)
  · exact legible.hashFree.1 hash

theorem header_line_free (legible : c.Legible) :
    '\x00' ∉ commitMarker.toList ++ c.hash.toList ++ ['\n'] := by
  intro member
  rcases List.mem_append.mp member with header | lineFeed
  · exact header_free legible header
  · exact absurd lineFeed (by decide)

/-- In each layout a header leads to the state in which its commit is the latest. After a lone line
    feed this takes that what comes first is no header. -/
theorem readAll_header (legible : c.Legible) (separator : Separator) {body : List Char}
    (unmarked : separator = .lineFeed →
      ∀ first more, Text.splitList '\x00' body = first :: more → Unmarked first) :
    s.readAll (commitMarker.toList ++ c.hash.toList ++ separator.text ++ body) =
      { s with commit := some c.hash }.readAll body := by
  have free := header_free legible
  cases separator with
  | lineFeed =>
      obtain ⟨first, more, split⟩ := exists_splitList body
      rw [readAll, Separator.text, splitList_front (header_line_free legible) split, readAll, split, List.foldl_cons, List.foldl_cons,
        read_unmarked (unmarked rfl first more split), List.append_assoc]
      exact congrArg (more.foldl read) (read_header legible first)
  | nul =>
      rw [List.append_assoc]
      exact (readAll_token free body).trans (by rw [read_header_alone legible])
  | lineFeedNul =>
      have layout : commitMarker.toList ++ c.hash.toList ++ Separator.lineFeedNul.text ++ body =
          (commitMarker.toList ++ c.hash.toList ++ ['\n']) ++ '\x00' :: body := by
        simp [Separator.text]
      have empty : ({ s with commit := some c.hash } : LogState).note (dropLineFeeds []) =
          { s with commit := some c.hash } := rfl
      rw [layout, readAll_token (header_line_free legible), read_header legible, empty]
  | nulLineFeed =>
      rw [List.append_assoc]
      refine (readAll_token free ('\n' :: body)).trans ?_
      rw [read_header_alone legible, readAll_lineFeed]

theorem readAll_names {names : List String} (legible : ∀ name ∈ names,
      name ≠ "" ∧ '\x00' ∉ name.toList ∧ PlainName name) (rest : List Char) :
    s.readAll (names.flatMap (fun name => name.toList ++ ['\x00']) ++ rest) =
      (names.foldl (fun s name => s.note name.toList) s).readAll rest := by
  induction names generalizing s with
  | nil => rfl
  | cons name more ih =>
      obtain ⟨-, free, plain⟩ := legible name (by simp)
      have later := fun other member => legible other (List.mem_cons_of_mem name member)
      have layout : (name :: more).flatMap (fun name => name.toList ++ ['\x00']) ++ rest =
          name.toList ++ '\x00' ::
            (more.flatMap (fun name => name.toList ++ ['\x00']) ++ rest) := by simp
      rw [layout, readAll_token free, read_name plain, ih later, List.foldl_cons]

/-- Behind a closed record no header is the first token. -/
theorem unmarked_body {r : Record} (legible : r.commit.Legible) {rest : List Char}
    (closed : r.Closed ∨ rest = []) (lineFeed : r.separator = .lineFeed) {first : List Char}
    {more : List (List Char)} (split : Text.splitList '\x00' (r.body ++ rest) = first :: more) :
    Unmarked first := by
  obtain ⟨⟨hash, names⟩, separator, padding⟩ := r
  cases names with
  | cons name names =>
      obtain ⟨-, free, plain⟩ := legible.names name (by simp)
      have layout : Record.body ⟨⟨hash, name :: names⟩, separator, padding⟩ ++ rest =
          name.toList ++ '\x00' :: (Record.body ⟨⟨hash, names⟩, separator, padding⟩ ++ rest) := by
        simp [Record.body]
      rw [layout, Text.splitList_append free] at split
      cases split
      exact unmarked_of_plain plain
  | nil =>
      cases padding with
      | succ n =>
          simp only [Record.body, List.replicate_succ, List.flatMap_nil, List.nil_append,
            List.cons_append, Text.splitList, if_true] at split
          cases split
          exact unmarked_nil
      | zero =>
          have ended : rest = [] := by simpa [Record.Closed, show separator = _ from lineFeed] using closed
          subst ended
          cases split
          exact unmarked_nil

/-! ## Records -/

theorem readAll_record {r : Record} (legible : r.commit.Legible) {rest : List Char}
    (closed : r.Closed ∨ rest = []) :
    s.readAll (r.text ++ rest) = (s.touch r.commit).readAll rest := by
  rw [Record.text, List.append_assoc, readAll_header legible r.separator
    fun lineFeed _ _ split => unmarked_body legible closed lineFeed split]
  rw [Record.body, List.append_assoc, readAll_names legible.names, readAll_padding, touch]

theorem readAll_records {records : List Record} (legible : ∀ r ∈ records, r.commit.Legible)
    (closed : ∀ r ∈ records.dropLast, r.Closed) :
    s.readAll (records.flatMap Record.text) = (records.map (·.commit)).foldl touch s := by
  induction records generalizing s with
  | nil => exact read_nil
  | cons r more ih =>
      have ended : r.Closed ∨ more.flatMap Record.text = [] := by
        cases more with
        | nil => exact .inr rfl
        | cons next later => exact .inl (closed r (by simp))
      have closed' : ∀ r' ∈ more.dropLast, r'.Closed := by
        intro r' member
        cases more with
        | nil => simp at member
        | cons next later => exact closed r' (by simp [member])
      rw [List.flatMap_cons, readAll_record (legible r (by simp)) ended,
        ih (fun r' member => legible r' (List.mem_cons_of_mem r member)) closed', List.map_cons,
        List.foldl_cons]

end LogState

/-! ## Touches -/

namespace Touches

/-- The touches hold these pairs of a name and a commit, names in the order of the pairs. -/
structure Lists (touches : Touches) (pairs : List (String × String)) : Prop where
  names : touches.map (·.1) = (pairs.map (·.1)).eraseDups
  once : ∀ name, ((touches.lookup name).getD []).Nodup
  hashes : ∀ name hash, hash ∈ (touches.lookup name).getD [] ↔ (name, hash) ∈ pairs

theorem names_add (touches : Touches) (name hash : String) :
    (touches.add name hash).map (·.1) =
      if name ∈ touches.map (·.1) then touches.map (·.1) else touches.map (·.1) ++ [name] := by
  induction touches with
  | nil => rfl
  | cons entry rest ih =>
      obtain ⟨n, hashes⟩ := entry
      rw [add]
      by_cases same : n = name
      · simp [same]
      · have inside : name ∈ ((n, hashes) :: rest).map (·.1) ↔ name ∈ rest.map (·.1) := by
          simp [Ne.symm same]
        rw [if_neg same, List.map_cons, ih]
        simp only [inside]
        split <;> rfl

theorem lookup_add (touches : Touches) (name hash n : String) :
    (touches.add name hash).lookup n =
      if n = name then
        let known := (touches.lookup name).getD []
        some (if known.contains hash then known else known ++ [hash])
      else touches.lookup n := by
  induction touches with
  | nil =>
      rw [add, List.lookup_cons]
      by_cases here : n = name
      · simp [here]
      · rw [beq_false_of_ne here, if_neg here]
  | cons entry rest ih =>
      obtain ⟨m, hashes⟩ := entry
      rw [add]
      by_cases same : m = name
      · subst same
        rw [if_pos rfl, List.lookup_cons]
        by_cases here : n = m
        · simp [here]
        · rw [if_neg here, List.lookup_cons, beq_false_of_ne here]
      · rw [if_neg same, List.lookup_cons, ih, List.lookup_cons, List.lookup_cons,
          beq_false_of_ne (Ne.symm same)]
        by_cases here : n = name
        · rw [here, beq_false_of_ne (Ne.symm same)]
        · simp only [if_neg here]

theorem lists_nil : Lists [] [] where
  names := rfl
  once := by simp
  hashes := by simp

theorem Lists.add {touches : Touches} {pairs : List (String × String)} (lists : touches.Lists pairs)
    (name hash : String) : (touches.add name hash).Lists (pairs ++ [(name, hash)]) where
  names := by
    rw [names_add, lists.names, List.map_append, List.map_singleton, eraseDups_concat]
    simp only [List.mem_eraseDups]
  once n := by
    rw [lookup_add]
    split
    · have old := lists.once name
      simp only [Option.getD_some]
      split
      · exact old
      · rename_i fresh
        exact nodup_concat old (by simpa using fresh)
    · exact lists.once n
  hashes n h := by
    have old := lists.hashes name
    rw [lookup_add, List.mem_append, List.mem_singleton, Prod.mk.injEq]
    split
    · rename_i here
      subst here
      simp only [Option.getD_some, true_and]
      split
      · rename_i known
        have listed : (n, hash) ∈ pairs := (old hash).mp (by simpa using known)
        rw [old h]
        exact ⟨.inl, fun either => either.elim id fun same => same ▸ listed⟩
      · rw [List.mem_append, List.mem_singleton, old h]
    · rename_i other
      rw [lists.hashes n h]
      simp [other]

end Touches

/-- What each commit of a history adds to the touches. -/
def pairsOf (commits : List Commit) : List (String × String) :=
  commits.flatMap fun c => c.names.map fun name => (name, c.hash)

namespace LogState

variable {s : LogState}

theorem lists_names {names : List String} {hash : String} {pairs : List (String × String)}
    (nonempty : ∀ name ∈ names, name ≠ "") (latest : s.commit = some hash)
    (lists : s.touches.Lists pairs) :
    (names.foldl (fun s name => s.note name.toList) s).touches.Lists
      (pairs ++ names.map fun name => (name, hash)) := by
  induction names generalizing s pairs with
  | nil => simpa using lists
  | cons name rest ih =>
      have some_name : name.toList.isEmpty = false := by
        simpa [List.isEmpty_eq_false_iff] using nonempty name (by simp)
      have noted : s.note name.toList = { s with touches := s.touches.add name hash } := by
        simp [note, latest, some_name]
      have step := ih (s := s.note name.toList)
        (fun other member => nonempty other (List.mem_cons_of_mem name member))
        (by rw [noted]; exact latest) (by rw [noted]; exact lists.add name hash)
      rw [List.foldl_cons, List.map_cons]
      rwa [List.append_assoc, List.singleton_append] at step

theorem lists_touch {commits : List Commit} {pairs : List (String × String)}
    (nonempty : ∀ c ∈ commits, ∀ name ∈ c.names, name ≠ "") (lists : s.touches.Lists pairs) :
    (commits.foldl touch s).touches.Lists (pairs ++ pairsOf commits) := by
  induction commits generalizing s pairs with
  | nil => simpa [pairsOf] using lists
  | cons c rest ih =>
      have step := lists_names (s := { s with commit := some c.hash }) (nonempty c (by simp)) rfl lists
      have later := ih (fun c' member => nonempty c' (List.mem_cons_of_mem c member)) step
      rw [List.append_assoc] at later
      exact later

end LogState

theorem Touches.Lists.tells {touches : Touches} {commits : List Commit}
    (lists : touches.Lists (pairsOf commits)) : touches.Tells commits := by
  have distinct : (touches.map (·.1)).Nodup := lists.names ▸ nodup_eraseDups _
  have found : ∀ entry ∈ touches, touches.lookup entry.1 = some entry.2 :=
    fun _ member => lookup_of_mem distinct member
  constructor
  case names =>
    have first : (pairsOf commits).map (·.1) = commits.flatMap (·.names) := by
      rw [pairsOf, List.map_flatMap]
      refine List.flatMap_congr fun c _ => ?_
      rw [List.map_map]
      exact List.map_id c.names
    rw [lists.names, first]
  case once =>
    intro entry member
    have once := lists.once entry.1
    rwa [found entry member] at once
  case hashes =>
    intro entry member hash
    have hashes := lists.hashes entry.1 hash
    rw [found entry member, Option.getD_some] at hashes
    rw [hashes, pairsOf, List.mem_flatMap]
    refine exists_congr fun c => and_congr_right fun _ => ?_
    rw [List.mem_map]
    constructor
    · rintro ⟨name, listed, same⟩
      cases same
      exact ⟨rfl, listed⟩
    · rintro ⟨rfl, listed⟩
      exact ⟨entry.1, listed, rfl⟩

theorem lists_render {records : List Record} (legible : ∀ r ∈ records, r.commit.Legible)
    (closed : ∀ r ∈ records.dropLast, r.Closed) :
    (ofLog (render records)).Lists (pairsOf (records.map (·.commit))) := by
  have nonempty : ∀ c ∈ records.map (·.commit), ∀ name ∈ c.names, name ≠ "" := by
    intro c member name listed
    obtain ⟨r, inside, rfl⟩ := List.mem_map.mp member
    exact ((legible r inside).names name listed).1
  have read : ofLog (render records) =
      ((records.map (·.commit)).foldl LogState.touch ⟨none, []⟩).touches := by
    rw [ofLog, render, String.toList_ofList]
    exact congrArg LogState.touches (LogState.readAll_records legible closed)
  rw [read]
  exact LogState.lists_touch (s := ⟨none, []⟩) nonempty Touches.lists_nil

/-- Reading a log tells what its commits touch, whatever layouts are mixed, unless a header stands
    where the first name of the commit before is due. -/
theorem ofLog_render {records : List Record} (legible : ∀ r ∈ records, r.commit.Legible)
    (closed : ∀ r ∈ records.dropLast, r.Closed) :
    (ofLog (render records)).Tells (records.map (·.commit)) :=
  (lists_render legible closed).tells

/-- All layouts, commits without names, a name of two lines, a repeated name and a repeated hash. -/
def mixedRecords : List Record :=
  [⟨⟨"a1", ["x.ts", "y\nz.ts"]⟩, .lineFeed, 1⟩, ⟨⟨"b2", []⟩, .nulLineFeed, 0⟩,
    ⟨⟨"a1", ["commit", "x.ts"]⟩, .lineFeedNul, 0⟩, ⟨⟨"c3", ["x.ts", "x.ts"]⟩, .nul, 2⟩,
    ⟨⟨"d4", []⟩, .lineFeed, 0⟩]

theorem ofLog_render_mixed :
    (∀ r ∈ mixedRecords, r.commit.Legible) ∧ (∀ r ∈ mixedRecords.dropLast, r.Closed) ∧
      (ofLog (render mixedRecords)).Tells (mixedRecords.map (·.commit)) :=
  ⟨by decide, by decide, ofLog_render (by decide) (by decide)⟩

example : ofLog (render mixedRecords) =
    [("x.ts", ["a1", "c3"]), ("y\nz.ts", ["a1"]), ("commit", ["a1"])] := by decide +kernel

/-- A commit without names whose header ends with a line feed, right before the next header. -/
def runOnRecords : List Record :=
  [⟨⟨"a", []⟩, .lineFeed, 0⟩, ⟨⟨"b", ["x"]⟩, .lineFeed, 0⟩]

/-- The second header is taken for the first name of the first commit. -/
theorem ofLog_render_runs_on :
    (∀ r ∈ runOnRecords, r.commit.Legible) ∧
      ofLog (render runOnRecords) = [("commit:b\nx", ["a"])] ∧
      ¬(ofLog (render runOnRecords)).Tells (runOnRecords.map (·.commit)) := by
  have read : ofLog (render runOnRecords) = [("commit:b\nx", ["a"])] := by decide +kernel
  refine ⟨by decide, read, fun tells => ?_⟩
  have names := tells.names
  rw [read] at names
  exact absurd names (by decide)

end RepoAtlas.History
