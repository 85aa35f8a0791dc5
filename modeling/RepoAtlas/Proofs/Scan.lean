import RepoAtlas.Proofs.Disk
import RepoAtlas.Scan

/-! # What a scan lists

`Selection.Lists` says of one file, by the tree alone, whether it is listed: the conditions on the
file itself, and that every folder on the way to it is entered. A scan lists these files and no
others, and it does so in the order of the names on the way, which is also why none is listed
twice. Both facts go by induction on the tidy tree.
-/

namespace RepoAtlas

open Entry

/-- The entry is a folder whose names can be listed. -/
def Entry.IsListed (e : Entry) : Prop := ∃ entries rights, e = .folder entries rights ∧ rights.list = true

namespace Selection

/-- A folder below the top is entered: it can be reached and listed, and neither its name nor its
    place is one to leave out. -/
structure Enters (s : Selection) (top : Entry) (parts : List String) : Prop where
  folder : ∃ entries rights, top.reach? parts = some (.folder entries rights) ∧ rights.list = true
  included : parts.getLast?.getD "" ∉ s.excluded
  kept : s.ignored (Path.joined parts ++ "/") = false

/-- A regular file is listed for its extension, not ignored, and lies in folders that are entered. -/
structure Lists (s : Selection) (top : Entry) (parts : List String) : Prop where
  regular : ∃ bytes readable, top.at? parts = some (.file bytes readable)
  accepted : s.accepts (parts.getLast?.getD "") = true
  kept : s.ignored (Path.joined parts) = false
  entered : ∀ start, start ≠ [] → start <+: parts → start ≠ parts → s.Enters top start

/-- A file below a base is listed if nothing on the way from there is in its way. -/
structure ListsFrom (s : Selection) (top : Entry) (base parts : List String) : Prop where
  below : base <+: parts
  regular : ∃ bytes readable, top.at? parts = some (.file bytes readable)
  accepted : s.accepts (parts.getLast?.getD "") = true
  kept : s.ignored (Path.joined parts) = false
  entered : ∀ start, base <+: start → start <+: parts → start ≠ parts → s.Enters top start

variable {s : Selection} {top : Entry}

theorem filesIn_eq (way : List String) (reached : Bool) (entries : Entries) :
    s.filesIn way reached entries =
      entries.map fun pair => (pair.1, s.filesAt way reached pair.1 pair.2) := by
  induction entries with
  | nil => rw [filesIn, List.map_nil]
  | cons pair rest ih =>
      obtain ⟨name, e⟩ := pair
      rw [filesIn, ih, List.map_cons]

theorem mem_sorted {way : List String} {reached : Bool} {entries : Entries} {w : List String} :
    w ∈ ((s.filesIn way reached entries).mergeSort fun a b => a.1 ≤ b.1).flatMap (·.2) ↔
      ∃ pair ∈ entries, w ∈ s.filesAt way reached pair.1 pair.2 := by
  simp only [List.mem_flatMap, List.mem_mergeSort, filesIn_eq, List.mem_map]
  constructor
  · rintro ⟨_, ⟨pair, member, rfl⟩, inside⟩
    exact ⟨pair, member, inside⟩
  · rintro ⟨pair, member, inside⟩
    exact ⟨_, ⟨pair, member, rfl⟩, inside⟩

section Member

variable {here : List String} {entries : Entries} {rights : Rights}
  (distinct : (entries.map (·.1)).Nodup) {pair : String × Entry} (member : pair ∈ entries)

include distinct member

theorem at?_of_mem (found : top.at? here = some (.folder entries rights)) :
    top.at? (here ++ [pair.1]) = some pair.2 := by
  rw [at?_concat, found]
  exact lookup_of_mem distinct member

theorem reach?_of_mem (reached : top.reach? here = some (.folder entries rights)) :
    top.reach? (here ++ [pair.1]) = if rights.search then some pair.2 else none := by
  rw [reach?_append, reached, Option.bind_some, reach?_cons, isSearched,
    show (Entry.folder entries rights).child? pair.1 = some pair.2 from
      lookup_of_mem distinct member]
  rfl

end Member

/-- A beginning between a base and a longer one is the base or goes on as the longer one does. -/
theorem eq_or_prefix_of_between {base start whole : List String} {name : String}
    (below : base <+: start) (before : start <+: whole) (next : base ++ [name] <+: whole) :
    start = base ∨ base ++ [name] <+: start := by
  rcases Nat.lt_or_ge base.length start.length with longer | short
  · refine .inr (List.prefix_of_prefix_length_le next before ?_)
    rw [List.length_append, List.length_singleton]
    omega
  · exact .inl (below.eq_of_length_le short).symm

theorem ListsFrom.step {base w : List String} {name : String} (enters : s.Enters top base)
    (lists : s.ListsFrom top (base ++ [name]) w) : s.ListsFrom top base w where
  below := (List.prefix_append base [name]).trans lists.below
  regular := lists.regular
  accepted := lists.accepted
  kept := lists.kept
  entered := by
    intro start below before strict
    rcases eq_or_prefix_of_between below before lists.below with rfl | longer
    · exact enters
    · exact lists.entered start longer before strict

/-- A file that is listed from a folder lies in one of its entries and is listed from there. -/
theorem ListsFrom.exists_entry {base w : List String} {entries : Entries} {rights : Rights}
    (found : top.at? base = some (.folder entries rights)) (lists : s.ListsFrom top base w) :
    ∃ pair ∈ entries, s.ListsFrom top (base ++ [pair.1]) w := by
  obtain ⟨rest, rfl⟩ := lists.below
  obtain ⟨bytes, open', regular⟩ := lists.regular
  cases rest with
  | nil =>
      rw [List.append_nil, found] at regular
      cases regular
  | cons name rest =>
      obtain ⟨others, rights', next, here, listed, -⟩ := folder_of_at? regular
      obtain ⟨rfl, rfl⟩ : entries = others ∧ rights = rights' := by
        simpa using found.symm.trans here
      refine ⟨(name, next), mem_of_lookup listed, ?_, ⟨bytes, open', regular⟩, lists.accepted,
        lists.kept, ?_⟩
      · exact ⟨rest, by simp⟩
      · intro start below before strict
        exact lists.entered start ((List.prefix_append _ _).trans below) before strict

/-- At an entry that is no folder nothing else is listed. -/
theorem ListsFrom.eq_of_leaf {base w : List String} {e : Entry} (found : top.at? base = some e)
    (leaf : ∀ entries rights, e ≠ .folder entries rights) (lists : s.ListsFrom top base w) :
    w = base := by
  obtain ⟨rest, rfl⟩ := lists.below
  obtain ⟨_, _, regular⟩ := lists.regular
  cases rest with
  | nil => rw [List.append_nil]
  | cons next rest =>
      obtain ⟨entries, rights, _, here, -, -⟩ := folder_of_at? regular
      exact absurd (Option.some.inj (found.symm.trans here)) (leaf entries rights)

/-- Nothing is listed at what is neither a folder nor a file. -/
theorem not_listsFrom_of_leaf {e : Entry} {way w : List String} (found : top.at? way = some e)
    (leaf : ∀ entries rights, e ≠ .folder entries rights)
    (noFile : ∀ bytes readable, e ≠ .file bytes readable) : ¬s.ListsFrom top way w := by
  intro lists
  obtain rfl := lists.eq_of_leaf found leaf
  obtain ⟨bytes, readable, regular⟩ := lists.regular
  exact noFile bytes readable (Option.some.inj (found.symm.trans regular))

theorem mem_filesAt {e : Entry} (tidy : e.Tidy) (way : List String) (reached : Bool) (name : String)
    (found : top.at? (way ++ [name]) = some e)
    (reach : top.reach? (way ++ [name]) = if reached then some e else none) (w : List String) :
    w ∈ s.filesAt way reached name e ↔ s.ListsFrom top (way ++ [name]) w := by
  induction tidy generalizing way reached name with
  | file bytes readable =>
      have only : s.ListsFrom top (way ++ [name]) w → w = way ++ [name] :=
        ListsFrom.eq_of_leaf found fun _ _ => Entry.noConfusion
      have last : (way ++ [name]).getLast?.getD "" = name := by simp
      rw [filesAt]
      simp only [Bool.and_eq_true, Bool.not_eq_true']
      split
      · rename_i fine
        rw [List.mem_singleton]
        refine ⟨?_, only⟩
        rintro rfl
        refine ⟨List.prefix_rfl, ⟨bytes, readable, found⟩, last.symm ▸ fine.1, fine.2, ?_⟩
        intro start below before strict
        exact absurd (before.eq_of_length_le below.length_le) strict
      · rename_i bad
        simp only [List.not_mem_nil, false_iff]
        intro lists
        obtain rfl := only lists
        exact bad ⟨last ▸ lists.accepted, lists.kept⟩
  | folder entries rights distinct names inner ih =>
      have last : (way ++ [name]).getLast?.getD "" = name := by simp
      rw [filesAt]
      simp only [Bool.and_eq_true, Bool.not_eq_true', List.contains_eq_mem, decide_eq_false_iff_not]
      split
      · rename_i fine
        obtain ⟨⟨⟨rfl, listed⟩, included⟩, kept⟩ := fine
        have enters : s.Enters top (way ++ [name]) :=
          ⟨⟨entries, rights, reach, listed⟩, last.symm ▸ included, kept⟩
        have each := fun pair member => ih pair member _ rights.search _
          (at?_of_mem distinct member found) (reach?_of_mem distinct member reach)
        rw [mem_sorted]
        constructor
        · rintro ⟨pair, member, inside⟩
          exact .step enters ((each pair member).mp inside)
        · intro lists
          obtain ⟨pair, member, below⟩ := lists.exists_entry found
          exact ⟨pair, member, (each pair member).mpr below⟩
      · rename_i bad
        simp only [List.not_mem_nil, false_iff]
        intro lists
        have strict : way ++ [name] ≠ w := by
          rintro rfl
          obtain ⟨_, _, regular⟩ := lists.regular
          cases found.symm.trans regular
        have enters := lists.entered _ List.prefix_rfl lists.below strict
        obtain ⟨_, _, here, listed⟩ := enters.folder
        rw [reach] at here
        split at here
        · rename_i reached
          cases here
          exact bad ⟨⟨⟨reached, listed⟩, last ▸ enters.included⟩, enters.kept⟩
        · cases here
  | link target | other =>
      rw [filesAt]
      exact iff_of_false List.not_mem_nil
        (not_listsFrom_of_leaf found (fun _ _ => Entry.noConfusion) fun _ _ => Entry.noConfusion)

section Files

variable {entries : Entries} {rights : Rights} (tidy : (Entry.folder entries rights).Tidy)

include tidy

theorem mem_files (listed : rights.list = true) {parts : List String} :
    parts ∈ s.files entries rights ↔ s.Lists (.folder entries rights) parts := by
  have whole : (Entry.folder entries rights).at? [] = some (.folder entries rights) := rfl
  cases tidy with
  | folder _ _ distinct names inner =>
      have each := fun pair member => @mem_filesAt s (.folder entries rights) _ (inner pair member) []
        rights.search pair.1 (at?_of_mem distinct member whole) (reach?_of_mem distinct member rfl)
        parts
      rw [files, if_pos listed, mem_sorted]
      constructor
      · rintro ⟨pair, member, inside⟩
        obtain ⟨below, regular, accepted, kept, entered⟩ := (each pair member).mp inside
        refine ⟨regular, accepted, kept, fun start nonempty before strict => ?_⟩
        rcases eq_or_prefix_of_between List.nil_prefix before below with rfl | longer
        · exact absurd rfl nonempty
        · exact entered start longer before strict
      · intro lists
        obtain ⟨bytes, open', regular⟩ := lists.regular
        cases parts with
        | nil => cases whole.symm.trans regular
        | cons name rest =>
            rw [← List.nil_append (name :: rest)] at regular
            obtain ⟨_, _, next, here, found, -⟩ := folder_of_at? regular
            cases whole.symm.trans here
            have member := mem_of_lookup found
            refine ⟨(name, next), member, (each _ member).mpr ?_⟩
            refine ⟨⟨rest, rfl⟩, lists.regular, lists.accepted, lists.kept, ?_⟩
            intro start below before strict
            refine lists.entered start (fun empty => ?_) before strict
            rw [empty] at below
            exact absurd below.length_le (by simp)

end Files

/-! ## The order of a scan -/

/-- Ways that part at two names are in the order of the names. -/
theorem lt_of_parting {way x y : List String} {a b : String} (before : a < b)
    (left : way ++ [a] <+: x) (right : way ++ [b] <+: y) : x < y := by
  obtain ⟨rest, rfl⟩ := left
  obtain ⟨rest', rfl⟩ := right
  rw [List.append_assoc, List.append_assoc]
  exact List.append_left_lt (List.cons_lt_cons_iff.mpr (.inl before))

theorem pairwise_entries {way : List String} {reached : Bool} {entries : Entries}
    (distinct : (entries.map (·.1)).Nodup)
    (each : ∀ pair ∈ entries, (s.filesAt way reached pair.1 pair.2).Pairwise (· < ·))
    (below : ∀ pair ∈ entries, ∀ w ∈ s.filesAt way reached pair.1 pair.2, way ++ [pair.1] <+: w) :
    (((s.filesIn way reached entries).mergeSort fun a b => a.1 ≤ b.1).flatMap (·.2)).Pairwise
      (· < ·) := by
  have listed : ∀ item ∈ (s.filesIn way reached entries).mergeSort fun a b => a.1 ≤ b.1,
      item.2.Pairwise (· < ·) ∧ ∀ w ∈ item.2, way ++ [item.1] <+: w := by
    intro item member
    rw [List.mem_mergeSort, filesIn_eq, List.mem_map] at member
    obtain ⟨pair, inside, rfl⟩ := member
    exact ⟨each pair inside, below pair inside⟩
  have names : ((s.filesIn way reached entries).map (·.1)).Nodup := by
    rw [filesIn_eq, List.map_map]
    exact distinct
  rw [List.pairwise_flatMap]
  refine ⟨fun item member => (listed item member).1, (pairwise_sorted names).imp_of_mem ?_⟩
  intro a b member member' before x inside y inside'
  exact lt_of_parting before ((listed a member).2 x inside) ((listed b member').2 y inside')

/-- What is listed at an entry lies there, whatever may be done with the folders on the way. -/
theorem prefix_of_mem_filesAt {e : Entry} (tidy : e.Tidy) (way : List String) (reached : Bool)
    (name : String) : ∀ w ∈ s.filesAt way reached name e, way ++ [name] <+: w := by
  induction tidy generalizing way reached name with
  | file bytes readable =>
      intro w listed
      rw [filesAt] at listed
      split at listed
      · exact List.mem_singleton.mp listed ▸ List.prefix_rfl
      · cases listed
  | folder entries rights distinct names inner ih =>
      intro w listed
      rw [filesAt] at listed
      split at listed
      · obtain ⟨pair, member, inside⟩ := mem_sorted.mp listed
        exact (List.prefix_append _ _).trans (ih pair member _ _ _ w inside)
      · cases listed
  | link target => simp [filesAt]
  | other => simp [filesAt]

theorem pairwise_filesAt {e : Entry} (tidy : e.Tidy) (way : List String) (reached : Bool)
    (name : String) : (s.filesAt way reached name e).Pairwise (· < ·) := by
  induction tidy generalizing way reached name with
  | file bytes readable =>
      rw [filesAt]
      split
      · exact List.pairwise_singleton _ _
      · exact .nil
  | folder entries rights distinct names inner ih =>
      rw [filesAt]
      split
      · exact pairwise_entries distinct (fun pair member => ih pair member _ _ _)
          fun pair member => prefix_of_mem_filesAt (inner pair member) _ _ _
      · exact .nil
  | link target => rw [filesAt]; exact .nil
  | other => rw [filesAt]; exact .nil

/-- Files are listed in the order of the names on the way, so none is listed twice. -/
theorem pairwise_files {entries : Entries} {rights : Rights}
    (tidy : (Entry.folder entries rights).Tidy) :
    (s.files entries rights).Pairwise (· < ·) := by
  cases tidy with
  | folder _ _ distinct names inner =>
      rw [files]
      split
      · exact pairwise_entries distinct (fun pair member => pairwise_filesAt (inner pair member) [] _ _)
          fun pair member => prefix_of_mem_filesAt (inner pair member) [] _ _
      · exact .nil

end Selection

end RepoAtlas
