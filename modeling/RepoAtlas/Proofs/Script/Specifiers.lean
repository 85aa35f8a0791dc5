import Mathlib.Data.List.Perm.Basic
import RepoAtlas.Proofs.Distinct
import RepoAtlas.Proofs.Script.Placement
import RepoAtlas.Scanned

/-! # What a script imports, and in which order

`Tree.Carries` says of one text, by the tree alone, where an import or a call of `require` names
it. The specifiers of a script are these texts, the empty one left out, in the order of the places
where they are first named, whatever parser made the tree and in whatever order its imports and its
calls were collected. If the places differ, the order is the only one; they do in the trees of the
grammar, which stand one behind the other.
-/

namespace RepoAtlas.Script

/-! ## What a tree carries -/

/-- The text stands between single or double quotes. -/
def Quotes (quoted text : String) : Prop :=
  ∃ quote, (quote = '\'' ∨ quote = '"') ∧ quoted.toList = quote :: (text.toList ++ [quote])

theorem unquoted?_eq_some_iff {quoted text : String} :
    unquoted? quoted = some text ↔ Quotes quoted text := by
  unfold unquoted? Quotes
  constructor
  · intro read
    split at read
    · rename_i quote rest chars
      split at read
      · rename_i last inner reversed
        split at read
        · rename_i quotes
          obtain rfl := Option.some.inj read
          rw [List.reverse_eq_cons_iff] at reversed
          simp only [Bool.and_eq_true, Bool.or_eq_true, decide_eq_true_eq] at quotes
          obtain ⟨quotes, rfl⟩ := quotes
          exact ⟨last, quotes, by simp [chars, reversed]⟩
        · cases read
      · cases read
    · cases read
  · rintro ⟨quote, quotes, chars⟩
    simp [chars, quotes]

namespace Tree

/-- A tree and all its parts, however deep. -/
inductive Inside (inner : Tree) : Tree → Prop where
  | self : Inside inner inner
  | part {kind : BranchKind} {start stop : Nat} {parts : List Tree} {part : Tree}
      (member : part ∈ parts) (inside : Inside inner part) :
      Inside inner (.branch kind start stop parts)

mutual

theorem mem_subtrees {inner : Tree} : ∀ {tree : Tree}, inner ∈ tree.subtrees ↔ inner.Inside tree
  | .leaf kind start stop text => by
    rw [subtrees, List.mem_singleton]
    exact ⟨fun same => same ▸ .self, fun inside => by cases inside; rfl⟩
  | .branch kind start stop parts => by
    rw [subtrees, List.mem_cons, mem_forestSubtrees]
    constructor
    · rintro (rfl | ⟨part, member, inside⟩)
      · exact .self
      · exact .part member inside
    · rintro (_ | ⟨member, inside⟩)
      · exact .inl rfl
      · exact .inr ⟨_, member, inside⟩

theorem mem_forestSubtrees {inner : Tree} :
    ∀ {trees : List Tree}, inner ∈ forestSubtrees trees ↔ ∃ tree ∈ trees, inner.Inside tree
  | [] => by simp [forestSubtrees]
  | tree :: rest => by simp [forestSubtrees, mem_subtrees, mem_forestSubtrees]

end

/-- The tree names a text as something to import, at a byte offset. -/
inductive Carries (tree : Tree) (key : Nat) (text : String) : Prop where
  /-- A string that is the source of an import statement, at the offset of the string. -/
  | source {start stop stop' : Nat} {parts : List Tree} {quoted : String}
      (inside : (branch .importStatement start stop parts).Inside tree)
      (string : leaf .string key stop' quoted ∈ parts) (quotes : Quotes quoted text)
  /-- A call of `require` whose first argument is a string, at the offset of the call. Comments
      are neither callees nor arguments. -/
  | require {stop start' stop' start'' stop'' : Nat} {parts others : List Tree} {quoted : String}
      (inside : (branch .call key stop parts).Inside tree)
      (callee : parts.find? (! ·.isComment) = some (leaf .identifier start' stop' "require"))
      (argument : parts.findSome? argumentList? =
        some (leaf .string start'' stop'' quoted :: others))
      (quotes : Quotes quoted text)

theorem mem_ownImportSources {source : ImportSource} {tree : Tree} :
    source ∈ tree.ownImportSources ↔
      ∃ start stop parts stop', tree = .branch .importStatement start stop parts ∧
        .leaf .string source.start stop' source.text ∈ parts := by
  constructor
  · intro member
    unfold ownImportSources at member
    split at member
    · obtain ⟨child, inside, found⟩ := List.mem_filterMap.mp member
      obtain ⟨text, string, rfl⟩ := Option.map_eq_some_iff.mp found
      unfold stringText? at string
      split at string <;> cases string
      exact ⟨_, _, _, _, rfl, inside⟩
    · cases member
  · rintro ⟨start, stop, parts, stop', rfl, inside⟩
    exact List.mem_filterMap.mpr ⟨_, inside, rfl⟩

/-- Comments do not hide an argument list, and neither does a plain name. -/
theorem findSome?_argumentList? {parts rest : List Tree} {start stop : Nat} {name : String}
    (named : parts.filter (! ·.isComment) = .leaf .identifier start stop name :: rest) :
    parts.findSome? argumentList? = rest.findSome? argumentList? := by
  have visible (trees : List Tree) : (trees.filter (! ·.isComment)).findSome? argumentList? =
      trees.findSome? argumentList? := by
    induction trees with
    | nil => rfl
    | cons tree trees ih =>
        by_cases comment : tree.isComment = true
        · have unlisted : tree.argumentList? = none := by
            unfold isComment at comment
            split at comment
            · rfl
            · cases comment
          simpa [comment, unlisted] using ih
        · rw [List.filter_cons_of_pos (by simpa using comment), List.findSome?_cons,
            List.findSome?_cons, ih]
  rw [← visible parts, named]
  rfl

theorem mem_ownCalls {call : Call} {tree : Tree} :
    call ∈ tree.ownCalls ↔
      ∃ parts start stop, tree = .branch .call call.start call.stop parts ∧
        parts.find? (! ·.isComment) = some (.leaf .identifier start stop call.callee) ∧
        parts.findSome? argumentList? = some call.arguments := by
  constructor
  · intro member
    unfold ownCalls at member
    split at member
    · split at member
      · rename_i callee rest visible
        split at member
        · rename_i name arguments named listed
          obtain rfl := List.mem_singleton.mp member
          unfold name? at named
          split at named <;> cases named
          rename_i start stop
          refine ⟨_, start, stop, rfl, ?_, ?_⟩
          · rw [← List.head?_filter, visible, List.head?_cons]
          · rw [findSome?_argumentList? visible, listed]
        · cases member
      · cases member
    · cases member
  · rintro ⟨parts, start, stop, rfl, callee, listed⟩
    rw [← List.head?_filter, List.head?_eq_some_iff] at callee
    obtain ⟨rest, visible⟩ := callee
    rw [findSome?_argumentList? visible] at listed
    simp [ownCalls, visible, listed, name?]

theorem mem_importSources {source : ImportSource} {tree : Tree} :
    source ∈ tree.importSources ↔
      ∃ start stop parts stop', (branch .importStatement start stop parts).Inside tree ∧
        .leaf .string source.start stop' source.text ∈ parts := by
  simp only [importSources, List.mem_flatMap, mem_subtrees, mem_ownImportSources]
  constructor
  · rintro ⟨_, inside, start, stop, parts, stop', rfl, string⟩
    exact ⟨start, stop, parts, stop', inside, string⟩
  · rintro ⟨start, stop, parts, stop', inside, string⟩
    exact ⟨_, inside, start, stop, parts, stop', rfl, string⟩

theorem mem_calls {call : Call} {tree : Tree} :
    call ∈ tree.calls ↔
      ∃ parts start stop, (branch .call call.start call.stop parts).Inside tree ∧
        parts.find? (! ·.isComment) = some (.leaf .identifier start stop call.callee) ∧
        parts.findSome? argumentList? = some call.arguments := by
  simp only [calls, List.mem_flatMap, mem_subtrees, mem_ownCalls]
  constructor
  · rintro ⟨_, inside, parts, start, stop, rfl, callee⟩
    exact ⟨parts, start, stop, inside, callee⟩
  · rintro ⟨parts, start, stop, inside, callee⟩
    exact ⟨_, inside, parts, start, stop, rfl, callee⟩

end Tree

theorem Call.specifier?_eq_some_iff {call : Call} {text : String} :
    call.specifier? = some text ↔ call.callee = "require" ∧
      ∃ start stop quoted others, call.arguments = .leaf .string start stop quoted :: others ∧
        Quotes quoted text := by
  constructor
  · intro found
    unfold specifier? at found
    split at found
    · refine ⟨‹_›, ?_⟩
      split at found
      · rename_i first others arguments
        obtain ⟨quoted, string, read⟩ := Option.bind_eq_some_iff.mp found
        unfold Tree.stringText? at string
        split at string <;> cases string
        exact ⟨_, _, _, _, arguments, unquoted?_eq_some_iff.mp read⟩
      · cases found
    · cases found
  · rintro ⟨callee, start, stop, quoted, others, arguments, quotes⟩
    simp [specifier?, callee, arguments, Tree.stringText?, unquoted?_eq_some_iff.mpr quotes]

/-- The occurrences among the sources and calls of a tree are what the tree carries. -/
theorem mem_occurrencesAmong {tree : Tree} {key : Nat} {text : String} :
    (key, text) ∈ occurrencesAmong tree.importSources tree.calls ↔
      tree.Carries key text ∧ text ≠ "" := by
  simp only [occurrencesAmong, List.mem_filter, List.mem_append, List.mem_filterMap,
    Option.map_eq_some_iff, Prod.mk.injEq, decide_eq_true_eq]
  refine and_congr_left fun _ => ⟨?_, ?_⟩
  · rintro (⟨source, member, _, read, rfl, rfl⟩ | ⟨call, member, _, read, rfl, rfl⟩)
    · obtain ⟨start, stop, parts, stop', inside, string⟩ := Tree.mem_importSources.mp member
      exact .source inside string (unquoted?_eq_some_iff.mp read)
    · obtain ⟨parts, start, stop, inside, callee, listed⟩ := Tree.mem_calls.mp member
      obtain ⟨named, start', stop', quoted, others, arguments, quotes⟩ :=
        Call.specifier?_eq_some_iff.mp read
      exact .require inside (named ▸ callee) (arguments ▸ listed) quotes
  · rintro (⟨inside, string, quotes⟩ | ⟨inside, callee, argument, quotes⟩)
    · exact .inl ⟨⟨key, _⟩, Tree.mem_importSources.mpr ⟨_, _, _, _, inside, string⟩, text,
        unquoted?_eq_some_iff.mpr quotes, rfl, rfl⟩
    · exact .inr ⟨⟨key, _, "require", _⟩,
        Tree.mem_calls.mpr ⟨_, _, _, inside, callee, argument⟩, text,
        Call.specifier?_eq_some_iff.mpr ⟨rfl, _, _, _, _, rfl, quotes⟩, rfl, rfl⟩

/-! ## No two places are the same -/

section Keys

variable {src : Source} {i j k a b : Nat}

/-- The offset of a position of the text, from `i` on and before `j`. -/
def Between (src : Source) (i j key : Nat) : Prop :=
  ∃ q, i ≤ q ∧ q < j ∧ q < src.size ∧ key = src.byteOffset q

theorem Between.mono {i' j' : Nat} (between : Between src i j a) (first : i' ≤ i) (last : j ≤ j') :
    Between src i' j' a := by
  obtain ⟨q, after, before, inside, rfl⟩ := between
  exact ⟨q, by omega, by omega, inside, rfl⟩

theorem Between.ne (sound : src.Sound) (left : Between src i k a) (right : Between src k j b) :
    a ≠ b := by
  obtain ⟨q, -, before, -, rfl⟩ := left
  obtain ⟨q', after, -, inside, rfl⟩ := right
  exact (sound.byteOffset_lt (by omega) inside.le).ne

namespace Tree

/-- The offsets at which a tree itself may name something to import. -/
def ownKeys (tree : Tree) : List Nat :=
  tree.ownImportSources.map (·.start) ++ tree.ownCalls.map (·.start)

/-- The offsets at which trees or their parts may name something to import. -/
def keys (trees : List Tree) : List Nat := (forestSubtrees trees).flatMap ownKeys

/-- The offsets of the strings of a list. -/
def stringKeys (trees : List Tree) : List Nat :=
  trees.filterMap fun tree => tree.stringText?.map fun _ => tree.start

theorem keys_leaf (kind : LeafKind) (start stop : Nat) (text : String) (rest : List Tree) :
    keys (.leaf kind start stop text :: rest) = keys rest := by
  simp [keys, forestSubtrees, subtrees, ownKeys, ownImportSources, ownCalls]

theorem keys_branch (kind : BranchKind) (start stop : Nat) (parts rest : List Tree) :
    keys (.branch kind start stop parts :: rest) =
      (branch kind start stop parts).ownKeys ++ keys parts ++ keys rest := by
  simp [keys, forestSubtrees, subtrees]

theorem stringKeys_branch (kind : BranchKind) (start stop : Nat) (parts rest : List Tree) :
    stringKeys (.branch kind start stop parts :: rest) = stringKeys rest := rfl

/-- A branch counts for nothing, for its own strings or, if it begins with a leaf, for itself. -/
theorem ownKeys_branch (kind : BranchKind) (start stop : Nat) (parts : List Tree) :
    (branch kind start stop parts).ownKeys = [] ∨
      (branch kind start stop parts).ownKeys = stringKeys parts ∨
      (branch kind start stop parts).ownKeys = [start] ∧
        ∃ kind' start' stop' text rest, parts = .leaf kind' start' stop' text :: rest := by
  cases kind with
  | importStatement =>
      right; left
      simp [ownKeys, ownImportSources, ownCalls, stringKeys, List.map_filterMap, Option.map_map,
        Function.comp_def]
  | call =>
      simp only [ownKeys, ownImportSources, ownCalls, List.map_nil, List.nil_append]
      split
      · rename_i callee rest visible
        split
        · rename_i named _
          refine .inr (.inr ⟨rfl, ?_⟩)
          -- Before the callee stand comments only, and both are leaves.
          match parts with
          | .leaf kind' start' stop' text :: rest => exact ⟨kind', start', stop', text, rest, rfl⟩
          | .branch kind' start' stop' inner :: rest =>
              obtain ⟨rfl, -⟩ := List.cons.inj visible
              cases named
        · exact .inl rfl
      · exact .inl rfl
  | _ => exact .inl rfl

end Tree

open Script.Tree

theorem Placed.between_keys {trees : List Tree} (placed : Placed src i trees j) :
    ∀ key ∈ stringKeys trees ++ keys trees, Between src i j key := by
  induction placed with
  | nil => simp [stringKeys, keys, forestSubtrees]
  | @leaf i q j stop kind text rest order inside later ih =>
      rw [keys_leaf]
      intro key member
      have end_ := later.le
      cases string : (Tree.leaf kind (src.byteOffset q) stop text).stringText? with
      | none =>
          refine (ih key ?_).mono (by omega) (Nat.le_refl j)
          simpa [stringKeys, string] using member
      | some quoted =>
          simp only [stringKeys, List.filterMap_cons, string, Option.map_some, List.cons_append,
            List.mem_cons] at member
          rcases member with rfl | member
          · exact ⟨q, order, by omega, inside, rfl⟩
          · exact (ih key member).mono (by omega) (Nat.le_refl j)
  | @branch i q k j stop kind parts rest order within later ih ih' =>
      rw [stringKeys_branch, keys_branch]
      intro key member
      have first := within.le
      have last := later.le
      have own (counted : key ∈ (Tree.branch kind (src.byteOffset q) stop parts).ownKeys) :
          Between src q k key := by
        rcases ownKeys_branch kind (src.byteOffset q) stop parts with
          nothing | strings | ⟨self, _, _, _, _, _, rfl⟩
        · simp [nothing] at counted
        · exact ih key (List.mem_append_left _ (strings ▸ counted))
        · rw [self, List.mem_singleton] at counted
          cases within with
          | leaf order' inside later' =>
              have := later'.le
              exact ⟨q, Nat.le_refl q, by omega, by omega, counted⟩
      simp only [List.mem_append] at member
      rcases member with string | (counted | inner) | outer
      · exact (ih' key (List.mem_append_left _ string)).mono (by omega) (Nat.le_refl j)
      · exact (own counted).mono order last
      · exact (ih key (List.mem_append_right _ inner)).mono order last
      · exact (ih' key (List.mem_append_right _ outer)).mono (by omega) (Nat.le_refl j)

theorem Placed.nodup_keys (sound : src.Sound) {trees : List Tree} (placed : Placed src i trees j) :
    (stringKeys trees ++ keys trees).Nodup := by
  induction placed with
  | nil => simp [stringKeys, keys, forestSubtrees]
  | @leaf i q j stop kind text rest order inside later ih =>
      rw [keys_leaf]
      cases string : (Tree.leaf kind (src.byteOffset q) stop text).stringText? with
      | none => simpa [stringKeys, string] using ih
      | some quoted =>
          simp only [stringKeys, List.filterMap_cons, string, Option.map_some, List.cons_append]
          refine List.nodup_cons.mpr ⟨fun again => ?_, ih⟩
          have here : Between src q (q + 1) (src.byteOffset q) :=
            ⟨q, Nat.le_refl q, Nat.lt_succ_self q, inside, rfl⟩
          exact here.ne sound (later.between_keys _ again) rfl
  | @branch i q k j stop kind parts rest order within later ih ih' =>
      have inner :
          ((Tree.branch kind (src.byteOffset q) stop parts).ownKeys ++ keys parts).Nodup := by
        rcases ownKeys_branch kind (src.byteOffset q) stop parts with
          nothing | strings | ⟨self, _, _, _, _, _, rfl⟩
        · simpa [nothing] using ih.of_append_right
        · rwa [strings]
        · rw [self, List.singleton_append, keys_leaf]
          rw [keys_leaf] at ih
          refine List.nodup_cons.mpr ⟨fun again => ?_, ih.of_append_right⟩
          cases within with
          | @leaf _ q' _ _ _ _ _ order' inside later' =>
              -- The call starts no later than its first leaf, its parts behind that leaf.
              have here : Between src q (q' + 1) (src.byteOffset q) :=
                ⟨q, Nat.le_refl q, by omega, by omega, rfl⟩
              exact here.ne sound (later'.between_keys _ (List.mem_append_right _ again)) rfl
      have here : Placed src q [.branch kind (src.byteOffset q) stop parts] k :=
        .branch (Nat.le_refl q) within (.nil (Nat.le_refl k))
      have apart : ∀ a ∈ (Tree.branch kind (src.byteOffset q) stop parts).ownKeys ++ keys parts,
          ∀ b ∈ stringKeys rest ++ keys rest, a ≠ b := by
        intro a member b member'
        refine (here.between_keys a ?_).ne sound (later.between_keys b member')
        rw [keys_branch]
        exact List.mem_append_right _ (List.mem_append_left _ member)
      rw [stringKeys_branch, keys_branch]
      exact (List.perm_append_comm_assoc _ _ _).nodup_iff.mpr
        (List.nodup_append.mpr ⟨inner, ih', apart⟩)

end Keys

theorem filterMap_sublist_map {α β : Type} {f : α → Option β} {g : α → β}
    (same : ∀ a b, f a = some b → b = g a) (items : List α) :
    (items.filterMap f).Sublist (items.map g) := by
  induction items with
  | nil => exact .slnil
  | cons a rest ih =>
      cases found : f a with
      | none => simpa [found] using ih.cons (g a)
      | some b => simpa [found, same a b found] using ih

/-- The places where a tree may name something to import all differ. -/
def Tree.Apart (tree : Tree) : Prop :=
  (tree.importSources.map (·.start) ++ tree.calls.map (·.start)).Nodup

theorem apart_of_parse {d : Dialect} {text : String} {tree : Tree}
    (parsed : parse d text = some tree) : tree.Apart := by
  obtain ⟨stop, parts, j, rfl, placed⟩ := exists_placed_of_parse parsed
  have distinct := (placed.nodup_keys (Source.sound_ofString text)).of_append_right
  have all : (Tree.branch .other 0 stop parts).subtrees.flatMap Tree.ownKeys =
      Tree.keys parts := rfl
  rw [← all] at distinct
  simp only [Tree.Apart, Tree.importSources, Tree.calls, List.map_flatMap]
  exact (List.flatMap_append_perm _ _ _).nodup_iff.mpr distinct

theorem nodup_occurrencesAmong {sources : List ImportSource} {calls : List Call}
    (distinct : (sources.map (·.start) ++ calls.map (·.start)).Nodup) :
    ((occurrencesAmong sources calls).map (·.1)).Nodup := by
  refine distinct.sublist ?_
  simp only [occurrencesAmong]
  refine (List.filter_sublist.map _).trans ?_
  rw [List.map_append, List.map_filterMap, List.map_filterMap]
  refine (filterMap_sublist_map ?_ sources).append (filterMap_sublist_map ?_ calls) <;>
    simp +contextual

/-! ## The list -/

/-- The list holds what the tree names for import. -/
structure ListsSpecifiers (tree : Tree) (found : List String) : Prop where
  /-- It is what the imports and calls name, in the order of their places, each text kept where it
      comes first. -/
  firsts : ∃ occurrences : List (Nat × String),
    (∀ key text, (key, text) ∈ occurrences ↔ tree.Carries key text ∧ text ≠ "") ∧
      occurrences.Pairwise (fun a b => a.1 ≤ b.1) ∧ found = (occurrences.map (·.2)).eraseDups
  once : found.Nodup
  nonempty : "" ∉ found
  /-- It holds a text exactly if some import or call carries it. -/
  mem_iff (text : String) : text ∈ found ↔ text ≠ "" ∧ ∃ key, tree.Carries key text
  /-- Of two texts the first is carried no later than at any place that carries the second. -/
  ordered : found.Pairwise fun a b =>
    ∃ key, tree.Carries key a ∧ ∀ key', tree.Carries key' b → key ≤ key'

/-- The first occurrence of a text has the smallest key. -/
theorem le_of_mem_firstsBy {occurrences : List (Nat × String)}
    (ordered : occurrences.Pairwise fun a b => a.1 ≤ b.1) {a b : Nat × String}
    (first : a ∈ firstsBy (·.2) occurrences) (member : b ∈ occurrences) (same : b.2 = a.2) :
    a.1 ≤ b.1 := by
  induction occurrences using List.reverseRecOn with
  | nil => cases member
  | append_singleton occurrences last ih =>
      obtain ⟨front, -, before⟩ := List.pairwise_append.mp ordered
      have earlier (old : a ∈ firstsBy (·.2) occurrences) : a.1 ≤ b.1 := by
        rcases List.mem_append.mp member with member | new
        · exact ih front old member
        · obtain rfl := List.mem_singleton.mp new
          exact before a ((firstsBy_sublist _ _).subset old) b new
      rw [firstsBy_concat] at first
      split at first
      · exact earlier first
      · rename_i fresh
        rcases List.mem_append.mp first with old | new
        · exact earlier old
        · obtain rfl := List.mem_singleton.mp new
          rcases List.mem_append.mp member with member | same'
          · exact absurd (List.mem_map.mpr ⟨b, member, same⟩) fresh
          · rw [List.mem_singleton.mp same']

theorem listsSpecifiers {tree : Tree} {occurrences : List (Nat × String)}
    (carried : ∀ key text, (key, text) ∈ occurrences ↔ tree.Carries key text ∧ text ≠ "")
    (ordered : occurrences.Pairwise fun a b => a.1 ≤ b.1) :
    ListsSpecifiers tree (occurrences.map (·.2)).eraseDups where
  firsts := ⟨occurrences, carried, ordered, rfl⟩
  once := nodup_eraseDups _
  nonempty := by
    rw [List.mem_eraseDups, List.mem_map]
    rintro ⟨⟨key, text⟩, member, rfl⟩
    exact ((carried key "").mp member).2 rfl
  mem_iff text := by
    rw [List.mem_eraseDups, List.mem_map]
    constructor
    · rintro ⟨⟨key, text⟩, member, rfl⟩
      exact ⟨((carried key text).mp member).2, key, ((carried key text).mp member).1⟩
    · rintro ⟨nonempty, key, carries⟩
      exact ⟨(key, text), (carried key text).mpr ⟨carries, nonempty⟩, rfl⟩
  ordered := by
    rw [← map_firstsBy, List.pairwise_map]
    refine (ordered.sublist (firstsBy_sublist _ _)).imp_of_mem ?_
    rintro ⟨key, a⟩ ⟨key', b⟩ first second before
    have carries := (carried key a).mp ((firstsBy_sublist _ _).subset first)
    have carries' := (carried key' b).mp ((firstsBy_sublist _ _).subset second)
    refine ⟨key, carries.1, fun place named => before.trans ?_⟩
    exact le_of_mem_firstsBy ordered second ((carried place b).mpr ⟨named, carries'.2⟩) rfl

/-- At one place no two texts are named. -/
theorem Tree.Apart.text_eq {tree : Tree} (apart : tree.Apart) {key : Nat} {a b : String}
    (carries : tree.Carries key a) (carries' : tree.Carries key b) (nonempty : a ≠ "")
    (nonempty' : b ≠ "") : a = b :=
  congrArg Prod.snd (List.inj_on_of_nodup_map (nodup_occurrencesAmong apart)
    (mem_occurrencesAmong.mpr ⟨carries, nonempty⟩) (mem_occurrencesAmong.mpr ⟨carries', nonempty'⟩)
    rfl)

/-- At different places texts are named one after the other. -/
theorem ListsSpecifiers.strictly {tree : Tree} {found : List String} (apart : tree.Apart)
    (lists : ListsSpecifiers tree found) : found.Pairwise fun a b =>
      ∃ key, tree.Carries key a ∧ ∀ key', tree.Carries key' b → key < key' := by
  refine (lists.ordered.and lists.once).imp_of_mem ?_
  rintro a b first second ⟨⟨key, carries, before⟩, different⟩
  refine ⟨key, carries, fun key' carries' => (before key' carries').lt_of_ne ?_⟩
  rintro rfl
  exact different (apart.text_eq carries carries' ((lists.mem_iff a).mp first).1
    ((lists.mem_iff b).mp second).1)

/-- In strict order a list is given by its members. -/
theorem eq_of_perm_of_pairwise {items items' : List (Nat × String)} (same : items.Perm items')
    (ordered : items.Pairwise fun a b => a.1 < b.1)
    (ordered' : items'.Pairwise fun a b => a.1 < b.1) : items = items' := by
  refine same.eq_of_pairwise ?_ ordered ordered'
  intro a b _ _ before after
  exact absurd (before.trans after) (lt_irrefl a.1)

theorem occurrencesAmong_perm {sources sources' : List ImportSource} {calls calls' : List Call}
    (perm : sources.Perm sources') (perm' : calls.Perm calls') :
    (occurrencesAmong sources calls).Perm (occurrencesAmong sources' calls') :=
  ((perm.filterMap _).append (perm'.filterMap _)).filter _

/-- Sources and calls at different places give the same specifiers in whatever order they come. -/
theorem specifiersAmong_perm {sources sources' : List ImportSource} {calls calls' : List Call}
    (distinct : (sources'.map (·.start) ++ calls'.map (·.start)).Nodup)
    (perm : sources.Perm sources') (perm' : calls.Perm calls') :
    specifiersAmong sources calls = specifiersAmong sources' calls' := by
  have same := occurrencesAmong_perm perm perm'
  have apart' := nodup_occurrencesAmong distinct
  have apart := (same.map (·.1)).nodup_iff.mpr apart'
  have sorted := eq_of_perm_of_pairwise
    ((List.mergeSort_perm _ _).trans (same.trans (List.mergeSort_perm _ _).symm))
    (pairwise_sorted apart) (pairwise_sorted apart')
  rw [specifiersAmong, sorted, specifiersAmong]

/-- What is relied on of the queries: each answers with what there is in the tree, each once, in some
    order. -/
structure Reader.Faithful (reader : Reader) : Prop where
  sources (tree : Tree) : (reader.sources tree).Perm tree.importSources
  calls (tree : Tree) : (reader.calls tree).Perm tree.calls

theorem Reader.parse_ofGrammar : Reader.ofGrammar.parse = Script.parse := rfl

theorem Reader.faithful_ofGrammar : Reader.ofGrammar.Faithful where
  sources _ := .refl _
  calls _ := .refl _

namespace Reader.Faithful

variable {reader : Reader} (faithful : reader.Faithful)

include faithful

theorem mem_occurrencesAmong {tree : Tree} {key : Nat} {text : String} :
    (key, text) ∈ occurrencesAmong (reader.sources tree) (reader.calls tree) ↔
      tree.Carries key text ∧ text ≠ "" := by
  rw [(occurrencesAmong_perm (faithful.sources tree) (faithful.calls tree)).mem_iff,
    Script.mem_occurrencesAmong]

theorem lists_specifiers (tree : Tree) : ListsSpecifiers tree (reader.specifiers tree) := by
  rw [Reader.specifiers, specifiersAmong]
  refine listsSpecifiers (fun key text => ?_) (pairwise_mergeSort_le _)
  rw [List.mem_mergeSort, faithful.mem_occurrencesAmong]

end Reader.Faithful

end RepoAtlas.Script

namespace RepoAtlas

open Script

variable {reader : Script.Reader}

theorem specifiersOf_of_parse {path : Path} {text : String} {d : Dialect} {tree : Tree}
    (dialect : Language.dialect? path = some d) (parsed : reader.parse d text = some tree) :
    specifiersOf reader path text = reader.specifiers tree := by
  unfold specifiersOf
  split
  · obtain rfl := Option.some.inj (dialect.symm.trans ‹_›)
    rw [Reader.importsOf, parsed]
  · cases dialect.symm.trans ‹_›

/-- The specifiers of a script with a parse tree are what the tree names for import. If the places in
    the tree differ, they come strictly one after the other and do not depend on the order in which
    imports and calls are collected. -/
theorem specifiersOf_lists (faithful : reader.Faithful) {path : Path} {text : String} {d : Dialect}
    {tree : Tree} (dialect : Language.dialect? path = some d)
    (parsed : reader.parse d text = some tree) :
    ListsSpecifiers tree (specifiersOf reader path text) ∧
      (tree.Apart →
        ((specifiersOf reader path text).Pairwise fun a b =>
          ∃ key, tree.Carries key a ∧ ∀ key', tree.Carries key' b → key < key') ∧
        specifiersOf reader path text = specifiersAmong tree.importSources tree.calls) := by
  have lists := faithful.lists_specifiers tree
  rw [specifiersOf_of_parse dialect parsed]
  exact ⟨lists, fun apart => ⟨lists.strictly apart,
    specifiersAmong_perm apart (faithful.sources tree) (faithful.calls tree)⟩⟩

/-- An import behind two calls, one inside the other, that names the same as one of them. The first
    argument of the outer call has a comment before it. -/
def nestedRequires : String := "f(require(/*c*/ 'a', require('b')));import \x7bx\x7d from 'b'"

theorem specifiersOf_lists_nestedRequires :
    ∃ tree, Reader.ofGrammar.Faithful ∧
      Language.dialect? (Path.parse "/r/x.js") = some .javascript ∧
      Reader.ofGrammar.parse .javascript nestedRequires = some tree ∧ tree.Apart ∧
      ListsSpecifiers tree (specifiersOf .ofGrammar (Path.parse "/r/x.js") nestedRequires) ∧
      specifiersOf .ofGrammar (Path.parse "/r/x.js") nestedRequires =
        specifiersAmong tree.importSources tree.calls := by
  have dialect : Language.dialect? (Path.parse "/r/x.js") = some .javascript := by decide
  have parses : (Reader.ofGrammar.parse .javascript nestedRequires).isSome = true := by
    decide +kernel
  obtain ⟨tree, parsed⟩ := Option.isSome_iff_exists.mp parses
  have apart := apart_of_parse (Reader.parse_ofGrammar ▸ parsed)
  obtain ⟨lists, ordered⟩ := specifiersOf_lists Reader.faithful_ofGrammar dialect parsed
  exact ⟨tree, Reader.faithful_ofGrammar, dialect, parsed, apart, lists, (ordered apart).2⟩

end RepoAtlas
