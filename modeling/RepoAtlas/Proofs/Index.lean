import RepoAtlas.Index
import RepoAtlas.Proofs.Distinct

/-! # What an index answers

The names of an index stand in the order in which they first occur, but each leads to the last path
that bears it. So what an index answers can be said of the list of paths alone, and whichever way a
specifier is resolved, it means one of them.
-/

namespace RepoAtlas

section PutLast

variable {α β : Type} [BEq α] [LawfulBEq α]

theorem keys_putLast (key : α) (value : β) (pairs : List (α × β)) :
    (putLast key value pairs).map (·.1) =
      if key ∈ pairs.map (·.1) then pairs.map (·.1) else pairs.map (·.1) ++ [key] := by
  induction pairs with
  | nil => rfl
  | cons pair rest ih =>
      obtain ⟨k, v⟩ := pair
      rw [putLast]
      by_cases same : k = key
      · simp [same]
      · have inside : key ∈ ((k, v) :: rest).map (·.1) ↔ key ∈ rest.map (·.1) := by
          simp [Ne.symm same]
        rw [if_neg (by simpa using same), List.map_cons, ih]
        simp only [inside]
        split <;> rfl

theorem lookup_putLast (key : α) (value : β) (pairs : List (α × β)) (k : α) :
    (putLast key value pairs).lookup k = if k == key then some value else pairs.lookup k := by
  induction pairs with
  | nil =>
      rw [putLast, List.lookup_cons]
      cases k == key <;> rfl
  | cons pair rest ih =>
      obtain ⟨k', v⟩ := pair
      rw [putLast]
      by_cases here : k' = key
      · subst here
        simp only [beq_self_eq_true, if_true, List.lookup_cons]
        cases k == k' <;> rfl
      · rw [if_neg (by simpa using here), List.lookup_cons, List.lookup_cons, ih]
        by_cases same : k = k'
        · simp [same, here]
        · rw [beq_false_of_ne same]

theorem nodup_keys_putLast {key : α} {value : β} {pairs : List (α × β)}
    (distinct : (pairs.map (·.1)).Nodup) : ((putLast key value pairs).map (·.1)).Nodup := by
  rw [keys_putLast]
  split
  · exact distinct
  · rename_i fresh
    exact nodup_concat distinct fresh

theorem mem_of_mem_putLast {key : α} {value : β} {pairs : List (α × β)} {pair : α × β}
    (member : pair ∈ putLast key value pairs) : pair = (key, value) ∨ pair ∈ pairs := by
  induction pairs with
  | nil => exact .inl (List.mem_singleton.mp member)
  | cons head rest ih =>
      obtain ⟨k, v⟩ := head
      rw [putLast] at member
      split at member
      case isTrue same =>
        rw [beq_iff_eq.mp same, List.mem_cons] at member
        exact member.imp id (List.mem_cons_of_mem _)
      case isFalse other =>
        rcases List.mem_cons.mp member with rfl | later
        · exact .inr List.mem_cons_self
        · exact (ih later).imp id (List.mem_cons_of_mem _)

theorem mem_of_mem_foldl_putLast {pairs : List (α × β)} {pair : α × β}
    (member : pair ∈ pairs.foldl (fun known pair => putLast pair.1 pair.2 known) []) :
    pair ∈ pairs := by
  induction pairs using List.reverseRecOn with
  | nil => exact member
  | append_singleton pairs last ih =>
      rw [List.foldl_append, List.foldl_cons, List.foldl_nil] at member
      rw [List.mem_append, List.mem_singleton]
      rcases mem_of_mem_putLast member with here | before
      · exact .inr here
      · exact .inl (ih before)

/-- Putting pairs one after the other leaves every key once. -/
theorem nodup_keys_foldl_putLast (pairs : List (α × β)) :
    ((pairs.foldl (fun known pair => putLast pair.1 pair.2 known) []).map (·.1)).Nodup := by
  induction pairs using List.reverseRecOn with
  | nil => exact List.nodup_nil
  | append_singleton pairs pair ih =>
      rw [List.foldl_append, List.foldl_cons, List.foldl_nil]
      exact nodup_keys_putLast ih

theorem filter_putLast (keep : α → Bool) (key : α) (value : β) (pairs : List (α × β)) :
    (putLast key value pairs).filter (fun pair => keep pair.1) =
      if keep key then putLast key value (pairs.filter fun pair => keep pair.1)
      else pairs.filter fun pair => keep pair.1 := by
  induction pairs with
  | nil => cases kept : keep key <;> simp [putLast, kept]
  | cons head rest ih =>
      obtain ⟨k, v⟩ := head
      rw [putLast]
      by_cases same : k = key
      · subst same
        cases kept : keep k <;> simp [putLast, kept]
      · rw [if_neg (by simpa using same), List.filter_cons, ih, List.filter_cons]
        cases keep k <;> cases keep key <;> simp [putLast, same]

/-- Keys can be left out before or after their pairs are put. -/
theorem filter_foldl_putLast (keep : α → Bool) (pairs : List (α × β)) :
    (pairs.foldl (fun known pair => putLast pair.1 pair.2 known) []).filter
        (fun pair => keep pair.1) =
      (pairs.filter fun pair => keep pair.1).foldl
        (fun known pair => putLast pair.1 pair.2 known) [] := by
  induction pairs using List.reverseRecOn with
  | nil => rfl
  | append_singleton pairs last ih =>
      rw [List.foldl_append, List.foldl_cons, List.foldl_nil, filter_putLast, ih,
        List.filter_append, List.foldl_append]
      cases kept : keep last.1 <;> simp [kept]

/-- If all pairs of a key agree, it makes no difference which of them was put last. -/
theorem lookup_foldl_putLast {pairs : List (α × β)} {key : α} {value : β}
    (agree : ∀ pair ∈ pairs, pair.1 = key → pair.2 = value) :
    (pairs.foldl (fun known pair => putLast pair.1 pair.2 known) []).lookup key =
      if key ∈ pairs.map (·.1) then some value else none := by
  induction pairs using List.reverseRecOn with
  | nil => rfl
  | append_singleton pairs pair ih =>
      have front := ih fun other member => agree other (List.mem_append_left [pair] member)
      rw [List.foldl_append, List.foldl_cons, List.foldl_nil, lookup_putLast, front]
      by_cases here : key = pair.1
      · simp [here, agree pair (by simp) here.symm]
      · have inside : key ∈ (pairs ++ [pair]).map (·.1) ↔ key ∈ pairs.map (·.1) := by simp [here]
        rw [beq_false_of_ne here, if_neg Bool.false_ne_true]
        exact if_congr inside.symm rfl rfl

/-- The first pair whose key passes a test is found by its key, too. -/
theorem map_find?_eq_bind_lookup (test : α → Bool) (pairs : List (α × β)) :
    (pairs.find? fun pair => test pair.1).map (·.2) =
      ((pairs.map (·.1)).find? test).bind fun key => pairs.lookup key := by
  induction pairs with
  | nil => rfl
  | cons pair rest ih =>
      obtain ⟨k, v⟩ := pair
      by_cases passes : test k = true
      · simp [passes]
      · simp only [List.find?_cons, List.map_cons, passes]
        rw [ih]
        -- A key that passes is not `k`, so it is looked up behind the first pair.
        cases found : (rest.map (·.1)).find? test with
        | none => rfl
        | some key =>
            have other : key ≠ k := by
              rintro rfl
              exact passes (List.find?_some found)
            rw [Option.bind_some, Option.bind_some, List.lookup_cons, beq_false_of_ne other]

end PutLast

/-- The last of the paths that bear a name. -/
def lastNamed? (paths : List Path) (name : String) : Option Path :=
  paths.reverse.find? (·.name == name)

theorem lastNamed?_concat (paths : List Path) (p : Path) (name : String) :
    lastNamed? (paths ++ [p]) name = if name = p.name then some p else lastNamed? paths name := by
  rw [lastNamed?, List.reverse_concat, List.find?_cons]
  by_cases same : name = p.name
  · simp [same]
  · rw [if_neg same, beq_false_of_ne (Ne.symm same), lastNamed?]

theorem mem_of_lastNamed? {paths : List Path} {name : String} {p : Path}
    (found : lastNamed? paths name = some p) : p ∈ paths :=
  List.mem_reverse.mp (List.mem_of_find?_eq_some found)

namespace Index

theorem ofPaths_concat (paths : List Path) (p : Path) :
    (ofPaths (paths ++ [p])).entries = putLast p.name p (ofPaths paths).entries := by
  simp only [ofPaths, List.foldl_append, List.foldl_cons, List.foldl_nil]

theorem names_ofPaths (paths : List Path) :
    (ofPaths paths).entries.map (·.1) = (paths.map Path.name).eraseDups := by
  induction paths using List.reverseRecOn with
  | nil => rfl
  | append_singleton paths p ih =>
      rw [ofPaths_concat, keys_putLast, ih, List.map_append, List.map_singleton, eraseDups_concat]
      simp only [List.mem_eraseDups]

theorem get?_ofPaths (paths : List Path) (name : String) :
    (ofPaths paths).get? name = lastNamed? paths name := by
  induction paths using List.reverseRecOn with
  | nil => rfl
  | append_singleton paths p ih =>
      simp only [get?, ofPaths_concat, lookup_putLast, lastNamed?_concat, ← ih, beq_iff_eq]

theorem suffixMatch?_ofPaths (paths : List Path) (specifier : String) :
    (ofPaths paths).suffixMatch? specifier =
      ((paths.map Path.name).eraseDups.find? (Text.endsWith specifier)).bind
        (lastNamed? paths) := by
  rw [suffixMatch?, map_find?_eq_bind_lookup, names_ofPaths]
  congr 1
  funext name
  exact get?_ofPaths paths name

theorem mem_of_suffixMatch? {paths : List Path} {specifier : String} {p : Path}
    (found : (ofPaths paths).suffixMatch? specifier = some p) : p ∈ paths := by
  rw [suffixMatch?_ofPaths] at found
  obtain ⟨name, -, last⟩ := Option.bind_eq_some_iff.mp found
  exact mem_of_lastNamed? last

theorem mem_of_named? {paths : List Path} {specifier : String} {p : Path}
    (found : Resolution.named? (ofPaths paths) specifier = some p) : p ∈ paths := by
  unfold Resolution.named? at found
  simp only at found
  split at found
  · cases found
  · obtain ⟨_, suffix, _, -, hit, -⟩ := List.findSome?_eq_some_iff.mp found
    rw [get?_ofPaths] at hit
    exact mem_of_lastNamed? hit

theorem mem_of_pointedAt? {paths : List Path} {importer : Path} {specifier : String} {p : Path}
    (found : Resolution.pointedAt? (ofPaths paths) importer specifier = some p) : p ∈ paths := by
  have listed := List.find?_some found
  exact List.mem_of_elem_eq_true listed

theorem mem_of_resolve {paths : List Path} {importer : Option Path} {relativeFirst : Bool}
    {specifier : String} {p : Path}
    (found : resolve (ofPaths paths) importer relativeFirst specifier = some p) : p ∈ paths := by
  unfold resolve at found
  simp only at found
  split at found
  · cases found
  · rcases Option.or_eq_some_iff.mp found with first | ⟨-, last⟩
    · rcases Option.or_eq_some_iff.mp first with pointed | ⟨-, named⟩
      · cases importer with
        | none => cases pointed
        | some importer =>
            simp only at pointed
            split at pointed
            · exact mem_of_pointedAt? pointed
            · cases pointed
      · exact mem_of_named? named
    · exact mem_of_suffixMatch? last

end Index

end RepoAtlas
