import Mathlib.Data.List.Induction
import Mathlib.Data.List.Nodup

/-! # First occurrences and distinct keys

A graph never holds the same thing twice: of nodes with one id and of edges with one key the first
stays. Removing later occurrences is described from the end of a list, because this is where a build
adds: the last item counts only if nothing before it is like it. Where keys are distinct, a lookup
finds every pair and sorting leaves no choice.
-/

namespace RepoAtlas

variable {α β : Type}

/-- The items whose key no item before them has. -/
def firstsBy [BEq β] (key : α → β) (items : List α) : List α :=
  items.eraseDupsBy fun a b => key a == key b

theorem firstsBy_cons [BEq β] (key : α → β) (a : α) (rest : List α) :
    firstsBy key (a :: rest) = a :: firstsBy key (rest.filter fun b => !(key b == key a)) := by
  simp [firstsBy, List.eraseDupsBy_cons]

section FirstsBy

variable [BEq β] [LawfulBEq β] (key : α → β)

theorem firstsBy_concat (items : List α) (a : α) :
    firstsBy key (items ++ [a]) =
      if key a ∈ items.map key then firstsBy key items else firstsBy key items ++ [a] := by
  match items with
  | [] => rfl
  | first :: rest =>
      have shorter : (rest.filter fun b => !(key b == key first)).length < rest.length + 1 :=
        Nat.lt_succ_of_le (List.length_filter_le _ _)
      have tail := firstsBy_concat (rest.filter fun b => !(key b == key first)) a
      rw [List.cons_append, firstsBy_cons, firstsBy_cons, List.filter_append]
      by_cases known : key a = key first
      · simp [known]
      · -- The key of `a` is not that of the first item, so the filter keeps all that have it.
        have kept : key a ∈ (rest.filter fun b => !(key b == key first)).map key ↔
            key a ∈ (first :: rest).map key := by
          simp only [List.map_cons, List.mem_cons, known, false_or, List.mem_map, List.mem_filter]
          refine exists_congr fun b => ⟨fun h => ⟨h.1.1, h.2⟩, fun h => ⟨⟨h.1, ?_⟩, h.2⟩⟩
          simpa [h.2] using known
        have last : [a].filter (fun b => !(key b == key first)) = [a] := by simpa using known
        simp only [kept] at tail
        rw [last, tail]
        split <;> rfl
termination_by items.length

theorem firstsBy_sublist (items : List α) : (firstsBy key items).Sublist items := by
  induction items using List.reverseRecOn with
  | nil => exact .slnil
  | append_singleton items a ih =>
      rw [firstsBy_concat]
      split
      · exact ih.trans (List.sublist_append_left items [a])
      · exact ih.append_right [a]


end FirstsBy

theorem nodup_concat {items : List α} {a : α} (distinct : items.Nodup) (fresh : a ∉ items) :
    (items ++ [a]).Nodup := by
  refine List.nodup_append.mpr ⟨distinct, by simp, ?_⟩
  intro b old c new same
  rw [List.mem_singleton.mp new] at same
  exact fresh (same ▸ old)

section EraseDups

variable [BEq α] [LawfulBEq α]

theorem eraseDups_concat (items : List α) (a : α) :
    (items ++ [a]).eraseDups =
      if a ∈ items then items.eraseDups else items.eraseDups ++ [a] := by
  have general := firstsBy_concat id items a
  simp only [id_eq, List.map_id] at general
  exact general

theorem nodup_eraseDups (items : List α) : items.eraseDups.Nodup := by
  induction items using List.reverseRecOn with
  | nil => exact List.nodup_nil
  | append_singleton items a ih =>
      rw [eraseDups_concat]
      split
      · exact ih
      · rename_i fresh
        exact nodup_concat ih (mt List.mem_eraseDups.mp fresh)

theorem eraseDups_of_nodup {items : List α} (distinct : items.Nodup) : items.eraseDups = items := by
  induction items using List.reverseRecOn with
  | nil => rfl
  | append_singleton items a ih =>
      obtain ⟨front, -, apart⟩ := List.nodup_append.mp distinct
      have fresh : a ∉ items := fun old => apart a old a (by simp) rfl
      rw [eraseDups_concat, if_neg fresh, ih front]

/-- Items that are all known already leave no trace. -/
theorem eraseDups_append_of_subset {items more : List α} (known : more ⊆ items) :
    (items ++ more).eraseDups = items.eraseDups := by
  induction more using List.reverseRecOn with
  | nil => rw [List.append_nil]
  | append_singleton more a ih =>
      have front : more ⊆ items := fun b member => known (List.mem_append_left [a] member)
      have last : a ∈ items ++ more := List.mem_append_left more (known (by simp))
      rw [← List.append_assoc, eraseDups_concat, if_pos last, ih front]

theorem filter_eraseDups (test : α → Bool) (items : List α) :
    items.eraseDups.filter test = (items.filter test).eraseDups := by
  induction items using List.reverseRecOn with
  | nil => rfl
  | append_singleton items a ih =>
      rw [eraseDups_concat, List.filter_append]
      by_cases passes : test a = true
      · have last : [a].filter test = [a] := by simp [passes]
        have kept : a ∈ items.filter test ↔ a ∈ items := by simp [passes]
        rw [last, eraseDups_concat]
        simp only [kept]
        split
        · exact ih
        · rw [List.filter_append, last, ih]
      · have last : [a].filter test = [] := by simp [passes]
        rw [last, List.append_nil]
        split
        · exact ih
        · rw [List.filter_append, last, List.append_nil, ih]

/-- A function that tells the items apart may be applied before or after. -/
theorem map_eraseDups [BEq β] [LawfulBEq β] {f : α → β} {items : List α}
    (apart : ∀ a ∈ items, ∀ b ∈ items, f a = f b → a = b) :
    items.eraseDups.map f = (items.map f).eraseDups := by
  induction items using List.reverseRecOn with
  | nil => rfl
  | append_singleton items a ih =>
      have front := ih fun b old c older => apart b (List.mem_append_left [a] old) c
        (List.mem_append_left [a] older)
      have image : f a ∈ items.map f ↔ a ∈ items := by
        refine ⟨fun member => ?_, List.mem_map_of_mem⟩
        obtain ⟨b, old, same⟩ := List.mem_map.mp member
        exact apart b (List.mem_append_left [a] old) a (by simp) same ▸ old
      rw [List.map_append, List.map_singleton, eraseDups_concat, eraseDups_concat]
      simp only [image]
      split
      · exact front
      · rw [List.map_append, List.map_singleton, front]

end EraseDups

theorem map_firstsBy [BEq β] [LawfulBEq β] (key : α → β) (items : List α) :
    (firstsBy key items).map key = (items.map key).eraseDups := by
  induction items using List.reverseRecOn with
  | nil => rfl
  | append_singleton items a ih =>
      rw [firstsBy_concat, List.map_append, List.map_singleton, eraseDups_concat]
      split
      · exact ih
      · rw [List.map_append, List.map_singleton, ih]

section Lookup

variable [BEq α] [LawfulBEq α] {pairs : List (α × β)} {a : α} {b : β}

theorem mem_of_lookup (found : pairs.lookup a = some b) : (a, b) ∈ pairs := by
  obtain ⟨before, after, rfl, -⟩ := List.lookup_eq_some_iff.mp found
  simp

theorem lookup_of_mem (distinct : (pairs.map (·.1)).Nodup) (member : (a, b) ∈ pairs) :
    pairs.lookup a = some b := by
  obtain ⟨before, after, rfl⟩ := List.append_of_mem member
  refine List.lookup_eq_some_iff.mpr ⟨before, after, rfl, fun pair inside => ?_⟩
  rw [List.map_append, List.nodup_append] at distinct
  rw [bne_iff_ne]
  exact fun same => distinct.2.2 pair.1 (List.mem_map_of_mem inside) a (by simp) same.symm

/-- Lists of pairs that answer every lookup alike hold the same pairs. -/
theorem perm_of_lookup {more : List (α × β)} (distinct : (pairs.map (·.1)).Nodup)
    (distinct' : (more.map (·.1)).Nodup) (same : ∀ a, pairs.lookup a = more.lookup a) :
    pairs.Perm more := by
  refine (List.perm_ext_iff_of_nodup distinct.of_map distinct'.of_map).mpr ?_
  rintro ⟨a, b⟩
  constructor
  · intro member
    exact mem_of_lookup (same a ▸ lookup_of_mem distinct member)
  · intro member
    exact mem_of_lookup ((same a).symm ▸ lookup_of_mem distinct' member)

end Lookup

section Sorted

variable {κ : Type} [LE κ] [DecidableLE κ] [Std.IsLinearOrder κ]

theorem pairwise_mergeSort_le (items : List (κ × α)) :
    (items.mergeSort fun a b => a.1 ≤ b.1).Pairwise fun a b => a.1 ≤ b.1 := by
  have ordered : (items.mergeSort fun a b => a.1 ≤ b.1).Pairwise
      fun a b => decide (a.1 ≤ b.1) = true := by
    refine List.pairwise_mergeSort ?_ ?_ items
    · intro a b c first second
      rw [decide_eq_true_eq] at first second ⊢
      exact Std.IsPreorder.le_trans _ _ _ first second
    · intro a b
      rw [Bool.or_eq_true, decide_eq_true_eq, decide_eq_true_eq]
      exact Std.Total.total a.1 b.1
  exact ordered.imp of_decide_eq_true

/-- Sorting by keys that differ puts the keys in strict order. -/
theorem pairwise_sorted [LT κ] [Std.LawfulOrderLT κ] {items : List (κ × α)}
    (distinct : (items.map (·.1)).Nodup) :
    (items.mergeSort fun a b => a.1 ≤ b.1).Pairwise fun a b => a.1 < b.1 := by
  have apart : ((items.mergeSort fun a b => a.1 ≤ b.1).map (·.1)).Nodup :=
    ((List.mergeSort_perm items _).map _).nodup_iff.mpr distinct
  rw [List.Nodup, List.pairwise_map] at apart
  refine (pairwise_mergeSort_le items).imp₂ ?_ apart
  intro a b before differ
  exact (Std.LawfulOrderLT.lt_iff a.1 b.1).mpr
    ⟨before, fun after => differ (Std.Antisymm.antisymm _ _ before after)⟩

end Sorted

end RepoAtlas
