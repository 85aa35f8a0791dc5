import Mathlib.Data.Finset.Card
import Mathlib.Logic.Relation
import RepoAtlas.Proofs.Graph.Reordering

/-! # The files that were edited most

Files are ranked by their commits, and of files with equally many commits the one scanned first
comes first. Both together order the files strictly, so the bound of the ranking cuts it at a definite
place: whatever is left out comes behind everything that is listed. Only the files of a graph are
looked at; folders and edges may come and go.
-/

namespace RepoAtlas

/-- Sorting keeps the order of items that tie. -/
theorem filter_mergeSort {α : Type} {le : α → α → Bool} {ties : α → Bool}
    (trans : ∀ a b c, le a b → le b c → le a c) (total : ∀ a b, le a b || le b a)
    (tied : ∀ a b, ties a → ties b → le a b) (items : List α) :
    (items.mergeSort le).filter ties = items.filter ties := by
  have among : ∀ a ∈ items.filter ties, ties a = true := fun a member => (List.mem_filter.mp member).2
  have ordered : (items.filter ties).Pairwise fun a b => le a b = true :=
    List.pairwise_of_forall_mem_list fun a first b second => tied a b (among a first) (among b second)
  have kept : (items.filter ties).Sublist (items.mergeSort le) :=
    List.sublist_mergeSort trans total ordered List.filter_sublist
  have inside : (items.filter ties).Sublist ((items.mergeSort le).filter ties) := by
    have both := kept.filter ties
    rwa [List.filter_eq_self.mpr among] at both
  exact (inside.eq_of_length ((List.mergeSort_perm items le).filter ties).length_eq.symm).symm

/-- Sorted by a key, the largest first, items with the same key are in the order in which they came. -/
theorem pairwise_mergeSort {α κ : Type} [LinearOrder κ] (key : α → κ) {items : List α}
    {earlier : α → α → Prop} (came : items.Pairwise earlier) :
    (items.mergeSort fun a b => key b ≤ key a).Pairwise fun a b =>
      key b < key a ∨ key b = key a ∧ earlier a b := by
  have trans : ∀ a b c, decide (key b ≤ key a) → decide (key c ≤ key b) → decide (key c ≤ key a) := by
    intro a b c first second
    rw [decide_eq_true_eq] at first second ⊢
    exact second.trans first
  have total : ∀ a b, decide (key b ≤ key a) || decide (key a ≤ key b) := by
    intro a b
    rw [Bool.or_eq_true, decide_eq_true_eq, decide_eq_true_eq]
    exact le_total _ _
  refine List.pairwise_iff_forall_sublist.mpr fun {a b} pair => ?_
  have sorted := List.pairwise_mergeSort trans total items
  have first := of_decide_eq_true (List.pairwise_iff_forall_sublist.mp sorted pair)
  rcases first.lt_or_eq with less | tie
  · exact .inl less
  · -- Both items have the key of the first one; among those nothing is moved.
    let ties : α → Bool := fun c => key c = key a
    have both : [a, b].Sublist (items.filter ties) := by
      have kept := pair.filter ties
      rw [filter_mergeSort trans total (fun c d hc hd => by
        rw [decide_eq_true_eq, of_decide_eq_true hc, of_decide_eq_true hd]) items] at kept
      simpa [ties, tie] using kept
    exact .inr ⟨tie, List.pairwise_iff_forall_sublist.mp came (both.trans List.filter_sublist)⟩

namespace Stats

/-- The first file is ranked before the second: it has more commits, or as many and an earlier place
    in the scan. -/
def Precedes (a b : FileNode × Nat) : Prop :=
  b.1.commits < a.1.commits ∨ b.1.commits = a.1.commits ∧ a.2 < b.2

/-- The places of the scan that are listed as edited most. -/
structure Lists (files : List FileNode) (top : Nat) (listed : List (FileNode × Nat)) : Prop where
  length : listed.length = min top (files.countP fun f => 0 < f.commits)
  edited : ∀ entry ∈ listed, files[entry.2]? = some entry.1 ∧ 0 < entry.1.commits
  distinct : (listed.map (·.2)).Nodup
  ordered : listed.Pairwise Precedes
  leftOut : ∀ i f, files[i]? = some f → 0 < f.commits → (f, i) ∉ listed →
    ∀ entry ∈ listed, Precedes entry (f, i)

/-- The summary tells how many files there are, how many clusters they have, and which of them were
    edited most. -/
structure Tells (stats : Stats) (files : List FileNode) (top : Nat) : Prop where
  totalFiles : stats.totalFiles = files.length
  clusters : stats.clusters = (files.map (·.cluster)).toFinset.card
  mostEdited : ∃ listed, Lists files top listed ∧
    stats.mostEdited = listed.map fun entry => entryOf entry.1

section Ranking

variable {files : List FileNode}

/-- The first file has at least as many commits as the second. -/
def atLeast (a b : FileNode × Nat) : Bool := b.1.commits ≤ a.1.commits

end Ranking

end Stats

/-- A file in the root with so many commits. -/
def FileNode.committed (name : String) (commits : Int) : FileNode :=
  { id := "/r/" ++ name, label := name, cluster := rootCluster, path := "/r/" ++ name, loc := 1,
    complexity := 1, commits, color := "", size := 4 }

/-- Two files with equally many commits around the cut, one with more behind them, one without. -/
def Store.tied : Store where
  nodes := [.file (.committed "a.ts" 3), .file (.committed "b.ts" 3), .file (.committed "c.ts" 0),
    .file (.committed "d.ts" 5)]
  edges := []

end RepoAtlas
