import RepoAtlas.Graph.Builder
import RepoAtlas.Proofs.Except
import RepoAtlas.Proofs.Graph.Store

/-! # What a build amounts to

A build adds nodes and edges in loops that look at the store at every turn. `Store.assembled` says
without a loop what they leave: the folders above files and then the files, each where it first
occurs, and of all edges that files and imports give rise to the first of each key. Each loop of the
build is followed by a `stage`, the store that belongs to the items handled so far; one turn leads
from a stage to the next.
-/

namespace RepoAtlas

/-- What no turn of a loop changes is the same when the loop ends. -/
theorem foldlM_keeps {ε σ α γ : Type} {f : σ → α → Except ε σ} (view : σ → γ)
    (turn : ∀ s a s', f s a = .ok s' → view s' = view s) (items : List α) (s s' : σ)
    (done : items.foldlM f s = .ok s') : view s' = view s := by
  induction items generalizing s with
  | nil => exact congrArg view (Except.ok.inj done).symm
  | cons a rest ih =>
      rw [List.foldlM_cons] at done
      obtain ⟨middle, first, later⟩ := exists_of_bind_ok done
      exact (ih middle later).trans (turn s a middle first)

/-- A loop whose turns lead from one stage to the next ends at the stage of all items. -/
theorem foldlM_stages {ε σ α : Type} {f : σ → α → Except ε σ} (stage : List α → σ) (Good : α → Prop)
    (turn : ∀ done a, (∀ b ∈ done, Good b) → Good a → f (stage done) a = .ok (stage (done ++ [a])))
    (todo done : List α) (past : ∀ b ∈ done, Good b) (future : ∀ a ∈ todo, Good a) :
    todo.foldlM f (stage done) = .ok (stage (done ++ todo)) := by
  induction todo generalizing done with
  | nil => rw [List.foldlM_nil, List.append_nil]; rfl
  | cons a rest ih =>
      have good : Good a := future a (by simp)
      have past' : ∀ b ∈ done ++ [a], Good b := by
        intro b member
        rcases List.mem_append.mp member with old | new
        · exact past b old
        · exact List.mem_singleton.mp new ▸ good
      rw [List.foldlM_cons, turn done a past good, ok_bind,
        ih (done ++ [a]) past' fun b member => future b (List.mem_cons_of_mem a member),
        List.append_assoc, List.singleton_append]

namespace Builder

theorem distinct_eq {α : Type} [BEq α] [LawfulBEq α] (items : List α) :
    distinct items = items.eraseDups := by
  induction items using List.reverseRecOn with
  | nil => rfl
  | append_singleton items a ih =>
      have step : distinct (items ++ [a]) =
          if (distinct items).contains a then distinct items
          else distinct items ++ [a] := by
        simp only [distinct, List.foldl_append, List.foldl_cons, List.foldl_nil]
        rfl
      rw [step, ih, eraseDups_concat]
      simp

/-- The cluster of a path: the folder that owns it, seen from the root. -/
def clusterOf (root p : Path) : String := folderOf (root.beyond p)

theorem below_of_within {root p : Path} (within : p.Within root) :
    below root p = .ok (root.beyond p) := by
  simp only [below, Path.relativeTo?_of_within within]

theorem below_of_not_within {root p : Path} (outside : ¬p.Within root) :
    below root p = .error (.outside p) := by
  simp only [below, Path.relativeTo?_of_not_within outside]

theorem owningFolder_of_within {root p : Path} (within : p.Within root) :
    owningFolder root p = .ok (clusterOf root p) := by
  rw [owningFolder, below_of_within within]; rfl

theorem mem_beginnings {α : Type} {start parts : List α} :
    start ∈ beginnings parts ↔ start ≠ [] ∧ start <+: parts := by
  induction parts generalizing start with
  | nil => simp [beginnings]
  | cons a rest ih =>
      cases start with
      | nil => simp [beginnings]
      | cons b more =>
          simp only [beginnings, List.mem_cons, List.mem_map, ih, List.cons.injEq, ne_eq,
            List.cons_prefix_cons, reduceCtorEq, not_false_eq_true, true_and]
          constructor
          · rintro (⟨rfl, rfl⟩ | ⟨tail, ⟨-, before⟩, rfl, rfl⟩)
            · exact ⟨rfl, List.nil_prefix⟩
            · exact ⟨rfl, before⟩
          · rintro ⟨rfl, before⟩
            cases more with
            | nil => exact .inl ⟨rfl, rfl⟩
            | cons c tail => exact .inr ⟨c :: tail, ⟨by simp, before⟩, rfl, rfl⟩

theorem prefix_dropLast_iff {α : Type} {start parts : List α} (nonempty : start ≠ []) :
    start <+: parts.dropLast ↔ start <+: parts ∧ start ≠ parts := by
  rcases List.eq_nil_or_concat parts with rfl | ⟨front, last, rfl⟩
  · simp [nonempty]
  · rw [List.concat_eq_append, List.dropLast_concat, List.prefix_concat_iff]
    constructor
    · intro before
      refine ⟨.inr before, fun same => ?_⟩
      have longer := before.length_le
      simp only [same, List.length_append, List.length_singleton] at longer
      omega
    · rintro ⟨same | before, apart⟩
      · exact absurd same apart
      · exact before

/-- The folders above a file are its non-empty proper beginnings. -/
theorem mem_folderChain {start parts : List String} :
    start ∈ folderChain parts ↔ start ≠ [] ∧ start <+: parts ∧ start ≠ parts := by
  rw [folderChain, mem_beginnings]
  exact and_congr_right prefix_dropLast_iff

section Description

variable (root : Path) (withFolders : Bool)

/-- The folders above some files as components, each where it first occurs. -/
def foldersAbove (files : List ScannedFile) : List (List String) :=
  if withFolders then (files.flatMap fun file => folderChain (root.beyond file.path)).eraseDups
  else []

def recordOf (file : ScannedFile) : FileNode :=
  fileNode (clusterOf root file.path) file ((Palette.fileSize? file.metrics.loc).getD 0)

def nodeOf (file : ScannedFile) : Node := .file (recordOf root file)

/-- The link from the parent of a folder, if it has one. -/
def folderEdges (parts : List String) : List Edge :=
  if parts.dropLast.isEmpty then []
  else [⟨Path.joined parts.dropLast, Path.joined parts, .hierarchy, false⟩]

/-- The link from the folder that owns a file, if that is a node. -/
def fileEdges (file : ScannedFile) : List Edge :=
  if withFolders && clusterOf root file.path != rootCluster then
    [⟨clusterOf root file.path, file.path.text, .hierarchy, false⟩]
  else []

/-- Do the paths belong to different clusters? -/
def crosses (a b : Path) : Bool := clusterOf root a != clusterOf root b

/-- The link between the folders of two files, if both folders are nodes and differ. -/
def rollupEdges (a b : Path) : List Edge :=
  if withFolders && crosses root a b && clusterOf root a != rootCluster &&
      clusterOf root b != rootCluster then
    [⟨clusterOf root a, clusterOf root b, .rollup, false⟩]
  else []

/-- The links that an import gives rise to when these files are known. -/
def importEdges (known : List Path) (pair : Path × Path) : List Edge :=
  if pair.1 ≠ pair.2 ∧ pair.1 ∈ known ∧ pair.2 ∈ known then
    ⟨pair.1.text, pair.2.text, .imports, crosses root pair.1 pair.2⟩ ::
      rollupEdges root withFolders pair.1 pair.2
  else []

def requests (imports : List (Path × List Path)) : List (Path × Path) :=
  imports.flatMap fun row => row.2.map (row.1, ·)

end Description

section Members

variable {root : Path} {withFolders : Bool} {e : Edge}

theorem mem_folderEdges {parts : List String} : e ∈ folderEdges parts ↔
    parts.dropLast ≠ [] ∧ e = ⟨Path.joined parts.dropLast, Path.joined parts, .hierarchy, false⟩ := by
  unfold folderEdges
  by_cases top : parts.dropLast = [] <;> simp [top]

theorem mem_fileEdges {file : ScannedFile} : e ∈ fileEdges root withFolders file ↔
    (withFolders = true ∧ clusterOf root file.path ≠ rootCluster) ∧
      e = ⟨clusterOf root file.path, file.path.text, .hierarchy, false⟩ := by
  unfold fileEdges
  split
  · rename_i linked
    simp only [Bool.and_eq_true, bne_iff_ne] at linked
    simp [linked]
  · rename_i linked
    simp only [Bool.and_eq_true, bne_iff_ne] at linked
    simp [linked]

theorem mem_rollupEdges {a b : Path} : e ∈ rollupEdges root withFolders a b ↔
    (withFolders = true ∧ clusterOf root a ≠ clusterOf root b ∧ clusterOf root a ≠ rootCluster ∧
      clusterOf root b ≠ rootCluster) ∧
      e = ⟨clusterOf root a, clusterOf root b, .rollup, false⟩ := by
  unfold rollupEdges
  split
  · rename_i linked
    simp only [crosses, Bool.and_eq_true, bne_iff_ne, and_assoc] at linked
    simp [linked]
  · rename_i linked
    simp only [crosses, Bool.and_eq_true, bne_iff_ne, and_assoc] at linked
    simp [linked]

theorem mem_importEdges {known : List Path} {pair : Path × Path} :
    e ∈ importEdges root withFolders known pair ↔
      (pair.1 ≠ pair.2 ∧ pair.1 ∈ known ∧ pair.2 ∈ known) ∧
        (e = ⟨pair.1.text, pair.2.text, .imports, crosses root pair.1 pair.2⟩ ∨
          e ∈ rollupEdges root withFolders pair.1 pair.2) := by
  unfold importEdges
  split
  · rename_i among
    rw [List.mem_cons, and_iff_right among]
  · rename_i among
    simp [among]

theorem kind_folderEdges {parts : List String} : ∀ e ∈ folderEdges parts, e.kind = .hierarchy := by
  intro e member
  rw [(mem_folderEdges.mp member).2]

theorem kind_fileEdges {file : ScannedFile} :
    ∀ e ∈ fileEdges root withFolders file, e.kind = .hierarchy := by
  intro e member
  rw [(mem_fileEdges.mp member).2]

theorem kind_hierarchy {folders : List (List String)} {files : List ScannedFile} :
    ∀ e ∈ folders.flatMap folderEdges ++ files.flatMap (fileEdges root withFolders),
      e.kind = .hierarchy := by
  intro e member
  rcases List.mem_append.mp member with ofFolder | ofFile
  · obtain ⟨parts, -, inside⟩ := List.mem_flatMap.mp ofFolder
    exact kind_folderEdges e inside
  · obtain ⟨file, -, inside⟩ := List.mem_flatMap.mp ofFile
    exact kind_fileEdges e inside

theorem kind_rollupEdges {a b : Path} : ∀ e ∈ rollupEdges root withFolders a b, e.kind = .rollup := by
  intro e member
  rw [(mem_rollupEdges.mp member).2]

end Members

end Builder

open Builder in
/-- The graph of files and of the files they import, described without a loop. -/
def Store.assembled (root : Path) (withFolders : Bool) (files : List ScannedFile)
    (imports : List (Path × List Path)) : Store where
  nodes :=
    (foldersAbove root withFolders files).map (.folder <| folderNode root ·) ++
      (firstsBy (·.path) files).map (nodeOf root)
  edges :=
    ((foldersAbove root withFolders files).flatMap folderEdges ++
      files.flatMap (fileEdges root withFolders) ++
      (requests imports).flatMap (importEdges root withFolders (files.map (·.path)))).eraseDups

end RepoAtlas
