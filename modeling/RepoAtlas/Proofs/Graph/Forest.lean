import RepoAtlas.Proofs.Graph.Separation

/-! # The directory forest

The hierarchy of a graph is the forest of the folders above its files. Every node has a place, its
components below the root, and a node is held by the folder of its place without the last component
and by nothing else. What a forest has to satisfy follows from this one fact: one parent, no cycle,
and all proper beginnings of a place on the way up.
-/

namespace RepoAtlas

open Builder

/-- The components lead from the root to a folder above one of the files. -/
def FolderAbove (root : Path) (files : List ScannedFile) (parts : List String) : Prop :=
  ∃ file ∈ files, parts ≠ [] ∧ parts <+: root.beyond file.path ∧ parts ≠ root.beyond file.path

namespace Store

/-- One node holds another. -/
def Holds (s : Store) (a b : String) : Prop := (a, b) ∈ (s.edgesOf .hierarchy).map Edge.ends

/-- The folders and the hierarchy of a graph are the directory forest of these files. -/
structure DirectoryForest (s : Store) (root : Path) (files : List ScannedFile) : Prop where
  ids : s.nodes.map Node.id = s.folders.map (·.id) ++ (files.map (·.path.text)).eraseDups
  folders : ∀ id, id ∈ s.folders.map (·.id) ↔
    ∃ parts, FolderAbove root files parts ∧ id = Path.joined parts
  foldersOnce : (s.folders.map (·.id)).Nodup
  parentsFirst : ∀ before after parts, FolderAbove root files parts → 2 ≤ parts.length →
    s.folders.map (·.id) = before ++ Path.joined parts :: after → Path.joined parts.dropLast ∈ before
  edges : ∀ a b, s.Holds a b ↔
    (∃ parts, FolderAbove root files parts ∧ 2 ≤ parts.length ∧
      a = Path.joined parts.dropLast ∧ b = Path.joined parts) ∨
    (∃ file ∈ files, 2 ≤ (root.beyond file.path).length ∧
      a = Path.joined (root.beyond file.path).dropLast ∧ b = file.path.text)
  edgesOnce : ((s.edgesOf .hierarchy).map Edge.ends).Nodup
  oneParent : ∀ a a' b, s.Holds a b → s.Holds a' b → a = a'
  tops : ∀ id ∈ s.nodes.map Node.id, (∀ a, ¬s.Holds a id) ↔
    FolderAbove root files [id] ∨
      ∃ file ∈ files, (root.beyond file.path).length = 1 ∧ id = file.path.text
  acyclic : ∀ id, ¬Relation.TransGen s.Holds id id
  ancestors : ∀ file ∈ files, ∀ id, Relation.TransGen s.Holds id file.path.text ↔
    ∃ parts, parts ≠ [] ∧ parts <+: root.beyond file.path ∧ parts ≠ root.beyond file.path ∧
      id = Path.joined parts

end Store

/-! ## Parents come first -/

/-- Every list of components but those of length one comes after its parent. -/
inductive ParentsFirst : List (List String) → Prop
  | nil : ParentsFirst []
  | concat {folders : List (List String)} {parts : List String} : ParentsFirst folders →
      (parts.dropLast ≠ [] → parts.dropLast ∈ folders) → ParentsFirst (folders ++ [parts])

namespace ParentsFirst

theorem of_concat {folders : List (List String)} {parts : List String}
    (ordered : ParentsFirst (folders ++ [parts])) :
    ParentsFirst folders ∧ (parts.dropLast ≠ [] → parts.dropLast ∈ folders) := by
  generalize whole : folders ++ [parts] = all at ordered
  cases ordered with
  | nil => simp at whole
  | concat front parent =>
      obtain ⟨rfl, last⟩ := List.append_inj' whole rfl
      obtain rfl := List.singleton_inj.mp last
      exact ⟨front, parent⟩

theorem append {folders more : List (List String)} (ordered : ParentsFirst folders)
    (ordered' : ParentsFirst more) : ParentsFirst (folders ++ more) := by
  induction ordered' with
  | nil => rwa [List.append_nil]
  | concat _ parent ih =>
      rw [← List.append_assoc]
      exact .concat ih fun deep => List.mem_append_right folders (parent deep)

theorem eraseDups {folders : List (List String)} (ordered : ParentsFirst folders) :
    ParentsFirst folders.eraseDups := by
  induction ordered with
  | nil => exact .nil
  | concat _ parent ih =>
      rw [eraseDups_concat]
      split
      · exact ih
      · exact .concat ih fun deep => List.mem_eraseDups.mpr (parent deep)

theorem mem_before {before after : List (List String)} {parts : List String}
    (ordered : ParentsFirst (before ++ parts :: after)) (deep : parts.dropLast ≠ []) :
    parts.dropLast ∈ before := by
  induction after using List.reverseRecOn with
  | nil => exact ordered.of_concat.2 deep
  | append_singleton after last ih =>
      rw [← List.cons_append, ← List.append_assoc] at ordered
      exact ih ordered.of_concat.1

end ParentsFirst

theorem beginnings_concat {α : Type} (parts : List α) (a : α) :
    beginnings (parts ++ [a]) = beginnings parts ++ [parts ++ [a]] := by
  induction parts with
  | nil => rfl
  | cons b rest ih => simp only [List.cons_append, beginnings, ih, List.map_append, List.map_singleton]

theorem parentsFirst_beginnings (parts : List String) : ParentsFirst (beginnings parts) := by
  induction parts using List.reverseRecOn with
  | nil => exact .nil
  | append_singleton parts a ih =>
      rw [beginnings_concat]
      refine .concat ih fun deep => ?_
      rw [List.dropLast_concat] at deep ⊢
      exact mem_beginnings.mpr ⟨deep, List.prefix_rfl⟩

theorem parentsFirst_foldersAbove (root : Path) (withFolders : Bool) (files : List ScannedFile) :
    ParentsFirst (foldersAbove root withFolders files) := by
  unfold foldersAbove
  split
  · refine .eraseDups ?_
    induction files with
    | nil => exact .nil
    | cons file rest ih =>
        rw [List.flatMap_cons]
        exact (parentsFirst_beginnings _).append ih
  · exact .nil

/-! ## Places -/

section Places

variable {root : Path} {files : List ScannedFile} {imports : List (Path × List Path)}

/-- The components below the root of what an id names. -/
def place (root : Path) (id : String) : List String :=
  if (Path.parse id).isAbsolute then root.beyond (Path.parse id) else (Path.parse id).parts

theorem place_joined {parts : List String} (proper : ∀ part ∈ parts, isComponent part = true) :
    place root (Path.joined parts) = parts := by
  simp [place, Path.parse_joined proper, Path.isAbsolute]

theorem place_text {p : Path} (absolute : p.isAbsolute = true) :
    place root p.text = root.beyond p := by
  rw [place, Path.parse_text, if_pos absolute]

theorem FolderAbove.proper {parts : List String} (above : FolderAbove root files parts) :
    ∀ part ∈ parts, isComponent part = true := by
  obtain ⟨file, -, -, before, -⟩ := above
  exact fun part member => root.proper_beyond file.path part (before.subset member)

theorem two_le_length_iff {α : Type} {parts : List α} : 2 ≤ parts.length ↔ parts.dropLast ≠ [] := by
  rw [← List.length_pos_iff, List.length_dropLast]
  omega

theorem holds_assembled {a b : String} :
    (Store.assembled root true files imports).Holds a b ↔
      (∃ parts, FolderAbove root files parts ∧ 2 ≤ parts.length ∧
        a = Path.joined parts.dropLast ∧ b = Path.joined parts) ∨
      (∃ file ∈ files, 2 ≤ (root.beyond file.path).length ∧
        a = Path.joined (root.beyond file.path).dropLast ∧ b = file.path.text) := by
  have ofFolder : (∃ e ∈ (foldersAbove root true files).flatMap folderEdges, e.ends = (a, b)) ↔
      ∃ parts, FolderAbove root files parts ∧ 2 ≤ parts.length ∧
        a = Path.joined parts.dropLast ∧ b = Path.joined parts := by
    constructor
    · rintro ⟨e, member, same⟩
      obtain ⟨parts, above, inside⟩ := List.mem_flatMap.mp member
      obtain ⟨deep, rfl⟩ := mem_folderEdges.mp inside
      cases same
      exact ⟨parts, mem_foldersAbove.mp above, two_le_length_iff.mpr deep, rfl, rfl⟩
    · rintro ⟨parts, above, deep, rfl, rfl⟩
      exact ⟨_, List.mem_flatMap.mpr ⟨parts, mem_foldersAbove.mpr above,
        mem_folderEdges.mpr ⟨two_le_length_iff.mp deep, rfl⟩⟩, rfl⟩
  have ofFile : (∃ e ∈ files.flatMap (fileEdges root true), e.ends = (a, b)) ↔
      ∃ file ∈ files, 2 ≤ (root.beyond file.path).length ∧
        a = Path.joined (root.beyond file.path).dropLast ∧ b = file.path.text := by
    constructor
    · rintro ⟨e, member, same⟩
      obtain ⟨file, listed, inside⟩ := List.mem_flatMap.mp member
      obtain ⟨⟨-, inner⟩, rfl⟩ := mem_fileEdges.mp inside
      have deep := mt clusterOf_eq_rootCluster_iff.mpr inner
      cases same
      exact ⟨file, listed, two_le_length_iff.mpr deep, clusterOf_of_deep deep, rfl⟩
    · rintro ⟨file, listed, deep, rfl, rfl⟩
      have inner := two_le_length_iff.mp deep
      refine ⟨_, List.mem_flatMap.mpr ⟨file, listed, mem_fileEdges.mpr
        ⟨⟨rfl, mt clusterOf_eq_rootCluster_iff.mp inner⟩, rfl⟩⟩, ?_⟩
      rw [Edge.ends, clusterOf_of_deep inner]
  rw [Store.Holds, Store.edgesOf_hierarchy_assembled, List.mem_map]
  simp only [List.mem_eraseDups, hierarchyEdges, List.mem_append, or_and_right, exists_or]
  exact or_congr ofFolder ofFile

section Within

variable (absolute : root.isAbsolute = true) (within : ∀ file ∈ files, file.path.Within root)

include absolute within

/-- A node is held by the folder of its place without the last component, if by anything. -/
theorem eq_of_holds {a b : String} (holds : (Store.assembled root true files imports).Holds a b) :
    a = Path.joined (place root b).dropLast ∧ (place root b).dropLast ≠ [] ∧
      ∀ part ∈ place root b, isComponent part = true := by
  rcases holds_assembled.mp holds with ⟨parts, above, deep, rfl, rfl⟩ | ⟨file, member, deep, rfl, rfl⟩
  · rw [place_joined above.proper]
    exact ⟨rfl, two_le_length_iff.mp deep, above.proper⟩
  · rw [place_text ((within file member).isAbsolute absolute)]
    exact ⟨rfl, two_le_length_iff.mp deep, root.proper_beyond file.path⟩

theorem place_of_holds {a b : String}
    (holds : (Store.assembled root true files imports).Holds a b) :
    place root a = (place root b).dropLast := by
  obtain ⟨rfl, -, proper⟩ := eq_of_holds absolute within holds
  exact place_joined fun part member => proper part (List.dropLast_subset _ member)

/-- Whatever stands above a node is the folder of a proper beginning of its place. -/
theorem eq_joined_of_above {a b : String}
    (above : Relation.TransGen (Store.assembled root true files imports).Holds a b) :
    ∃ start, start ≠ [] ∧ start <+: place root b ∧ start ≠ place root b ∧
      a = Path.joined start := by
  induction above with
  | single holds =>
      obtain ⟨same, deep, -⟩ := eq_of_holds absolute within holds
      obtain ⟨before, strict⟩ := (prefix_dropLast_iff deep).mp List.prefix_rfl
      exact ⟨_, deep, before, strict, same⟩
  | tail _ holds ih =>
      obtain ⟨start, nonempty, before, -, same⟩ := ih
      rw [place_of_holds absolute within holds] at before
      obtain ⟨whole, strict⟩ := (prefix_dropLast_iff nonempty).mp before
      exact ⟨start, nonempty, whole, strict, same⟩

theorem not_above_itself (id : String) :
    ¬Relation.TransGen (Store.assembled root true files imports).Holds id id := by
  intro above
  obtain ⟨start, -, before, strict, same⟩ := eq_joined_of_above absolute within above
  have proper : ∀ part ∈ place root id, isComponent part = true := by
    cases above with
    | single holds => exact (eq_of_holds absolute within holds).2.2
    | tail _ holds => exact (eq_of_holds absolute within holds).2.2
  have placed : place root id = start := by
    rw [same, place_joined fun part member => proper part (before.subset member)]
  exact strict placed.symm

end Within

/-- The folders of all proper beginnings of a place stand above a node that its folder holds. -/
theorem above_of_beginning {start : List String} (nonempty : start ≠ []) (parts : List String)
    (b : String) (folders : ∀ front, front ≠ [] → front <+: parts.dropLast →
      FolderAbove root files front)
    (held : parts.dropLast ≠ [] →
      (Store.assembled root true files imports).Holds (Path.joined parts.dropLast) b)
    (before : start <+: parts.dropLast) :
    Relation.TransGen (Store.assembled root true files imports).Holds (Path.joined start) b := by
  have deep : parts.dropLast ≠ [] := fun empty =>
    nonempty (List.prefix_nil.mp (empty ▸ before))
  by_cases whole : start = parts.dropLast
  · rw [whole]
    exact .single (held deep)
  · have inner : start <+: parts.dropLast.dropLast :=
      (prefix_dropLast_iff nonempty).mpr ⟨before, whole⟩
    have shorter : parts.dropLast.length < parts.length := by
      rw [List.length_dropLast]
      have positive := two_le_length_iff.mpr deep
      omega
    refine .tail (above_of_beginning nonempty parts.dropLast _ ?_ ?_ inner) (held deep)
    · exact fun front some within' => folders front some (within'.trans (List.dropLast_prefix _))
    · intro deeper
      exact holds_assembled.mpr (.inl ⟨parts.dropLast, folders _ deep List.prefix_rfl,
        two_le_length_iff.mpr deeper, rfl, rfl⟩)
termination_by parts.length

/-- A file of the list stands at its place, a folder above files at its own. -/
theorem above_file_iff (absolute : root.isAbsolute = true)
    (within : ∀ file ∈ files, file.path.Within root) {file : ScannedFile} (member : file ∈ files)
    (id : String) :
    Relation.TransGen (Store.assembled root true files imports).Holds id file.path.text ↔
      ∃ parts, parts ≠ [] ∧ parts <+: root.beyond file.path ∧ parts ≠ root.beyond file.path ∧
        id = Path.joined parts := by
  constructor
  · intro above
    have found := eq_joined_of_above absolute within above
    rwa [place_text ((within file member).isAbsolute absolute)] at found
  · rintro ⟨start, nonempty, before, strict, rfl⟩
    refine above_of_beginning nonempty (root.beyond file.path) _ ?_ ?_
      ((prefix_dropLast_iff nonempty).mpr ⟨before, strict⟩)
    · intro front some within'
      obtain ⟨whole, apart⟩ := (prefix_dropLast_iff some).mp within'
      exact ⟨file, member, some, whole, apart⟩
    · intro deep
      exact holds_assembled.mpr (.inr ⟨file, member, two_le_length_iff.mpr deep, rfl, rfl⟩)

theorem parentsFirst_assembled {before after : List String} {parts : List String}
    (above : FolderAbove root files parts) (deep : 2 ≤ parts.length)
    (found : (Store.assembled root true files imports).folders.map (·.id) =
      before ++ Path.joined parts :: after) : Path.joined parts.dropLast ∈ before := by
  rw [Store.ids_folders_assembled] at found
  obtain ⟨front, rest, split, rfl, tail⟩ := List.map_eq_append_iff.mp found
  obtain ⟨same, back, rfl, joined, -⟩ := List.map_eq_cons_iff.mp tail
  have held : same ∈ foldersAbove root true files := by rw [split]; simp
  obtain rfl := Path.joined_injective (proper_of_mem_foldersAbove held).2 above.proper joined
  have ordered := parentsFirst_foldersAbove root true files
  rw [split] at ordered
  exact List.mem_map_of_mem (ordered.mem_before (two_le_length_iff.mp deep))

theorem hierarchyOnce_assembled :
    (((Store.assembled root true files imports).edgesOf .hierarchy).map Edge.ends).Nodup := by
  have flag : ∀ e ∈ hierarchyEdges root true files, Marked root e := marked_fileStage
  rw [Store.edgesOf_hierarchy_assembled]
  refine List.Nodup.map_on ?_ (nodup_eraseDups _)
  intro e member e' member' same
  rw [List.mem_eraseDups] at member member'
  refine (flag e member).eq_of_key (flag e' member') ?_
  simp only [Edge.ends, Prod.mk.injEq] at same
  simp only [Edge.key, same, kind_hierarchyEdges e member, kind_hierarchyEdges e' member']

theorem tops_assembled (absolute : root.isAbsolute = true)
    (below : ∀ file ∈ files, file.path.Within root ∧ file.path ≠ root) {id : String}
    (node : id ∈ (Store.assembled root true files imports).nodes.map Node.id) :
    (∀ a, ¬(Store.assembled root true files imports).Holds a id) ↔
      FolderAbove root files [id] ∨
        ∃ file ∈ files, (root.beyond file.path).length = 1 ∧ id = file.path.text := by
  have within : ∀ file ∈ files, file.path.Within root := fun file member => (below file member).1
  constructor
  · intro free
    rw [Store.ids_assembled, List.mem_append, List.mem_map, List.mem_eraseDups, List.mem_map] at node
    rcases node with ⟨parts, member, rfl⟩ | ⟨file, member, rfl⟩
    · have above : FolderAbove root files parts := mem_foldersAbove.mp member
      have top : ¬2 ≤ parts.length := fun deep =>
        free _ (holds_assembled.mpr (.inl ⟨parts, above, deep, rfl, rfl⟩))
      have positive := List.length_pos_iff.mpr (proper_of_mem_foldersAbove member).1
      obtain ⟨part, rfl⟩ := List.length_eq_one_iff.mp (show parts.length = 1 by omega)
      rw [Path.joined_singleton]
      exact .inl above
    · have top : ¬2 ≤ (root.beyond file.path).length := fun deep =>
        free _ (holds_assembled.mpr (.inr ⟨file, member, deep, rfl, rfl⟩))
      have nonempty : root.beyond file.path ≠ [] := by
        intro empty
        have rootwards : root.beyond root = [] := by simp [Path.beyond]
        exact (below file member).2 ((within file member).eq_of_beyond
          ⟨rfl, List.prefix_rfl⟩ (empty.trans rootwards.symm))
      have positive := List.length_pos_iff.mpr nonempty
      exact .inr ⟨file, member, by omega, rfl⟩
  · intro top a holds
    have deep := two_le_length_iff.mpr (eq_of_holds absolute within holds).2.1
    rcases top with above | ⟨file, member, one, rfl⟩
    · have placed : place root (Path.joined [id]) = [id] := place_joined above.proper
      rw [Path.joined_singleton] at placed
      simp [placed] at deep
    · rw [place_text ((within file member).isAbsolute absolute)] at deep
      omega

end Places

/-! ## Imports leave the forest alone

Whatever the imports name, be it no node or a folder, a build that returns has added no node and no
link of the hierarchy for their sake.
-/

section Frame

variable {root : Path} {withFolders : Bool}

/-- The nodes of a store and the links that hold them. -/
def Store.tree (s : Store) : List Node × List Edge := (s.nodes, s.edgesOf .hierarchy)

theorem tree_of_link {s s' : Store} {source target : String} {kind : EdgeKind} {inter added : Bool}
    (other : kind ≠ .hierarchy) (done : link s source target kind inter = .ok (added, s')) :
    s'.tree = s.tree := by
  unfold link Store.addEdge at done
  split at done
  case h_2 => cases done
  case h_1 result accepted =>
    obtain rfl := Except.ok.inj done
    split at accepted
    · cases accepted; rfl
    · split at accepted
      · cases accepted
      · split at accepted
        · cases accepted
        · cases accepted
          have flag : (kind == .hierarchy) = false := by simpa using other
          simp [Store.tree, Store.edgesOf, flag]

theorem tree_of_addImport {importer : Path} {fromFolder : String} (s : Store) (target : Path)
    (s' : Store) (done : addImport root withFolders importer fromFolder s target = .ok s') :
    s'.tree = s.tree := by
  rw [addImport] at done
  split at done
  · rw [Except.ok.inj done]
  · obtain ⟨toFolder, -, done⟩ := exists_of_bind_ok done
    obtain ⟨⟨added, middle⟩, linked, done⟩ := exists_of_bind_ok done
    have first : middle.tree = s.tree := tree_of_link (by decide) linked
    refine Eq.trans ?_ first
    simp only at done
    split at done
    · obtain ⟨⟨added', last⟩, rollup, rfl⟩ := exists_of_map_ok done
      exact tree_of_link (by decide) rollup
    · rw [Except.ok.inj done]

theorem tree_of_addImports (s : Store) (row : Path × List Path) (s' : Store)
    (done : addImports root withFolders s row = .ok s') : s'.tree = s.tree := by
  rw [addImports] at done
  split at done
  · obtain ⟨fromFolder, -, done⟩ := exists_of_bind_ok done
    exact foldlM_keeps Store.tree tree_of_addImport row.2 s s' done
  · rw [Except.ok.inj done]

/-- A build that returns has the nodes and the hierarchy of the build without imports. -/
theorem tree_of_build {files : List ScannedFile} {imports : List (Path × List Path)} {s : Store}
    (absolute : root.isAbsolute = true) (within : ∀ file ∈ files, file.path.Within root)
    (measured : ∀ file ∈ files, 0 ≤ file.metrics.loc)
    (built : Store.build root withFolders files imports = .ok s) :
    s.tree = (Store.assembled root withFolders files []).tree := by
  let held := fileStage root withFolders (foldersAbove root withFolders files) files
  have loops : ∀ rows, Store.build root withFolders files rows =
      rows.foldlM (addImports root withFolders) held := by
    intro rows
    rw [build_eq_loops, folders_eq within, ok_bind, addFiles_eq absolute within measured, ok_bind]
  have bare : Store.assembled root withFolders files [] = held :=
    Except.ok.inj ((build_eq_assembled absolute within measured (by simp)).symm.trans (loops []))
  rw [bare]
  exact foldlM_keeps Store.tree tree_of_addImports imports held s ((loops imports).symm.trans built)

end Frame

namespace Store

variable {root : Path} {files : List ScannedFile} {imports : List (Path × List Path)}

theorem DirectoryForest.of_tree {s s' : Store} (forest : s.DirectoryForest root files)
    (same : s'.tree = s.tree) : s'.DirectoryForest root files := by
  obtain ⟨nodes, links⟩ := Prod.mk.inj same
  have folders : s'.folders = s.folders := congrArg (List.filterMap Node.folder?) nodes
  have holds : s'.Holds = s.Holds := by
    funext a b
    rw [Holds, links, Holds]
  constructor
  case ids => rw [nodes, folders]; exact forest.ids
  case folders => rw [folders]; exact forest.folders
  case foldersOnce => rw [folders]; exact forest.foldersOnce
  case parentsFirst => rw [folders]; exact forest.parentsFirst
  case edges => rw [holds]; exact forest.edges
  case edgesOnce => rw [links]; exact forest.edgesOnce
  case oneParent => rw [holds]; exact forest.oneParent
  case tops => rw [nodes, holds]; exact forest.tops
  case acyclic => rw [holds]; exact forest.acyclic
  case ancestors => rw [holds]; exact forest.ancestors

theorem directoryForest_assembled (absolute : root.isAbsolute = true)
    (below : ∀ file ∈ files, file.path.Within root ∧ file.path ≠ root) :
    (assembled root true files imports).DirectoryForest root files := by
  have within : ∀ file ∈ files, file.path.Within root := fun file member => (below file member).1
  constructor
  case ids => rw [ids_assembled, ids_folders_assembled]
  case folders =>
    intro id
    rw [Store.ids_folders_assembled, List.mem_map]
    refine exists_congr fun parts => and_congr mem_foldersAbove ?_
    exact eq_comm
  case foldersOnce =>
    rw [Store.ids_folders_assembled]
    exact nodup_joined_foldersAbove
  case parentsFirst => exact fun _ _ _ => parentsFirst_assembled
  case edges => exact fun _ _ => holds_assembled
  case edgesOnce => exact hierarchyOnce_assembled
  case oneParent =>
    intro a a' b holds holds'
    rw [(eq_of_holds absolute within holds).1, (eq_of_holds absolute within holds').1]
  case tops => exact fun _ => tops_assembled absolute below
  case acyclic => exact not_above_itself absolute within
  case ancestors => exact fun _ => above_file_iff absolute within

/-- Whatever the imports are, a build of files strictly below an absolute root that returns ends at
    the directory forest of the files. It does return if all imports are of absolute paths, unless the
    lines of a file are no count; then it fails at that file. -/
theorem build_directoryForest (absolute : root.isAbsolute = true)
    (below : ∀ file ∈ files, file.path.Within root ∧ file.path ≠ root) :
    (∀ s, Store.build root true files imports = .ok s → s.DirectoryForest root files) ∧
      ((∀ row ∈ imports, row.1.isAbsolute = true ∧ ∀ b ∈ row.2, b.isAbsolute = true) →
        (∃ s, Store.build root true files imports = .ok s) ∨
          ∃ file ∈ files, file.metrics.loc < 0 ∧
            Store.build root true files imports = .error (.negativeLines file.path)) := by
  have within : ∀ file ∈ files, file.path.Within root := fun file member => (below file member).1
  constructor
  · intro s built
    exact (directoryForest_assembled absolute below).of_tree
      (tree_of_build absolute within (measured_of_build built) built)
  · intro placed
    rcases build_assembles absolute within placed with built | ⟨file, member, negative, failed⟩
    · exact .inl ⟨_, built true⟩
    · exact .inr ⟨file, member, negative, failed true⟩

/-- A file in the root, files of nested folders, and a folder met again below another one. -/
theorem build_directoryForest_nested :
    ∃ s, Store.build (Path.parse "/r") true
        (["/r/a/b/c/x.ts", "/r/y.ts", "/r/a/z.ts", "/r/b/a/w.ts"].map ScannedFile.blank)
        [(Path.parse "/r/y.ts", [Path.parse "/r/a/z.ts"])] = .ok s ∧
      s.DirectoryForest (Path.parse "/r")
        (["/r/a/b/c/x.ts", "/r/y.ts", "/r/a/z.ts", "/r/b/a/w.ts"].map ScannedFile.blank) :=
  have forest := @build_directoryForest (Path.parse "/r")
    (["/r/a/b/c/x.ts", "/r/y.ts", "/r/a/z.ts", "/r/b/a/w.ts"].map ScannedFile.blank)
    [(Path.parse "/r/y.ts", [Path.parse "/r/a/z.ts"])] (by decide) (by decide)
  have counted : ¬∃ file ∈ ["/r/a/b/c/x.ts", "/r/y.ts", "/r/a/z.ts", "/r/b/a/w.ts"].map
      ScannedFile.blank, file.metrics.loc < 0 := by decide
  have built := (forest.2 (by decide)).resolve_right
    fun ⟨file, member, negative, _⟩ => counted ⟨file, member, negative⟩
  built.imp fun s built => ⟨built, forest.1 s built⟩

end Store

end RepoAtlas
