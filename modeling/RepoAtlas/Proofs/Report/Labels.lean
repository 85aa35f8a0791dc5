import RepoAtlas.Proofs.Console.Escape
import RepoAtlas.Proofs.Graph.Location
import RepoAtlas.Report

/-! # The labels of clusters

A row of the table of clusters is labelled with the name of its folder, escaped, and the cluster of
the root with a word of its own. A folder may be called by that word; of folders without backslashes
in their names no others have one label.
-/

namespace RepoAtlas

namespace Console

/-- What is relied on of escaping: a text that means nothing in markup is left alone, and otherwise
    only backslashes are put in. -/
structure Printer.Careful (printer : Printer) : Prop where
  plain : ∀ text : String, (∀ c ∈ text.toList, Markup.Plain c) → printer.escape text = text
  inserts : ∀ text : String,
    Markup.unslashed (printer.escape text).toList = Markup.unslashed text.toList

theorem Printer.careful_plain : Printer.plain.Careful where
  plain _ := Markup.escape_of_plain
  inserts := Markup.unslashed_escape

namespace Printer.Careful

variable {printer : Printer}

/-- Texts without backslashes are told apart by their escaped forms. -/
theorem eq_of_escape_eq (careful : printer.Careful) {s t : String} (free : '\\' ∉ s.toList)
    (free' : '\\' ∉ t.toList) (same : printer.escape s = printer.escape t) : s = t := by
  have kept := careful.inserts s
  rw [same, careful.inserts t, Markup.unslashed_of_free free, Markup.unslashed_of_free free'] at kept
  exact (String.toList_inj.mp kept).symm

theorem escape_root (careful : printer.Careful) : printer.escape "(root)" = "(root)" :=
  careful.plain "(root)" (Markup.plain_of_all (by decide))

end Printer.Careful

end Console

namespace Report

open Builder Console

variable {printer : Printer}

/-! ## Labels -/

/-- One label stands for both clusters: a folder is written like the word for the root, or two folders
    are written alike. -/
inductive Confused (printer : Printer) : String → String → Prop where
  | root {name : String} (folder : name ≠ rootCluster) (word : printer.escape name = "(root)") :
      Confused printer rootCluster name
  | written {a b : String} (folder : a ≠ rootCluster) (folder' : b ≠ rootCluster)
      (same : printer.escape a = printer.escape b) : Confused printer a b
  | symm {a b : String} (confused : Confused printer a b) : Confused printer b a

theorem clusterLabel_of_ne {cluster : String} (folder : cluster ≠ rootCluster) :
    clusterLabel printer cluster = printer.escape cluster := if_neg folder

theorem clusterLabel_root : clusterLabel printer rootCluster = "(root)" := if_pos rfl

theorem Confused.clusterLabel_eq {a b : String} (confused : Confused printer a b) :
    clusterLabel printer a = clusterLabel printer b := by
  induction confused with
  | root folder word => rw [clusterLabel_root, clusterLabel_of_ne folder, word]
  | written folder folder' same => rw [clusterLabel_of_ne folder, clusterLabel_of_ne folder', same]
  | symm _ ih => exact ih.symm

/-- Labels tell clusters apart that are not confused. -/
theorem clusterLabel_eq_iff {a b : String} (different : a ≠ b) :
    clusterLabel printer a = clusterLabel printer b ↔ Confused printer a b := by
  refine ⟨fun same => ?_, Confused.clusterLabel_eq⟩
  by_cases top : a = rootCluster
  · subst top
    rw [clusterLabel_root, clusterLabel_of_ne different.symm] at same
    exact .root different.symm same.symm
  · by_cases top' : b = rootCluster
    · subst top'
      rw [clusterLabel_root, clusterLabel_of_ne top] at same
      exact .symm (.root top same)
    · rw [clusterLabel_of_ne top, clusterLabel_of_ne top'] at same
      exact .written top top' same

/-- The one is the cluster of the root, and the other a folder that is called by its word. -/
def Namesake (a b : String) : Prop := a = rootCluster ∧ b = "(root)"

/-- Without backslashes only the root and its namesake are confused. -/
theorem confused_iff (careful : printer.Careful) {a b : String} (different : a ≠ b)
    (free : '\\' ∉ a.toList) (free' : '\\' ∉ b.toList) :
    Confused printer a b ↔ Namesake a b ∨ Namesake b a := by
  constructor
  · intro confused
    induction confused with
    | root folder word =>
        refine .inl ⟨rfl, careful.eq_of_escape_eq free' (by decide) ?_⟩
        rw [word, careful.escape_root]
    | written _ _ same => exact absurd (careful.eq_of_escape_eq free free' same) different
    | symm _ ih => exact (ih different.symm free' free).symm
  · rintro (⟨rfl, rfl⟩ | ⟨rfl, rfl⟩)
    · exact .root different.symm careful.escape_root
    · exact .symm (.root different careful.escape_root)

/-! ## Rows -/

/-- What the labels of clusters tell of the folders of files: two clusters have one label only if they
    are confused, which without backslashes are only the root and its namesake, a cluster is the folder
    of its files, and names that mean nothing in markup are labels. -/
structure Labels (printer : Printer) (s : Store) (root : Path) (files : List ScannedFile) : Prop where
  apart : ∀ f ∈ s.files, ∀ g ∈ s.files, f.cluster ≠ g.cluster →
    (clusterLabel printer f.cluster = clusterLabel printer g.cluster ↔
      Confused printer f.cluster g.cluster)
  unescaped : ∀ f ∈ s.files, ∀ g ∈ s.files, f.cluster ≠ g.cluster →
    '\\' ∉ f.cluster.toList → '\\' ∉ g.cluster.toList →
    (clusterLabel printer f.cluster = clusterLabel printer g.cluster ↔
      Namesake f.cluster g.cluster ∨ Namesake g.cluster f.cluster)
  folder : ∀ a ∈ files, ∀ b ∈ files, a.path ≠ root → b.path ≠ root →
    ∃ f ∈ s.files, ∃ g ∈ s.files, f.id = a.path.text ∧ g.id = b.path.text ∧
      (f.cluster = g.cluster ↔ a.path.parent = b.path.parent)
  literal : ∀ f ∈ s.files, f.cluster ≠ rootCluster → (∀ c ∈ f.cluster.toList, Markup.Plain c) →
    clusterLabel printer f.cluster = f.cluster

variable {root : Path} {withFolders : Bool} {files : List ScannedFile}
  {imports : List (Path × List Path)} {s : Store}

/-- In a graph that is built, labels tell folders apart that are not confused. -/
theorem labels_of_build (careful : printer.Careful) (absolute : root.isAbsolute = true)
    (built : Store.build root withFolders files imports = .ok s) : Labels printer s root files where
  apart _ _ _ _ different := clusterLabel_eq_iff different
  unescaped f _ g _ different free free' := by
    rw [clusterLabel_eq_iff different, confused_iff careful different free free']
  folder a member b member' below below' := by
    obtain ⟨f, inside, own, cluster⟩ := mem_files_of_build absolute built member
    obtain ⟨g, inside', own', cluster'⟩ := mem_files_of_build absolute built member'
    refine ⟨f, inside, g, inside', own, own', ?_⟩
    rw [cluster, cluster']
    exact clusterOf_eq_iff (within_of_build built a member) (within_of_build built b member') below
      below'
  literal f _ folder plain := by
    rw [clusterLabel_of_ne folder, careful.plain _ plain]

/-- Files in the root and in two folders of it, one called by the word for the root. -/
def lookAlikes : List ScannedFile := ["/r/a.ts", "/r/(root)/b.ts", "/r/lib/c.ts"].map .blank

theorem labels_of_build_lookAlikes : Printer.plain.Careful ∧
    ∃ s, Store.build (.parse "/r") true lookAlikes [] = .ok s ∧
      Labels .plain s (.parse "/r") lookAlikes :=
  have built := build_eq_assembled (by decide) (by decide) (by decide) (by decide)
  ⟨Printer.careful_plain, _, built, labels_of_build Printer.careful_plain (by decide) built⟩

/-- The files of two folders have one label. -/
theorem labels_alike : ∃ s, Store.build (.parse "/r") true lookAlikes [] = .ok s ∧
    ∃ f ∈ s.files, ∃ g ∈ s.files, f.cluster = "." ∧ g.cluster = "(root)" ∧
      clusterLabel .plain f.cluster = clusterLabel .plain g.cluster := by
  have built : Store.build (.parse "/r") true lookAlikes [] = _ :=
    build_eq_assembled (by decide) (by decide) (by decide) (by decide)
  have held : ∀ path ∈ ["/r/a.ts", "/r/(root)/b.ts", "/r/lib/c.ts"],
      ∃ f ∈ (Store.assembled (.parse "/r") true lookAlikes []).files,
        f.cluster = clusterOf (.parse "/r") (.parse path) := by
    intro path member
    obtain ⟨f, inside, -, cluster⟩ :=
      mem_files_of_build (by decide) built (List.mem_map_of_mem (f := ScannedFile.blank) member)
    exact ⟨f, inside, cluster⟩
  obtain ⟨f, inF, ofF⟩ := held "/r/a.ts" (by simp)
  obtain ⟨g, inG, ofG⟩ := held "/r/(root)/b.ts" (by simp)
  refine ⟨_, built, f, inF, g, inG, ?_⟩
  rw [ofF, ofG]
  exact ⟨by decide, by decide,
    Confused.clusterLabel_eq (.root (by decide) Printer.careful_plain.escape_root)⟩

end Report

end RepoAtlas
