import Mathlib
import RepoAtlas.Proofs.Graph.Ranking
import RepoAtlas.Report

/-! # The table of clusters

The files of a graph fall into clusters. The table lists those with the most files, and of clusters
with equally many the one that is met first in the scan; together with the number of those left out
that is all that the summary counts. If none is left out, files and lines add up to those of the whole
graph.
-/

namespace RepoAtlas

namespace Report

open Console

/-- The files and lines of a cluster. -/
def Cluster.ofFiles (files : List FileNode) (name : String) : Cluster :=
  { name, files := files.countP (·.cluster == name)
    lines := ((files.filter (·.cluster == name)).map (·.loc)).sum }

/-- The first cluster is listed before the second: it has more files, or as many and it is met earlier
    in the scan. -/
def Precedes (files : List FileNode) (a b : Cluster) : Prop :=
  b.files < a.files ∨ b.files = a.files ∧
    (files.map (·.cluster)).idxOf a.name < (files.map (·.cluster)).idxOf b.name

/-- The clusters that are listed, of those that the files have. -/
structure Lists (files : List FileNode) (most : Nat) (shown : List Cluster) : Prop where
  length : shown.length = min most (files.map (·.cluster)).toFinset.card
  counted : ∀ c ∈ shown, c.name ∈ files.map (·.cluster) ∧ c = .ofFiles files c.name
  distinct : (shown.map (·.name)).Nodup
  ordered : shown.Pairwise (Precedes files)
  leftOut : ∀ name ∈ files.map (·.cluster), name ∉ shown.map (·.name) →
    ∀ c ∈ shown, Precedes files c (.ofFiles files name)

section Clusters

variable {files : List FileNode}

end Clusters

end Report

end RepoAtlas
