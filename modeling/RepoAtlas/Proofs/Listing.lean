import RepoAtlas.Proofs.Scan

/-! # The scan of a folder

A scan starts where a path leads once its links are followed. What it lists is said of that folder
by its tree alone, and the paths come in the order of the names below it. Names are compared one by
one, so everything in a folder `a` comes before a folder `a-b`, although `a-b/` is before `a/` as a
text.
-/

namespace RepoAtlas

theorem Selection.Lists.proper {s : Selection} {top : Entry} {way : List String} (tidy : top.Tidy)
    (lists : s.Lists top way) : ∀ part ∈ way, isComponent part = true := by
  intro part member
  obtain ⟨_, _, regular⟩ := lists.regular
  exact ((tidy.of_at? regular).1 part member).1

namespace Disk

variable {d : Disk} {root : Path} {s : Selection}

theorem listing_of_not_readable
    (shut : ∀ place entries rights, d.find root = .ok (place, .folder entries rights) →
      rights.list = false) : d.listing root s = [] := by
  unfold listing
  split
  · rename_i found
    simp [Selection.files, shut _ _ _ found]
  · rfl

section Readable

variable {place : List String} {entries : Entries} {rights : Rights}
  (found : d.find root = .ok (place, .folder entries rights)) (listed : rights.list = true)
  (tidy : (Entry.folder entries rights).Tidy)

include found listed tidy

theorem mem_listing_of_find {p : Path} :
    p ∈ d.listing root s ↔
      p.Within root ∧ s.Lists (.folder entries rights) (root.beyond p) := by
  rw [listing, found]
  simp only [List.mem_map, Selection.mem_files tidy listed]
  constructor
  · rintro ⟨way, lists, rfl⟩
    obtain ⟨within, beyond⟩ := Path.join_parse_joined root (lists.proper tidy)
    exact ⟨within, beyond.symm ▸ lists⟩
  · rintro ⟨within, lists⟩
    obtain ⟨within', beyond⟩ := Path.join_parse_joined root (lists.proper tidy)
    exact ⟨root.beyond p, lists, within'.eq_of_beyond within beyond⟩

theorem pairwise_listing_of_find :
    (d.listing root s).Pairwise fun p q => root.beyond p < root.beyond q := by
  have proper : ∀ way ∈ s.files entries rights, ∀ part ∈ way, isComponent part = true :=
    fun way member => ((Selection.mem_files tidy listed).mp member).proper tidy
  rw [listing, found]
  simp only [List.pairwise_map]
  apply (Selection.pairwise_files tidy).imp_of_mem
  intro way way' member member' before
  rw [(Path.join_parse_joined root (proper way member)).2,
    (Path.join_parse_joined root (proper way' member')).2]
  exact before

end Readable

/-- The files are those that a selection lists below a root that can be listed, and they stand in
    the order of their names below it. -/
structure Lists (d : Disk) (s : Selection) (root : Path) (files : List Path) : Prop where
  exactly : ∀ p, p ∈ files ↔ ∃ place entries rights,
    d.find root = .ok (place, .folder entries rights) ∧ rights.list = true ∧
    p.Within root ∧ s.Lists (.folder entries rights) (root.beyond p)
  once : files.Nodup
  ordered : files.Pairwise fun p q => root.beyond p < root.beyond q

theorem lists_listing (tidy : d.root.Tidy) : d.Lists s root (d.listing root s) := by
  by_cases readable : ∃ place entries rights,
      d.find root = .ok (place, .folder entries rights) ∧ rights.list = true
  · obtain ⟨place, entries, rights, found, listed⟩ := readable
    have below := (tidy.of_at? (settled_of_find found).found).2
    have ordered := @pairwise_listing_of_find d root s _ _ _ found listed below
    refine ⟨?_, ?_, ordered⟩
    · intro p
      rw [mem_listing_of_find found listed below]
      constructor
      · exact fun lists => ⟨place, entries, rights, found, listed, lists⟩
      · rintro ⟨place', entries', rights', found', -, lists⟩
        cases found.symm.trans found'
        exact lists
    · -- What is strictly ordered holds nothing twice.
      apply ordered.imp
      rintro p q before rfl
      exact List.lt_irrefl _ before
  · have empty : d.listing root s = [] :=
      listing_of_not_readable fun place entries rights found =>
        Bool.eq_false_iff.mpr fun listed => readable ⟨place, entries, rights, found, listed⟩
    rw [empty]
    refine ⟨?_, List.nodup_nil, .nil⟩
    intro p
    simp only [List.not_mem_nil, false_iff]
    rintro ⟨place, entries, rights, found, listed, -⟩
    exact readable ⟨place, entries, rights, found, listed⟩

/-- A listed file has a name that the selection accepts. -/
theorem Lists.accepts_name {files : List Path} {p : Path} (lists : d.Lists s root files)
    (member : p ∈ files) : s.accepts p.name = true := by
  obtain ⟨place, entries, rights, -, -, within, listed⟩ := (lists.exactly p).mp member
  have below : root.beyond p ≠ [] := by
    intro here
    obtain ⟨bytes, readable, regular⟩ := listed.regular
    rw [here] at regular
    cases regular
  have last : p.name = (root.beyond p).getLast?.getD "" := by
    rw [Path.name, within.parts_eq, List.getLast?_append_of_ne_nil _ below]
  rw [last]
  exact listed.accepted

section Scan

variable {folder : Path}

theorem scan_of_resolve (resolved : d.resolve folder = .ok root) :
    d.scan folder s = match d.isFolder root with
      | .ok shown => .ok (if shown then d.listing root s else [])
      | .error problem => .error (.access problem) := by
  rw [scan, resolved]
  change ((d.isFolder root).mapError PathProblem.access >>= fun shown =>
    pure (if shown then d.listing root s else [])) = _
  cases d.isFolder root <;> rfl

theorem lists_of_isFolder (tidy : d.root.Tidy) {shown : Bool} (told : d.isFolder root = .ok shown) :
    d.Lists s root (if shown then d.listing root s else []) := by
  cases shown with
  | true => exact lists_listing tidy
  | false =>
      have empty : d.listing root s = [] := by
        apply listing_of_not_readable
        intro place entries rights found
        rw [isFolder_of_find tidy found] at told
        split at told <;> cases told
      exact empty ▸ lists_listing tidy

theorem lists_of_scan (tidy : d.root.Tidy) {files : List Path} (scanned : d.scan folder s = .ok files) :
    ∃ root, d.resolve folder = .ok root ∧ d.Lists s root files := by
  cases resolved : d.resolve folder with
  | error problem =>
      rw [scan, resolved] at scanned
      cases scanned
  | ok root =>
      rw [scan_of_resolve resolved] at scanned
      cases told : d.isFolder root with
      | error problem => simp [told] at scanned
      | ok shown =>
          obtain rfl : (if shown then d.listing root s else []) = files := by
            simpa [told] using scanned
          exact ⟨root, rfl, lists_of_isFolder tidy told⟩

end Scan

/-- What comes of a scan from a path: the files that are selected below the folder to which the path
    leads. No files are told only if there is no such folder, or if its path is too long. -/
inductive Scans (d : Disk) (s : Selection) (folder : Path) : Except PathProblem (List Path) → Prop
  | listed {root : Path} {files : List Path} (resolved : d.resolve folder = .ok root)
      (lists : d.Lists s root files) : Scans d s folder (.ok files)
  | unresolvable {problem : Unresolvable} (failed : d.resolve folder = .error problem) :
      Scans d s folder (.error (.unresolvable problem))
  | untold {root : Path} {problem : AccessProblem} (resolved : d.resolve folder = .ok root)
      (failed : d.isFolder root = .error problem)
      (shut : longestPath < root.text.utf8ByteSize ∨
        ∀ place entries rights, d.find root ≠ .ok (place, .folder entries rights)) :
      Scans d s folder (.error (.access problem))

/-- A scan from any path of a tidy disk lists exactly the files that are selected below the folder
    to which the path leads, each once and in the order of their names. -/
theorem scan_lists_selected (tidy : d.root.Tidy) (folder : Path) (s : Selection) :
    d.Scans s folder (d.scan folder s) := by
  cases resolved : d.resolve folder with
  | error problem =>
      rw [scan, resolved]
      exact .unresolvable resolved
  | ok root =>
      rw [scan_of_resolve resolved]
      cases told : d.isFolder root with
      | error problem =>
          refine .untold resolved told ?_
          by_cases long : longestPath < root.text.utf8ByteSize
          · exact .inl long
          · refine .inr fun place entries rights found => ?_
            rw [isFolder_of_find tidy found, if_neg long] at told
            cases told
      | ok shown => exact .listed resolved (lists_of_isFolder tidy told)

/-- A folder with an entry of each kind, and folders of each kind, behind a link to it. -/
def sorts : Disk where
  entries :=
    [("r", .folder
        [("a.ts", .file [] true), ("a-b", .folder [("x.ts", .file [] true)] .full),
          ("a", .folder [("dist", .folder [("y.ts", .file [] true)] .full),
            ("x.TS", .file [] false)] .full),
          ("l.ts", .link "a.ts"), ("p.ts", .other),
          ("shut", .folder [("z.ts", .file [] true)] .unlisted)] .full),
      ("way", .link "/r")]
  here := Path.bare .root

theorem tidy_sorts : sorts.root.Tidy := by
  refine .folder _ _ (by decide) (by decide) ?_
  simp only [sorts, List.forall_mem_cons]
  refine ⟨.folder _ _ (by decide) (by decide) ?_, .link _, by simp⟩
  simp only [List.forall_mem_cons]
  refine ⟨.file _ _, ?_, .folder _ _ (by decide) (by decide) ?_, .link _, .other, ?_, by simp⟩
  · exact .folder _ _ (by decide) (by decide) (List.forall_mem_singleton.mpr (.file _ _))
  · simp only [List.forall_mem_cons]
    refine ⟨?_, .file _ _, by simp⟩
    exact .folder _ _ (by decide) (by decide) (List.forall_mem_singleton.mpr (.file _ _))
  · exact .folder _ _ (by decide) (by decide) (List.forall_mem_singleton.mpr (.file _ _))

theorem scan_lists_selected_sorts :
    sorts.root.Tidy ∧
      sorts.Scans ⟨[".Ts"], ["dist"], (· = "a.ts")⟩ (Path.parse "/way")
        (sorts.scan (Path.parse "/way") ⟨[".Ts"], ["dist"], (· = "a.ts")⟩) :=
  ⟨tidy_sorts, scan_lists_selected tidy_sorts _ _⟩

end Disk

end RepoAtlas
