import RepoAtlas.Language
import RepoAtlas.Proofs.Listing
import RepoAtlas.Proofs.Lowercase

/-! # Suffixes and extensions

Scripts are known by the suffix of a name, files are listed by its extension. Both are what stands
from the last dot on. A suffix needs some character on either side of that dot, an extension needs one
before it that is no dot itself. So the two part in two ways only: a dot that ends a name is an
extension, which belongs to no script, and a word behind nothing but dots, as in `..ts`, is a suffix.
Names of the second kind have no extension and are not listed.
-/

namespace RepoAtlas

namespace Path

variable {name : String} {stem ending dots word : List Char}

/-! ## The last dot of a name -/

/-- A name at its last dot. -/
structure Cut (name : String) (stem ending : List Char) : Prop where
  spelled : name.toList = stem ++ '.' :: ending
  last : '.' ∉ ending

theorem exists_cut (dotted : '.' ∈ name.toList) : ∃ stem ending, Cut name stem ending := by
  -- The last dot is the first one from the end.
  obtain ⟨after, before, backwards, first⟩ :=
    List.eq_append_cons_of_mem (List.mem_reverse.mpr dotted)
  refine ⟨before.reverse, after.reverse, ?_, by simpa using first⟩
  have forwards := congrArg List.reverse backwards
  simpa using forwards

section Undotted

variable {cs : List Char} (undotted : '.' ∉ cs)

include undotted

theorem ne_dot_of_mem_reverse : ∀ c ∈ cs.reverse, (c != '.') = true := by
  intro c member
  have other : c ≠ '.' := fun dot => undotted (dot ▸ List.mem_reverse.mp member)
  simpa using other

theorem dropWhile_dots : cs.dropWhile (· == '.') = cs := by
  cases cs with
  | nil => rfl
  | cons c rest =>
      have other : c ≠ '.' := fun dot => undotted (by simp [dot])
      simp [other]

/-- From the end, everything behind the last dot is read. -/
theorem takeWhile_to_dot (stem : List Char) :
    ((stem ++ '.' :: cs).reverse.takeWhile (· != '.')).reverse = cs := by
  rw [List.reverse_append, List.reverse_cons, List.append_assoc,
    List.takeWhile_append_of_pos (ne_dot_of_mem_reverse undotted)]
  simp

end Undotted

theorem suffixOf_of_undotted (undotted : '.' ∉ name.toList) : suffixOf name = "" := by
  have whole : name.toList.reverse.takeWhile (· != '.') = name.toList.reverse :=
    List.takeWhile_eq_self_iff.mpr (ne_dot_of_mem_reverse undotted)
  unfold suffixOf
  simp [whole]

theorem extensionOf_of_undotted (undotted : '.' ∉ name.toList) : extensionOf name = "" := by
  unfold extensionOf
  simp [dropWhile_dots undotted, undotted]

/-- A suffix has some character on either side of its dot. -/
theorem Cut.suffixOf_eq (cut : Cut name stem ending) :
    suffixOf name = if stem = [] ∨ ending = [] then "" else String.ofList ('.' :: ending) := by
  unfold suffixOf
  simp only [cut.spelled, takeWhile_to_dot cut.last]
  have before : (stem ++ '.' :: ending).length - ending.length = stem.length + 1 := by
    simp only [List.length_append, List.length_cons]
    omega
  rw [before]
  cases stem <;> cases ending <;> simp

/-- An extension has a character before its dot that is no dot itself. -/
theorem Cut.extensionOf_eq (cut : Cut name stem ending) :
    extensionOf name = if ∀ c ∈ stem, c = '.' then "" else String.ofList ('.' :: ending) := by
  unfold extensionOf
  simp only [cut.spelled]
  by_cases only : ∀ c ∈ stem, c = '.'
  · have dropped : (stem ++ '.' :: ending).dropWhile (· == '.') = ending := by
      rw [List.dropWhile_append_of_pos (by simpa using only), List.dropWhile_cons_of_pos rfl,
        dropWhile_dots cut.last]
    rw [dropped, if_pos only]
    simp [cut.last]
  · have kept : (stem ++ '.' :: ending).dropWhile (· == '.') =
        stem.dropWhile (· == '.') ++ '.' :: ending := by
      rw [List.dropWhile_append, if_neg]
      simpa using only
    rw [kept, takeWhile_to_dot cut.last, if_neg only]
    simp

/-! ## Two ways to part -/

/-- Dots, two at least, and behind them a word without dots. -/
structure Led (name : String) (dots word : List Char) : Prop where
  cut : Cut name dots word
  some : dots ≠ []
  only : ∀ c ∈ dots, c = '.'

theorem Led.extensionOf_eq (led : Led name dots word) : extensionOf name = "" := by
  rw [led.cut.extensionOf_eq, if_pos led.only]

theorem Led.suffixOf_eq (led : Led name dots word) (nonempty : word ≠ []) :
    suffixOf name = String.ofList ('.' :: word) := by
  rw [led.cut.suffixOf_eq, if_neg]
  exact not_or.mpr ⟨led.some, nonempty⟩

/-- How the suffix and the extension of a name stand to each other. -/
inductive Endings (name : String) : Prop where
  /-- They are the same. -/
  | same (same : suffixOf name = extensionOf name)
  /-- The name ends in a dot. -/
  | dot (suffix : suffixOf name = "") (extension : extensionOf name = ".")
  /-- A word follows nothing but dots. -/
  | led {dots word : List Char} (led : Led name dots word) (nonempty : word ≠ [])

theorem endings (name : String) : Endings name := by
  by_cases dotted : '.' ∈ name.toList
  · obtain ⟨stem, ending, cut⟩ := exists_cut dotted
    have suffix := cut.suffixOf_eq
    have extension := cut.extensionOf_eq
    by_cases only : ∀ c ∈ stem, c = '.'
    · rw [if_pos only] at extension
      by_cases bare : stem = [] ∨ ending = []
      · rw [if_pos bare] at suffix
        exact .same (suffix.trans extension.symm)
      · obtain ⟨some, nonempty⟩ := not_or.mp bare
        exact .led ⟨cut, some, only⟩ nonempty
    · rw [if_neg only] at extension
      have some : stem ≠ [] := by
        rintro rfl
        exact only (List.forall_mem_nil _)
      by_cases ended : ending = []
      · subst ended
        rw [if_pos (.inr rfl)] at suffix
        exact .dot suffix extension
      · rw [if_neg (not_or.mpr ⟨some, ended⟩)] at suffix
        exact .same (suffix.trans extension.symm)
  · exact .same ((suffixOf_of_undotted dotted).trans (extensionOf_of_undotted dotted).symm)

/-- A name without slashes is its own last component, or there is none and no suffix either. -/
theorem suffix_parse (free : '/' ∉ name.toList) : (parse name).suffix = suffixOf name := by
  by_cases named : isComponent name = true
  · rw [suffix, Path.name, parse_component named]
    rfl
  · have gone : name = "" ∨ name = "." := by
      by_contra other
      rw [not_or] at other
      exact named (isComponent_iff.mpr ⟨other.1, other.2, free⟩)
    rcases gone with rfl | rfl
    · decide
    · decide

end Path

namespace Language

variable {p : Path} {s : Selection} {name extension : String} {dots word : List Char}

/-- The languages registered for extensions. -/
def languages : List (String × String) :=
  [(".js", "javascript"), (".ts", "typescript"), (".jsx", "javascript"), (".tsx", "tsx")]

/-- A path is that of a script just when the extension is registered, and then its language is the one
    registered for it. -/
structure Follows (p : Path) (extension : String) : Prop where
  script : (dialect? p).isSome = true ↔ extension ∈ languages.map (·.1)
  language : nameOf p = (languages.lookup extension).getD "unknown"

/-- Nothing but dots stands before the suffix of a script. -/
structure Stray (name : String) (dots word : List Char) : Prop where
  led : Path.Led name dots word
  script : Text.lower (String.ofList ('.' :: word)) ∈ languages.map (·.1)

/-! ## The table of suffixes -/

/-- The dialect of a suffix and the language registered for it are found at the same place. -/
theorem map_dialectOfSuffix? (suffix : String) :
    (dialectOfSuffix? suffix).map dialectName = languages.lookup suffix := by
  have table : languages = scriptSuffixes.map fun pair => (pair.1, dialectName pair.2) := rfl
  rw [table, dialectOfSuffix?]
  induction scriptSuffixes with
  | nil => rfl
  | cons pair rest ih =>
      obtain ⟨key, dialect⟩ := pair
      rw [List.find?_cons, List.map_cons, List.lookup_cons, Bool.beq_comm (a := suffix)]
      cases key == suffix with
      | true => rfl
      | false => exact ih

theorem isSome_dialectOfSuffix? (suffix : String) :
    (dialectOfSuffix? suffix).isSome = true ↔ suffix ∈ languages.map (·.1) := by
  rw [← Option.isSome_map (f := dialectName), map_dialectOfSuffix?, List.lookup_isSome_iff]
  constructor
  · rintro ⟨pair, member, same⟩
    exact List.mem_map.mpr ⟨pair, member, (beq_iff_eq.mp same).symm⟩
  · intro member
    obtain ⟨pair, listed, same⟩ := List.mem_map.mp member
    exact ⟨pair, listed, beq_iff_eq.mpr same.symm⟩

theorem follows_of_dialect? (same : dialect? p = dialectOfSuffix? extension) :
    Follows p extension where
  script := by rw [same, isSome_dialectOfSuffix?]
  language := by rw [nameOf, same, map_dialectOfSuffix?]

/-! ## Names -/

/-- Unless a name is stray, its suffix and its extension are of one dialect or of none. -/
theorem follows_of_no_stray (suffix : p.suffix = Path.suffixOf name)
    (orderly : ∀ dots word, ¬Stray name dots word) :
    Follows p (Text.lower (Path.extensionOf name)) := by
  apply follows_of_dialect?
  rw [dialect?, suffix]
  cases Path.endings name with
  | same same => rw [same]
  | dot suffix extension =>
      -- Neither a dot alone nor nothing is the suffix of a script.
      rw [suffix, extension]
      decide +kernel
  | @led dots word led nonempty =>
      have foreign : dialectOfSuffix? (Text.lower (String.ofList ('.' :: word))) = none := by
        apply Option.not_isSome_iff_eq_none.mp
        intro script
        exact orderly dots word ⟨led, (isSome_dialectOfSuffix? _).mp script⟩
      rw [led.suffixOf_eq nonempty, led.extensionOf_eq, foreign]
      rfl

theorem Stray.nonempty (stray : Stray name dots word) : word ≠ [] := by
  rintro rfl
  exact absurd stray.script (by decide +kernel)

theorem Stray.not_follows (stray : Stray name dots word) (suffix : p.suffix = Path.suffixOf name) :
    ¬Follows p (Text.lower (Path.extensionOf name)) := by
  intro follows
  have script : (dialect? p).isSome = true := by
    rw [dialect?, suffix, stray.led.suffixOf_eq stray.nonempty, isSome_dialectOfSuffix?]
    exact stray.script
  have registered := follows.script.mp script
  rw [stray.led.extensionOf_eq] at registered
  exact absurd registered (by decide)

theorem Stray.not_accepted (stray : Stray name dots word) (nonempty : "" ∉ s.extensions) :
    s.accepts name = false := by
  rw [Bool.eq_false_iff]
  intro accepted
  rw [Selection.accepts, stray.led.extensionOf_eq, List.contains_iff_mem, List.mem_map] at accepted
  obtain ⟨e, member, empty⟩ := accepted
  rw [Text.lower_eq_empty_iff.mpr rfl, Text.lower_eq_empty_iff] at empty
  exact nonempty (empty ▸ member)

theorem stray_twoDots : Stray "..ts" ['.'] ['t', 's'] where
  led := ⟨⟨by decide, by decide⟩, by decide, List.forall_mem_singleton.mpr rfl⟩
  script := by decide +kernel

/-! ## Selections -/

/-- Every name that a selection accepts has the language of its extension, and so has every file that
    it lists. Of all names the strays alone have another, such as `..ts`. -/
structure Agrees (s : Selection) : Prop where
  accepted : ∀ name, '/' ∉ name.toList → s.accepts name = true →
    Follows (Path.parse name) (Text.lower (Path.extensionOf name))
  listed : ∀ (d : Disk) (folder : Path), d.root.Tidy → ∀ files, d.scan folder s = .ok files →
    ∀ p ∈ files, Follows p (Text.lower (Path.extensionOf p.name))
  apart : ∀ name, '/' ∉ name.toList →
    (¬Follows (Path.parse name) (Text.lower (Path.extensionOf name)) ↔
      ∃ dots word, Stray name dots word)
  twoDots : s.accepts "..ts" = false ∧ nameOf (Path.parse "..ts") = "typescript" ∧
    Path.extensionOf "..ts" = ""

/-- Suffixes and extensions agree on whatever is selected, as long as names without an extension are
    not. -/
theorem agrees_of_nonempty (nonempty : "" ∉ s.extensions) : Agrees s := by
  have orderly {name : String} (accepted : s.accepts name = true) (dots word : List Char) :
      ¬Stray name dots word := by
    intro stray
    exact Bool.false_ne_true ((stray.not_accepted nonempty).symm.trans accepted)
  refine ⟨?accepted, ?listed, ?apart, ?twoDots⟩
  case accepted =>
    intro name free accepted
    exact follows_of_no_stray (Path.suffix_parse free) (orderly accepted)
  case listed =>
    intro d folder tidy files scanned p member
    obtain ⟨root, -, lists⟩ := Disk.lists_of_scan tidy scanned
    exact follows_of_no_stray rfl (orderly (lists.accepts_name member))
  case apart =>
    intro name free
    have suffix := Path.suffix_parse free
    constructor
    · intro strays
      by_contra orderly
      rw [not_exists] at orderly
      apply strays
      exact follows_of_no_stray suffix fun dots word stray => orderly dots ⟨word, stray⟩
    · rintro ⟨dots, word, stray⟩
      exact stray.not_follows suffix
  case twoDots =>
    exact ⟨stray_twoDots.not_accepted nonempty, by decide +kernel, stray_twoDots.led.extensionOf_eq⟩

/-- All files of two extensions, one of which is only a dot. -/
def dotted : Selection where
  extensions := [".tS", "."]
  excluded := []
  ignored _ := false

/-- A disk with one file in its topmost folder. -/
def lone : Disk where
  entries := [("..a.b.Ts", .file [] true)]
  here := Path.bare .root

theorem tidy_lone : lone.root.Tidy :=
  .folder _ _ (by decide) (by decide) (List.forall_mem_singleton.mpr (.file _ _))

theorem scan_lone : ∃ files, lone.scan (Path.parse "/") dotted = .ok files ∧
    Path.parse "/..a.b.Ts" ∈ files := by
  have found : lone.find (Path.parse "/") = .ok ([], lone.root) :=
    Disk.find_of_reach? (by decide) rfl (by decide) fun _ => Entry.noConfusion
  have here : lone.resolve (Path.parse "/") = .ok (Path.parse "/") := by
    obtain ⟨q, resolved, anchor, parts⟩ := Disk.resolve_of_find (by decide) found
    exact resolved.trans (congrArg _ (Path.ext anchor parts))
  have isFolder : lone.isFolder (Path.parse "/") = .ok true := by
    rw [Disk.isFolder_of_find tidy_lone found]
    decide
  refine ⟨lone.listing (Path.parse "/") dotted, ?_, ?_⟩
  · rw [Disk.scan_of_resolve here, isFolder]
    rfl
  · have beyond : (Path.parse "/").beyond (Path.parse "/..a.b.Ts") = ["..a.b.Ts"] := by decide
    rw [Disk.mem_listing_of_find found rfl tidy_lone, beyond]
    refine ⟨by decide, ⟨[], true, rfl⟩, by decide +kernel, rfl, ?_⟩
    intro start nonempty before strict
    exact absurd (before.eq_of_length_le (List.length_pos_iff.mpr nonempty)) strict

/-- A listed script with dots in front and in the middle, and an accepted name that ends in a dot. -/
theorem agrees_of_nonempty_dotted : "" ∉ dotted.extensions ∧ Agrees dotted ∧
    (∃ files, lone.scan (Path.parse "/") dotted = .ok files ∧ Path.parse "/..a.b.Ts" ∈ files ∧
      Follows (Path.parse "/..a.b.Ts")
        (Text.lower (Path.extensionOf (Path.parse "/..a.b.Ts").name))) ∧
    (dotted.accepts "a.ts." = true ∧
      Follows (Path.parse "a.ts.") (Text.lower (Path.extensionOf "a.ts."))) := by
  have nonempty : "" ∉ dotted.extensions := by decide
  have agrees := agrees_of_nonempty nonempty
  have ended : dotted.accepts "a.ts." = true := by decide +kernel
  obtain ⟨files, scanned, member⟩ := scan_lone
  exact ⟨nonempty, agrees,
    ⟨files, scanned, member, agrees.listed lone _ tidy_lone files scanned _ member⟩,
    ⟨ended, agrees.accepted _ (by decide) ended⟩⟩

end Language

end RepoAtlas
