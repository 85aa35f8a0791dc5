import RepoAtlas.Proofs.Index
import RepoAtlas.Proofs.Path

/-! # What a specifier means

`meant?` says what a specifier means by the list of paths alone, without an index: the first place
it points to that is listed, the last path of its name, or the last path of the first name that it
ends with. Resolving with the index of the list gives the same.
-/

namespace RepoAtlas

theorem Resolution.mem_of_mem_cancelDots {rooted : Bool} {above todo : List String} {part : String}
    (member : part ∈ cancelDots rooted above todo) : part ∈ above ∨ part ∈ todo := by
  fun_induction cancelDots rooted above todo with
  | case1 above => exact .inl (List.mem_reverse.mp member)
  -- Each other step moves a component from what is to do to what is above, or drops one.
  | _ => grind

/-- Components other than `..` are kept. -/
theorem Resolution.cancelDots_append {rooted : Bool} {above plain todo : List String}
    (free : ".." ∉ plain) :
    cancelDots rooted above (plain ++ todo) = cancelDots rooted (plain.reverse ++ above) todo := by
  induction plain generalizing above with
  | nil => rfl
  | cons part rest ih =>
      obtain ⟨other, free⟩ : ".." ≠ part ∧ ".." ∉ rest := by simpa using free
      rw [List.cons_append, cancelDots, ih free]
      · simp
      · exact other.symm

namespace Path

/-- The path without dots: every `..` takes back the component before it. -/
def normal (p : Path) : Path where
  anchor := p.anchor
  parts := Resolution.cancelDots p.isAbsolute [] p.parts
  proper := by
    intro part member
    rcases Resolution.mem_of_mem_cancelDots member with above | listed
    · exact absurd above List.not_mem_nil
    · exact p.proper part listed

/-! ## Texts that end with a slash -/

theorem joined_concat {parts : List String} (nonempty : parts ≠ []) (name : String) :
    joined (parts ++ [name]) = joined parts ++ "/" ++ name := by
  rw [joined_append nonempty (by simp), joined_singleton]

theorem endsWith_slash_iff {s : String} :
    Text.endsWith s "/" = true ↔ s.toList.getLast? = some '/' := by
  rw [Text.endsWith, List.isSuffixOf_iff_suffix, show "/".toList = ['/'] from rfl]
  constructor
  · rintro ⟨front, same⟩
    rw [← same, List.getLast?_concat]
  · intro last
    obtain ⟨front, same⟩ := List.getLast?_eq_some_iff.mp last
    exact ⟨front, same.symm⟩

/-- Joined components end with the last character of the last of them, which is no slash. -/
theorem getLast_joined_ne_slash {parts : List String}
    (proper : ∀ part ∈ parts, isComponent part = true) :
    (joined parts).toList.getLast? ≠ some '/' := by
  rcases List.eq_nil_or_concat parts with rfl | ⟨front, name, rfl⟩
  · simp
  · rw [List.concat_eq_append] at proper ⊢
    obtain ⟨nonempty, -, free⟩ := isComponent_iff.mp (proper name (by simp))
    have last : (joined (front ++ [name])).toList.getLast? = name.toList.getLast? := by
      obtain ⟨start, c, spelled⟩ : ∃ start c, name.toList = start ++ [c] :=
        (List.eq_nil_or_concat' name.toList).resolve_left (by simpa using nonempty)
      cases front with
      | nil => simp
      | cons part rest =>
          rw [joined_concat (by simp), String.toList_append, spelled, ← List.append_assoc,
            List.getLast?_concat, List.getLast?_concat]
    rw [last]
    intro slash
    exact free (List.mem_of_getLast? slash)

theorem endsWith_slash_text {p : Path} (nonempty : p.parts ≠ []) :
    Text.endsWith p.text "/" = false := by
  rw [← Bool.not_eq_true, endsWith_slash_iff]
  obtain ⟨front, c, spelled⟩ : ∃ front c, (joined p.parts).toList = front ++ [c] := by
    refine (List.eq_nil_or_concat' _).resolve_left fun empty => nonempty ?_
    rw [String.toList_eq_nil_iff] at empty
    exact joined_injective p.proper (by simp) (empty.trans joined_nil.symm)
  have text : p.text = p.anchor.text ++ joined p.parts := by simp [text, nonempty]
  have last := getLast_joined_ne_slash p.proper
  rw [spelled, List.getLast?_concat] at last
  rw [text, String.toList_append, spelled, ← List.append_assoc, List.getLast?_concat]
  exact last

theorem text_child (p : Path) {name : String} (named : isComponent name = true) :
    (p.child name).text = p.anchor.text ++ joined (p.parts ++ [name]) := by
  simp [text, anchor_child p named, parts_child p named]

/-- A name behind the text of a path, with a slash between them if there is none, is a child. -/
theorem parse_text_slash (p : Path) {name : String} (named : isComponent name = true) :
    parse ((if Text.endsWith p.text "/" then p.text else p.text ++ "/") ++ name) = p.child name := by
  by_cases nonempty : p.parts = []
  · obtain ⟨anchor, parts, proper⟩ := p
    obtain rfl : parts = [] := nonempty
    cases anchor with
    | relative =>
        obtain ⟨anchor, parts⟩ := parse_dot_slash name
        have dot : text { anchor := .relative, parts := [], proper } = "." := by simp [text]
        rw [dot, if_neg (by decide)]
        ext1
        · rw [anchor_child _ named]
          exact anchor
        · rw [parts_child _ named]
          exact parts.trans (by rw [parse_component named]; rfl)
    | root =>
        rw [← parse_text (child _ name), text_child _ named]
        simp [text, Anchor.text, endsWith_slash_iff]
    | doubleRoot =>
        rw [← parse_text (child _ name), text_child _ named]
        simp [text, Anchor.text, endsWith_slash_iff]
  · rw [endsWith_slash_text nonempty, ← parse_text (p.child name), text_child p named,
      joined_concat nonempty]
    simp [text, nonempty, String.append_assoc]

end Path

/-! ## Meaning by the list of paths -/

namespace Resolution

def suffixes : List String := [".js", ".ts", ".jsx", ".tsx"]

/-- The places where a relative specifier may point from a file: a path, the path with the suffix of
    a script, and an index script inside. -/
def pointees (importer : Path) (specifier : String) : List Path :=
  let target := (importer.parent.join (Path.parse specifier)).normal
  target :: suffixes.map (fun suffix => Path.parse (target.text ++ suffix)) ++
    suffixes.map fun suffix => target.child ("index" ++ suffix)

/-- The path that a specifier means among listed ones, if it means one. -/
def meant? (paths : List Path) (importer : Option Path) (relativeFirst : Bool)
    (specifier : String) : Option Path :=
  let specifier := Text.strip specifier
  if specifier = "" then none
  else
    let relative := specifier = "." ∨ specifier = ".." ∨ "./".toList <+: specifier.toList ∨
      "../".toList <+: specifier.toList
    let pointed := if relativeFirst ∧ relative then
        importer.bind fun importer => (pointees importer specifier).find? (· ∈ paths)
      else none
    let base := Text.afterLast '/' specifier
    let named := if base = "" then none
      else (lastNamed? paths base).or
        (suffixes.findSome? fun suffix => lastNamed? paths (base ++ suffix))
    -- Of the names the first counts, of the paths that bear it the last.
    let ending := (paths.map Path.name).eraseDups.find? fun name => name.toList <:+ specifier.toList
    (pointed.or named).or (ending.bind (lastNamed? paths))

theorem candidates_eq_pointees (importer : Path) (specifier : String) :
    candidates importer specifier = pointees importer specifier := by
  have target : normalText (importer.parent.join (Path.parse specifier)) =
      (importer.parent.join (Path.parse specifier)).normal.text := rfl
  have scripts : Language.scriptSuffixes.map (·.1) = suffixes := rfl
  have named : ∀ suffix ∈ suffixes, isComponent ("index" ++ suffix) = true := by decide
  simp only [candidates, pointees, target, scripts, List.map_append, List.map_cons, List.map_map,
    Path.parse_text]
  apply congrArg
  apply List.map_congr_left
  intro suffix member
  rw [Function.comp_apply, String.append_assoc]
  exact Path.parse_text_slash _ (named suffix member)

theorem pointedAt?_ofPaths (paths : List Path) (importer : Path) (specifier : String) :
    pointedAt? (Index.ofPaths paths) importer specifier =
      (pointees importer specifier).find? (· ∈ paths) := by
  rw [pointedAt?, candidates_eq_pointees]
  congr 1
  funext p
  exact List.contains_eq_mem p paths

theorem named?_ofPaths (paths : List Path) (specifier : String) :
    named? (Index.ofPaths paths) specifier =
      if Text.afterLast '/' specifier = "" then none
      else (lastNamed? paths (Text.afterLast '/' specifier)).or
        (suffixes.findSome? fun suffix =>
          lastNamed? paths (Text.afterLast '/' specifier ++ suffix)) := by
  simp only [named?, Index.get?_ofPaths, List.findSome?_cons, String.append_empty]
  split
  · rfl
  · cases lastNamed? paths (Text.afterLast '/' specifier) <;> rfl

theorem isRelative_iff {specifier : String} :
    isRelative specifier = true ↔ specifier = "." ∨ specifier = ".." ∨
      "./".toList <+: specifier.toList ∨ "../".toList <+: specifier.toList := by
  simp [isRelative, Text.startsWith, or_assoc]

theorem resolve_ofPaths (paths : List Path) (importer : Option Path) (relativeFirst : Bool)
    (specifier : String) :
    resolve (Index.ofPaths paths) importer relativeFirst specifier =
      meant? paths importer relativeFirst specifier := by
  simp only [resolve, meant?, named?_ofPaths, Index.suffixMatch?_ofPaths]
  split
  · rfl
  · congr 2
    · cases importer with
      | none => simp
      | some importer =>
          simp only [pointedAt?_ofPaths, Bool.and_eq_true, isRelative_iff, Option.bind_some]
    · congr 1
      funext name
      rw [Text.endsWith, Bool.eq_iff_iff, List.isSuffixOf_iff_suffix, decide_eq_true_iff]

/-- Resolving with the index of listed paths gives what the specifier means by the list, and thus
    one of the paths if anything. -/
theorem resolve_means_by_list (paths : List Path) (importer : Option Path) (relativeFirst : Bool)
    (specifier : String) :
    resolve (Index.ofPaths paths) importer relativeFirst specifier =
        meant? paths importer relativeFirst specifier ∧
      ∀ p ∈ resolve (Index.ofPaths paths) importer relativeFirst specifier, p ∈ paths :=
  ⟨resolve_ofPaths paths importer relativeFirst specifier, fun _ found =>
    Index.mem_of_resolve found⟩

/-- The specifier ends with two names of the list: the name that comes first there decides, and of
    the two paths that bear it the last is meant. -/
example : meant? (["/r/a/x.ts", "/r/-x.ts", "/r/b/x.ts"].map Path.parse) none false "lib/my-x.ts" =
    some (Path.parse "/r/b/x.ts") := by decide

end Resolution

end RepoAtlas
