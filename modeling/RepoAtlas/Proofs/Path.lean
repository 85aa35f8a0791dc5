import RepoAtlas.Path

/-! # Paths and their texts

Splitting at slashes undoes joining, so components are found again in the text that joins them, and
a path is found again in its text. Two facts about the ids of a graph follow: different paths have
different texts, and a text of joined components is never the text of a path with an anchor.
-/

namespace RepoAtlas

namespace Text

theorem splitList_of_not_mem {separator : Char} {piece : List Char} (free : separator ∉ piece) :
    splitList separator piece = [piece] := by
  induction piece with
  | nil => rfl
  | cons c rest ih =>
      have other : c ≠ separator := fun same => free (by simp [same])
      have tail : separator ∉ rest := fun member => free (List.mem_cons_of_mem c member)
      simp only [splitList, if_neg other, ih tail]

/-- A piece without separators is cut off at the first separator. -/
theorem splitList_append {separator : Char} {piece : List Char} (free : separator ∉ piece)
    (rest : List Char) :
    splitList separator (piece ++ separator :: rest) = piece :: splitList separator rest := by
  induction piece with
  | nil => simp only [List.nil_append, splitList, if_true]
  | cons c more ih =>
      have other : c ≠ separator := fun same => free (by simp [same])
      have tail : separator ∉ more := fun member => free (List.mem_cons_of_mem c member)
      simp only [List.cons_append, splitList, if_neg other, ih tail]

end Text

theorem isComponent_iff {s : String} :
    isComponent s = true ↔ s ≠ "" ∧ s ≠ "." ∧ '/' ∉ s.toList := by
  simp [isComponent, and_assoc]

namespace Path

attribute [ext] Path

@[simp] theorem joined_nil : joined [] = "" := String.intercalate_nil

@[simp] theorem joined_singleton (part : String) : joined [part] = part :=
  String.intercalate_singleton

theorem joined_cons_cons (part next : String) (rest : List String) :
    joined (part :: next :: rest) = part ++ "/" ++ joined (next :: rest) :=
  String.intercalate_cons_cons

theorem joined_append {parts more : List String} (some : parts ≠ []) (others : more ≠ []) :
    joined (parts ++ more) = joined parts ++ "/" ++ joined more := by
  induction parts with
  | nil => exact absurd rfl some
  | cons part rest ih =>
      cases rest with
      | nil =>
          obtain ⟨next, later, rfl⟩ := List.exists_cons_of_ne_nil others
          rw [List.singleton_append, joined_cons_cons, joined_singleton]
      | cons next later =>
          rw [List.cons_append, List.cons_append, joined_cons_cons, joined_cons_cons,
            ← List.cons_append, ih (by simp)]
          simp only [String.append_assoc]

/-- Joining adds slashes and no other character. -/
theorem mem_joined {c : Char} (other : c ≠ '/') {parts : List String} :
    c ∈ (joined parts).toList ↔ ∃ part ∈ parts, c ∈ part.toList := by
  induction parts with
  | nil => simp
  | cons part rest ih =>
      cases rest with
      | nil => simp
      | cons next later =>
          rw [joined_cons_cons]
          simp [other, ih]

theorem split_joined {parts : List String} (nonempty : parts ≠ [])
    (proper : ∀ part ∈ parts, isComponent part = true) : Text.split '/' (joined parts) = parts := by
  induction parts with
  | nil => exact absurd rfl nonempty
  | cons part rest ih =>
      have free : '/' ∉ part.toList := (isComponent_iff.mp (proper part (by simp))).2.2
      cases rest with
      | nil => simp [Text.split, Text.splitList_of_not_mem free]
      | cons next more =>
          have tail := ih (by simp) fun p member => proper p (List.mem_cons_of_mem part member)
          simp only [Text.split] at tail ⊢
          rw [joined_cons_cons, String.toList_append, String.toList_append, List.append_assoc,
            show "/".toList = ['/'] from rfl, List.singleton_append, Text.splitList_append free,
            List.map_cons, String.ofList_toList, tail]

theorem filter_split_joined {parts : List String}
    (proper : ∀ part ∈ parts, isComponent part = true) :
    (Text.split '/' (joined parts)).filter isComponent = parts := by
  cases parts with
  | nil => rfl
  | cons part rest =>
      rw [split_joined (by simp) proper, List.filter_eq_self.mpr proper]

/-- Joined components start with the first character of the first of them, which is no slash. -/
theorem head_joined_ne_slash {parts : List String}
    (proper : ∀ part ∈ parts, isComponent part = true) : (joined parts).toList.head? ≠ some '/' := by
  cases parts with
  | nil => simp
  | cons part rest =>
      obtain ⟨nonempty, -, free⟩ := isComponent_iff.mp (proper part (by simp))
      have front : (joined (part :: rest)).toList.head? = part.toList.head? := by
        cases rest with
        | nil => simp
        | cons next more =>
            obtain ⟨c, tail, spelled⟩ : ∃ c tail, part.toList = c :: tail :=
              List.exists_cons_of_ne_nil (by simpa using nonempty)
            simp [joined_cons_cons, spelled]
      rw [front]
      intro slash
      exact free (List.mem_of_mem_head? slash)

theorem anchorOf_eq_relative {cs : List Char} (free : cs.head? ≠ some '/') :
    anchorOf cs = .relative := by
  cases cs with
  | nil => rfl
  | cons c rest =>
      rw [anchorOf]
      all_goals simp_all

theorem anchorOf_slash {cs : List Char} (free : cs.head? ≠ some '/') :
    anchorOf ('/' :: cs) = .root := by
  cases cs with
  | nil => rfl
  | cons c rest =>
      rw [anchorOf]
      all_goals simp_all

theorem anchorOf_slash_slash {cs : List Char} (free : cs.head? ≠ some '/') :
    anchorOf ('/' :: '/' :: cs) = .doubleRoot := by
  cases cs with
  | nil => rfl
  | cons c rest =>
      rw [anchorOf]
      all_goals simp_all

theorem parse_joined {parts : List String} (proper : ∀ part ∈ parts, isComponent part = true) :
    parse (joined parts) = { anchor := .relative, parts, proper } := by
  ext1
  · exact anchorOf_eq_relative (head_joined_ne_slash proper)
  · exact filter_split_joined proper

theorem parse_component {name : String} (named : isComponent name = true) :
    parse name =
      { anchor := .relative, parts := [name], proper := List.forall_mem_singleton.mpr named } := by
  simpa only [joined_singleton] using parse_joined (List.forall_mem_singleton.mpr named)

theorem anchor_child (p : Path) {name : String} (named : isComponent name = true) :
    (p.child name).anchor = p.anchor := by
  rw [child, parse_component named]
  rfl

theorem parts_child (p : Path) {name : String} (named : isComponent name = true) :
    (p.child name).parts = p.parts ++ [name] := by
  rw [child, parse_component named]
  rfl

theorem split_slash (s : String) : Text.split '/' ("/" ++ s) = "" :: Text.split '/' s := by
  simp [Text.split, Text.splitList]

theorem split_slash_slash (s : String) :
    Text.split '/' ("//" ++ s) = "" :: "" :: Text.split '/' s := by
  simp [Text.split, Text.splitList]

theorem split_append_slash {piece : String} (free : '/' ∉ piece.toList) (s : String) :
    Text.split '/' (piece ++ "/" ++ s) = piece :: Text.split '/' s := by
  simp [Text.split, Text.splitList_append free]

/-- What stands before a slash is a component of its own, or leaves no trace. -/
theorem parse_append_slash {piece : String} (nonempty : piece ≠ "") (free : '/' ∉ piece.toList)
    (s : String) : (parse (piece ++ "/" ++ s)).anchor = .relative ∧
      (parse (piece ++ "/" ++ s)).parts = [piece].filter isComponent ++ (parse s).parts := by
  constructor
  · apply anchorOf_eq_relative
    obtain ⟨c, tail, spelled⟩ : ∃ c tail, piece.toList = c :: tail :=
      List.exists_cons_of_ne_nil (by simpa using nonempty)
    have other : c ≠ '/' := fun same => free (by simp [spelled, same])
    simpa [spelled] using other
  · simp only [parse, split_append_slash free, ← List.filter_append, List.singleton_append]

theorem parse_dot_slash (s : String) : (parse ("./" ++ s)).anchor = .relative ∧
    (parse ("./" ++ s)).parts = (parse s).parts :=
  parse_append_slash (by decide : "." ≠ "") (by decide) s

theorem parse_up_slash (s : String) : (parse ("../" ++ s)).anchor = .relative ∧
    (parse ("../" ++ s)).parts = ".." :: (parse s).parts :=
  parse_append_slash (by decide : ".." ≠ "") (by decide) s

theorem parse_text (p : Path) : parse p.text = p := by
  obtain ⟨anchor, parts, proper⟩ := p
  have headless := head_joined_ne_slash proper
  have empty_no_component : isComponent "" = false := by decide
  cases anchor with
  | relative =>
      cases parts with
      | nil =>
          have dot : text { anchor := .relative, parts := [], proper } = "." := by simp [text]
          rw [dot]
          ext1
          · rfl
          · exact (by decide : (Text.split '/' ".").filter isComponent = [])
      | cons part rest => simpa [text, Anchor.text] using parse_joined proper
  | root =>
      ext1
      · simpa [parse, text, Anchor.text] using anchorOf_slash headless
      · simp [parse, text, Anchor.text, split_slash, empty_no_component, filter_split_joined proper]
  | doubleRoot =>
      ext1
      · simpa [parse, text, Anchor.text] using anchorOf_slash_slash headless
      · simp [parse, text, Anchor.text, split_slash_slash, empty_no_component,
          filter_split_joined proper]

theorem text_injective {p q : Path} (same : p.text = q.text) : p = q := by
  rw [← parse_text p, ← parse_text q, same]

theorem joined_injective {parts more : List String}
    (proper : ∀ part ∈ parts, isComponent part = true)
    (proper' : ∀ part ∈ more, isComponent part = true) (same : joined parts = joined more) :
    parts = more := by
  have parsed := congrArg (fun s => (parse s).parts) same
  simpa only [parse_joined proper, parse_joined proper'] using parsed

/-- Joined components are never the text of a path with an anchor. -/
theorem joined_ne_text {parts : List String} (proper : ∀ part ∈ parts, isComponent part = true)
    {p : Path} (absolute : p.isAbsolute = true) : joined parts ≠ p.text := by
  intro same
  have parsed := congrArg (fun s => (parse s).anchor) same
  simp only [parse_joined proper, parse_text] at parsed
  simp [isAbsolute, ← parsed] at absolute

theorem joined_ne_dot {parts : List String} (nonempty : parts ≠ [])
    (proper : ∀ part ∈ parts, isComponent part = true) : joined parts ≠ "." := by
  intro same
  have parsed := congrArg (fun s => (parse s).parts) same
  rw [parse_joined proper] at parsed
  exact nonempty (parsed.trans (by decide))

/-- The path is the root or lies below it, name by name. -/
def Within (p root : Path) : Prop := p.anchor = root.anchor ∧ root.parts <+: p.parts

instance (p root : Path) : Decidable (p.Within root) :=
  inferInstanceAs (Decidable (p.anchor = root.anchor ∧ root.parts <+: p.parts))

/-- The components of a path behind those of a root. -/
def beyond (root p : Path) : List String := p.parts.drop root.parts.length

theorem proper_beyond (root p : Path) : ∀ part ∈ root.beyond p, isComponent part = true :=
  fun part member => p.proper part (List.mem_of_mem_drop member)

theorem relativeTo?_of_within {p root : Path} (within : p.Within root) :
    p.relativeTo? root =
      some { anchor := .relative, parts := root.beyond p, proper := proper_beyond root p } := by
  have start : root.parts.isPrefixOf p.parts = true := List.isPrefixOf_iff_prefix.mpr within.2
  simp [relativeTo?, within.1, start, beyond]

theorem relativeTo?_of_not_within {p root : Path} (outside : ¬p.Within root) :
    p.relativeTo? root = none := by
  simp only [relativeTo?, ite_eq_right_iff, reduceCtorEq, imp_false, Bool.and_eq_true,
    decide_eq_true_eq, List.isPrefixOf_iff_prefix]
  exact outside

theorem Within.parts_eq {p root : Path} (within : p.Within root) :
    p.parts = root.parts ++ root.beyond p :=
  (List.prefix_iff_eq_append.mp within.2).symm

theorem Within.isAbsolute {p root : Path} (within : p.Within root)
    (absolute : root.isAbsolute = true) : p.isAbsolute = true := by
  simpa only [Path.isAbsolute, within.1] using absolute

/-- Two paths at or below one root are told apart by what lies behind it. -/
theorem Within.eq_of_beyond {p q root : Path} (within : p.Within root) (within' : q.Within root)
    (same : root.beyond p = root.beyond q) : p = q :=
  Path.ext (within.1.trans within'.1.symm) (by rw [within.parts_eq, within'.parts_eq, same])

theorem Within.beyond_ne_nil {root p : Path} (within : p.Within root) (apart : p ≠ root) :
    root.beyond p ≠ [] := by
  intro here
  exact apart (Path.ext within.1 (by rw [within.parts_eq, here, List.append_nil]))

/-- Seen from the root, a path below it is spelled by its components. -/
theorem Within.exists_relative {root p : Path} (within : p.Within root)
    (deep : root.beyond p ≠ []) :
    ∃ q, p.relativeTo? root = some q ∧ q.text = joined (root.beyond p) :=
  ⟨_, relativeTo?_of_within within, by simp [text, Anchor.text, deep]⟩

/-- Components taken from a root lead to the path below it that they spell. -/
theorem join_parse_joined (root : Path) {way : List String}
    (proper : ∀ part ∈ way, isComponent part = true) :
    (root.join (parse (joined way))).Within root ∧
      root.beyond (root.join (parse (joined way))) = way := by
  rw [parse_joined proper]
  simp [join, Within, beyond]

theorem dot_ne_text {p : Path} (absolute : p.isAbsolute = true) : "." ≠ p.text := by
  intro same
  have parsed := congrArg (fun s => (parse s).anchor) same
  rw [parse_text, show (parse ".").anchor = .relative from rfl] at parsed
  simp [isAbsolute, ← parsed] at absolute

end Path

end RepoAtlas
