import Mathlib.Data.List.TakeWhile
import RepoAtlas.Proofs.Path
import RepoAtlas.Report

/-! # Paths as they are shown

A report shows the path of a file without the root in front. The root is taken off as a text, and
with it all slashes and backslashes that follow: for a path below the root this leaves what its
components spell, unless the first of them begins with a backslash. A path beside the root, whose
name goes on where the last name of the root ends, is cut inside that name.
-/

namespace RepoAtlas

/-! ## Texts that begin alike -/

section Cut

variable {separator : Char} {piece other : List Char}

/-- A piece without separators stands before the first separator or not at all. -/
theorem prefix_append_separator (free : separator ∉ piece) (later : List Char) :
    piece <+: other ++ separator :: later ↔ piece <+: other := by
  refine ⟨fun before => ?_, fun before => before.trans (List.prefix_append other _)⟩
  rcases List.prefix_or_prefix_of_prefix before (List.prefix_append other _) with
    shorter | ⟨rest, rfl⟩
  · exact shorter
  · rw [List.prefix_append_right_inj] at before
    cases rest with
    | nil => simp
    | cons c tail =>
        obtain ⟨rfl, -⟩ := List.cons_prefix_cons.mp before
        exact absurd (by simp) free

/-- Of two texts that begin alike the first pieces are the same. -/
theorem separated_prefix_iff (free : separator ∉ piece) (free' : separator ∉ other)
    (more later : List Char) :
    piece ++ separator :: more <+: other ++ separator :: later ↔ piece = other ∧ more <+: later := by
  constructor
  · intro before
    have first := (prefix_append_separator free later).mp ((List.prefix_append piece _).trans before)
    obtain ⟨rest, rfl⟩ := first
    rw [List.append_assoc, List.prefix_append_right_inj] at before
    cases rest with
    | nil => exact ⟨(List.append_nil piece).symm, (List.cons_prefix_cons.mp before).2⟩
    | cons c tail =>
        obtain ⟨rfl, -⟩ := List.cons_prefix_cons.mp before
        exact absurd (by simp) free'
  · rintro ⟨rfl, inner⟩
    rw [List.prefix_append_right_inj, List.cons_prefix_cons]
    exact ⟨rfl, inner⟩

theorem not_prefix_of_head (unlike : other.head? ≠ some separator) (more : List Char) :
    ¬separator :: more <+: other := by
  rintro ⟨rest, rfl⟩
  simp at unlike

theorem prefix_cons_of_head (unlike : piece.head? ≠ some separator) (more : List Char) :
    piece <+: separator :: more ↔ piece = [] := by
  cases piece with
  | nil => simp
  | cons c rest =>
      have apart : c ≠ separator := by simpa using unlike
      simp [apart]

end Cut

namespace Path

/-- The components begin with those of another path but for the last, which is only the beginning of
    a name. -/
def Overruns (parts more : List String) : Prop :=
  ∃ front last tail rest, tail ≠ "" ∧ parts = front ++ [last] ∧ more = front ++ (last ++ tail) :: rest

theorem overruns_cons_iff {part other : String} {parts more : List String} (nonempty : parts ≠ []) :
    Overruns (part :: parts) (other :: more) ↔ part = other ∧ Overruns parts more := by
  constructor
  · rintro ⟨front, last, tail, rest, some, first, second⟩
    cases front with
    | nil => exact absurd (List.cons.inj first).2 nonempty
    | cons start front =>
        obtain ⟨rfl, rfl⟩ := List.cons.inj first
        obtain ⟨rfl, rfl⟩ := List.cons.inj second
        exact ⟨rfl, front, last, tail, rest, some, rfl, rfl⟩
  · rintro ⟨rfl, front, last, tail, rest, some, rfl, rfl⟩
    exact ⟨part :: front, last, tail, rest, some, rfl, rfl⟩

theorem overruns_singleton_iff {part other : String} {more : List String} :
    Overruns [part] (other :: more) ↔ ∃ tail, tail ≠ "" ∧ other = part ++ tail := by
  constructor
  · rintro ⟨front, last, tail, rest, some, first, second⟩
    cases front with
    | nil =>
        obtain ⟨rfl, -⟩ := List.cons.inj first
        exact ⟨tail, some, (List.cons.inj second).1⟩
    | cons start front => simp at first
  · rintro ⟨tail, some, rfl⟩
    exact ⟨[], part, tail, more, some, rfl, rfl⟩

theorem not_overruns_nil {parts : List String} : ¬Overruns parts [] := by
  rintro ⟨front, last, tail, rest, -, -, second⟩
  simp at second

theorem Overruns.not_prefix {parts more : List String} (overruns : Overruns parts more) :
    ¬parts <+: more := by
  obtain ⟨front, last, tail, rest, some, rfl, rfl⟩ := overruns
  rw [List.prefix_append_right_inj, List.cons_prefix_cons]
  rintro ⟨same, -⟩
  exact some (by simpa using congrArg String.toList same)

theorem toList_prefix_iff {s t : String} :
    s.toList <+: t.toList ↔ s = t ∨ ∃ tail, tail ≠ "" ∧ t = s ++ tail := by
  constructor
  · rintro ⟨tail, same⟩
    have spelled : t = s ++ String.ofList tail := by
      rw [← String.toList_inj, String.toList_append, String.toList_ofList, same]
    by_cases whole : String.ofList tail = ""
    · exact .inl (by rw [spelled, whole, String.append_empty])
    · exact .inr ⟨_, whole, spelled⟩
  · rintro (rfl | ⟨tail, -, rfl⟩)
    · exact List.prefix_rfl
    · rw [String.toList_append]
      exact List.prefix_append s.toList tail.toList

theorem toList_joined_cons_cons (part next : String) (rest : List String) :
    (joined (part :: next :: rest)).toList = part.toList ++ '/' :: (joined (next :: rest)).toList := by
  rw [joined_cons_cons, String.toList_append, String.toList_append, List.append_assoc]
  rfl

theorem joined_eq_empty_iff {parts : List String} (proper : ∀ part ∈ parts, isComponent part = true) :
    joined parts = "" ↔ parts = [] :=
  ⟨fun empty => joined_injective proper (List.forall_mem_nil _) (empty.trans joined_nil.symm),
    fun top => by rw [top, joined_nil]⟩

/-- A text of components begins like another if the components do, or the last one overruns. -/
theorem joined_prefix_iff {parts more : List String}
    (proper : ∀ part ∈ parts, isComponent part = true)
    (proper' : ∀ part ∈ more, isComponent part = true) :
    (joined parts).toList <+: (joined more).toList ↔ parts <+: more ∨ Overruns parts more := by
  induction parts generalizing more with
  | nil => simp
  | cons part rest ih =>
      obtain ⟨-, -, free⟩ := isComponent_iff.mp (proper part (by simp))
      cases more with
      | nil =>
          have filled : (joined (part :: rest)).toList ≠ [] := by
            simp [joined_eq_empty_iff proper]
          simp [filled, not_overruns_nil]
      | cons other later =>
          obtain ⟨-, -, free'⟩ := isComponent_iff.mp (proper' other (by simp))
          cases rest with
          | nil =>
              have first : (joined [part]).toList <+: (joined (other :: later)).toList ↔
                  part.toList <+: other.toList := by
                cases later with
                | nil => rw [joined_singleton, joined_singleton]
                | cons next later =>
                    rw [joined_singleton, toList_joined_cons_cons, prefix_append_separator free]
              rw [first, toList_prefix_iff, overruns_singleton_iff, List.cons_prefix_cons]
              simp
          | cons next rest =>
              cases later with
              | nil =>
                  -- The first text has a slash and the second one has none.
                  have apart : ¬(joined (part :: next :: rest)).toList <+: other.toList := by
                    intro before
                    exact free' (before.subset (by simp [toList_joined_cons_cons]))
                  rw [joined_singleton, overruns_cons_iff (by simp), List.cons_prefix_cons]
                  simp [apart, not_overruns_nil]
              | cons following later =>
                  have proper₁ := fun p member => proper p (List.mem_cons_of_mem part member)
                  have proper₂ := fun p member => proper' p (List.mem_cons_of_mem other member)
                  have inner := ih proper₁ proper₂
                  rw [toList_joined_cons_cons, toList_joined_cons_cons,
                    separated_prefix_iff free free', inner, String.toList_inj, and_or_left,
                    ← List.cons_prefix_cons, ← overruns_cons_iff (List.cons_ne_nil next rest)]

theorem text_of_anchored {p : Path} (anchored : p.anchor ≠ .relative) :
    p.text = p.anchor.text ++ joined p.parts := by
  simp [text, anchored]

theorem anchored_of_isAbsolute {p : Path} (absolute : p.isAbsolute = true) : p.anchor ≠ .relative :=
  of_decide_eq_true absolute

/-- The text of a path below a root: that of the root, a slash if that does not end with one, and
    the components behind. -/
theorem Within.text_eq {root p : Path} (within : p.Within root) (absolute : root.isAbsolute = true)
    (deep : root.beyond p ≠ []) :
    p.text = root.text ++ (if root.parts = [] then "" else "/") ++ joined (root.beyond p) := by
  rw [text_of_anchored (anchored_of_isAbsolute (within.isAbsolute absolute)),
    text_of_anchored (anchored_of_isAbsolute absolute), within.1, within.parts_eq]
  by_cases top : root.parts = []
  · simp [top]
  · rw [joined_append top deep, if_neg top]
    simp only [String.append_assoc]

/-- The path lies outside of the root, but its text begins with that of the root. Either its name at
    the place of the root's last name goes on behind it, or the root is the one slash with which an
    anchor of two begins. -/
inductive Beside (p root : Path) : Prop where
  | overrun (anchor : p.anchor = root.anchor) (overruns : Overruns root.parts p.parts)
  | doubled (single : root.anchor = .root) (top : root.parts = []) (double : p.anchor = .doubleRoot)

theorem head_text_relative {p : Path} (relative : p.anchor = .relative) :
    p.text.toList.head? ≠ some '/' := by
  by_cases empty : p.parts = []
  · simp [text, relative, empty]
  · simpa [text, relative, empty, Anchor.text] using head_joined_ne_slash p.proper

theorem head_text_absolute {p : Path} (absolute : p.isAbsolute = true) :
    p.text.toList.head? = some '/' := by
  have anchored := anchored_of_isAbsolute absolute
  rw [text_of_anchored anchored]
  cases kind : p.anchor with
  | relative => exact absurd kind anchored
  | root => simp [Anchor.text]
  | doubleRoot => simp [Anchor.text]

/-- Of texts with other slashes in front only one slash by itself is the beginning of another, namely
    of two. -/
theorem text_prefix_iff_of_ne_anchor {root p : Path} (absolute : root.isAbsolute = true)
    (other : p.anchor ≠ root.anchor) : root.text.toList <+: p.text.toList ↔
      root.anchor = .root ∧ root.parts = [] ∧ p.anchor = .doubleRoot := by
  have anchored := anchored_of_isAbsolute absolute
  -- Behind the slashes of its anchor no text goes on with a slash.
  have headless := head_joined_ne_slash root.proper
  have headless' := head_joined_ne_slash p.proper
  have bare := joined_eq_empty_iff root.proper
  cases kind : p.anchor with
  | relative =>
      have unlike := not_prefix_of_head (head_text_relative kind)
      cases own : root.anchor with
      | relative => exact absurd own anchored
      | root => simp [text_of_anchored anchored, own, Anchor.text, unlike]
      | doubleRoot => simp [text_of_anchored anchored, own, Anchor.text, unlike]
  | root =>
      have anchored' : p.anchor ≠ .relative := by simp [kind]
      cases own : root.anchor with
      | relative => exact absurd own anchored
      | root => exact absurd (kind.trans own.symm) other
      | doubleRoot =>
          simp [text_of_anchored anchored, text_of_anchored anchored', own, kind, Anchor.text,
            not_prefix_of_head headless']
  | doubleRoot =>
      have anchored' : p.anchor ≠ .relative := by simp [kind]
      cases own : root.anchor with
      | relative => exact absurd own anchored
      | doubleRoot => exact absurd (kind.trans own.symm) other
      | root =>
          simp [text_of_anchored anchored, text_of_anchored anchored', own, kind, Anchor.text,
            prefix_cons_of_head headless, bare]

/-- Texts that begin with that of a root belong to paths at it, below it or beside it. -/
theorem text_prefix_iff {root p : Path} (absolute : root.isAbsolute = true) :
    root.text.toList <+: p.text.toList ↔ p.Within root ∨ p.Beside root := by
  have anchored := anchored_of_isAbsolute absolute
  by_cases same : p.anchor = root.anchor
  case pos =>
    rw [text_of_anchored anchored, text_of_anchored (same ▸ anchored), same, String.toList_append,
      String.toList_append, List.prefix_append_right_inj, joined_prefix_iff root.proper p.proper]
    refine or_congr ⟨fun before => ⟨same, before⟩, And.right⟩ ⟨.overrun same, ?_⟩
    rintro (⟨-, overruns⟩ | ⟨single, -, double⟩)
    · exact overruns
    · cases single.symm.trans (same.symm.trans double)
  case neg =>
    have outside : ¬p.Within root := fun within => same within.1
    rw [or_iff_right outside, text_prefix_iff_of_ne_anchor absolute same]
    refine ⟨fun ⟨single, top, double⟩ => .doubled single top double, ?_⟩
    rintro (⟨anchor, -⟩ | ⟨single, top, double⟩)
    · exact absurd anchor same
    · exact ⟨single, top, double⟩

theorem Beside.not_within {root p : Path} (beside : p.Beside root) : ¬p.Within root := by
  rintro ⟨anchor, before⟩
  rcases beside with ⟨-, overruns⟩ | ⟨single, -, double⟩
  · exact overruns.not_prefix before
  · cases single.symm.trans (anchor.symm.trans double)

end Path

/-! ## Taking the root off -/

namespace Report

/-- What is taken off together with the root. -/
def isSeparator (c : Char) : Bool := c = '/' || c = '\\'

/-- Of what a path goes on with behind the root, this is shown. -/
def shownBehind (path : String) (behind : List Char) : String :=
  if (behind.dropWhile isSeparator).isEmpty then path
  else String.ofList (behind.dropWhile isSeparator)

theorem displayPath_eq (path root : String) :
    displayPath path (some root) = if root.toList <+: path.toList then
      shownBehind path (path.toList.drop root.length) else path := by
  simp only [displayPath, Text.startsWith, List.isPrefixOf_iff_prefix]
  rfl

theorem isSeparator_iff {c : Char} : isSeparator c = true ↔ c = '/' ∨ c = '\\' := by
  simp [isSeparator]

variable {root p q : Path}

theorem displayPath_below (absolute : root.isAbsolute = true) (within : p.Within root)
    (apart : p ≠ root) : displayPath p.text (some root.text) =
      shownBehind p.text (Path.joined (root.beyond p)).toList := by
  have starts := (Path.text_prefix_iff absolute).mpr (.inl within)
  have behind : p.text.toList.drop root.text.length =
      (if root.parts = [] then "" else "/").toList ++ (Path.joined (root.beyond p)).toList := by
    rw [within.text_eq absolute (within.beyond_ne_nil apart), String.toList_append,
      String.toList_append, List.append_assoc, ← String.length_toList, List.drop_left]
  have separating : ∀ c ∈ (if root.parts = [] then "" else "/").toList, isSeparator c = true := by
    split <;> simp [isSeparator]
  rw [displayPath_eq, if_pos starts, behind, shownBehind, shownBehind,
    List.dropWhile_append_of_pos separating]

theorem shownBehind_eq_self_iff {path : String} (behind : List Char)
    (longer : behind.length < path.length) :
    shownBehind path behind = path ↔ ∀ c ∈ behind, isSeparator c = true := by
  rw [← List.dropWhile_eq_nil_iff, shownBehind]
  constructor
  · intro whole
    by_contra some
    rw [if_neg (by simpa using some)] at whole
    have shorter := List.length_dropWhile_le (p := isSeparator) behind
    rw [← whole, String.length_ofList] at longer
    omega
  · intro none
    rw [if_pos (by simp [none])]

/-- A text that goes on behind the root is shown as it is unless it begins with a separator. -/
theorem shownBehind_eq_iff {path below : String} (nonempty : below ≠ "")
    (unlike : path.toList.head? ≠ below.toList.head?) :
    shownBehind path below.toList = below ↔
      ∀ c, below.toList.head? = some c → isSeparator c = false := by
  have apart : path ≠ below := fun same => unlike (by rw [same])
  have some : below.toList ≠ [] := by simpa using nonempty
  obtain ⟨first, rest, spelled⟩ := List.exists_cons_of_ne_nil some
  simp only [shownBehind, spelled, List.head?_cons, Option.some.injEq, forall_eq']
  by_cases separates : isSeparator first = true
  · rw [separates, List.dropWhile_cons_of_pos separates]
    refine iff_of_false (fun shown => ?_) (by simp)
    split at shown
    · exact apart shown
    · -- What is left begins with another character than a separator.
      have left : rest.dropWhile isSeparator = first :: rest := by
        rw [← spelled, ← shown, String.toList_ofList]
      have inside := List.head?_dropWhile_not isSeparator rest
      simp [left, separates] at inside
  · rw [List.dropWhile_cons_of_neg separates]
    refine iff_of_true ?_ (by simpa using separates)
    rw [if_neg (by simp), ← spelled, String.ofList_toList]

/-- What is shown is not the path as it reads from the root: the first name below the root begins
    with a backslash, or a path beside the root goes on with other characters than separators. -/
inductive Garbled (p root : Path) : Prop where
  | clipped (within : p.Within root)
      (backslash : (Path.joined (root.beyond p)).toList.head? = some '\\')
  | cut (beside : p.Beside root)
      (more : ∃ c ∈ p.text.toList.drop root.text.length, isSeparator c = false)

theorem displayPath_eq_joined_iff (absolute : root.isAbsolute = true) (within : p.Within root)
    (apart : p ≠ root) :
    displayPath p.text (some root.text) = Path.joined (root.beyond p) ↔ ¬Garbled p root := by
  have deep := within.beyond_ne_nil apart
  have nonempty : Path.joined (root.beyond p) ≠ "" := fun empty =>
    deep ((Path.joined_eq_empty_iff (root.proper_beyond p)).mp empty)
  have headless := Path.head_joined_ne_slash (root.proper_beyond p)
  have unlike : p.text.toList.head? ≠ (Path.joined (root.beyond p)).toList.head? := by
    rw [Path.head_text_absolute (within.isAbsolute absolute)]
    exact headless.symm
  rw [displayPath_below absolute within apart, shownBehind_eq_iff nonempty unlike]
  constructor
  · rintro plain (⟨-, backslash⟩ | ⟨beside, -⟩)
    · exact absurd (plain _ backslash) (by decide)
    · exact beside.not_within within
  · intro sound c starts
    refine Bool.eq_false_iff.mpr fun separates => ?_
    rcases isSeparator_iff.mp separates with rfl | rfl
    · exact headless starts
    · exact sound (.clipped within starts)

theorem displayPath_eq_self_iff (absolute : root.isAbsolute = true) (outside : ¬p.Within root) :
    displayPath p.text (some root.text) = p.text ↔ ¬Garbled p root := by
  rw [displayPath_eq]
  split
  case isTrue starts =>
    have beside : p.Beside root := ((Path.text_prefix_iff absolute).mp starts).resolve_left outside
    have longer : (p.text.toList.drop root.text.length).length < p.text.length := by
      have top := Path.head_text_absolute absolute
      have some : root.text.length ≠ 0 := by
        rw [← String.length_toList]
        intro none
        rw [List.length_eq_zero_iff.mp none] at top
        cases top
      have covered := starts.length_le
      simp only [List.length_drop, String.length_toList] at covered ⊢
      omega
    rw [shownBehind_eq_self_iff _ longer]
    constructor
    · rintro separators (⟨within, -⟩ | ⟨-, c, member, more⟩)
      · exact outside within
      · exact absurd (separators c member) (by simp [more])
    · intro sound c member
      by_contra more
      exact sound (.cut beside ⟨c, member, by simpa using more⟩)
  case isFalse other =>
    refine iff_of_true rfl ?_
    rintro (⟨within, -⟩ | ⟨beside, -⟩)
    · exact outside within
    · exact other ((Path.text_prefix_iff absolute).mpr (.inr beside))

theorem displayPath_root (root : String) : displayPath root (some root) = root := by
  have behind : root.toList.drop root.length = [] := by
    rw [← String.length_toList, List.drop_length]
  simp [displayPath_eq, shownBehind, behind]

/-- Two absolute paths that are not garbled are not shown alike: what is shown of a path below the
    root begins with no slash. -/
theorem eq_of_displayPath_eq (absolute : root.isAbsolute = true) (absolute₁ : p.isAbsolute = true)
    (absolute₂ : q.isAbsolute = true) (sound₁ : ¬Garbled p root) (sound₂ : ¬Garbled q root)
    (same : displayPath p.text (some root.text) = displayPath q.text (some root.text)) : p = q := by
  have shown : ∀ r : Path, ¬Garbled r root → r.Within root ∧
      displayPath r.text (some root.text) = Path.joined (root.beyond r) ∨
        displayPath r.text (some root.text) = r.text := by
    intro r sound
    by_cases here : r = root
    · exact .inr (here ▸ displayPath_root root.text)
    by_cases within : r.Within root
    · exact .inl ⟨within, (displayPath_eq_joined_iff absolute within here).mpr sound⟩
    · exact .inr ((displayPath_eq_self_iff absolute within).mpr sound)
  have unlike : ∀ r s : Path, s.isAbsolute = true → Path.joined (root.beyond r) ≠ s.text := by
    intro r s absolute' spelled
    refine Path.head_joined_ne_slash (root.proper_beyond r) ?_
    rw [spelled, Path.head_text_absolute absolute']
  rcases shown p sound₁ with ⟨within₁, shown₁⟩ | shown₁ <;>
    rcases shown q sound₂ with ⟨within₂, shown₂⟩ | shown₂ <;> rw [shown₁, shown₂] at same
  · exact within₁.eq_of_beyond within₂
      (Path.joined_injective (root.proper_beyond p) (root.proper_beyond q) same)
  · exact absurd same (unlike p q absolute₂)
  · exact absurd same.symm (unlike q p absolute₁)
  · exact Path.text_injective same

/-- How a report with a root shows paths: one below the root as it reads from the root and any other
    whole, but for the garbled ones, and no two alike that are not garbled. -/
structure Shows (root : Path) : Prop where
  below : ∀ p : Path, p.Within root → p ≠ root → ∃ below, p.relativeTo? root = some below ∧
    (displayPath p.text (some root.text) = below.text ↔ ¬Garbled p root)
  outside : ∀ p : Path, p.relativeTo? root = none →
    (displayPath p.text (some root.text) = p.text ↔ ¬Garbled p root)
  apart : ∀ p q : Path, p.isAbsolute = true → q.isAbsolute = true → ¬Garbled p root →
    ¬Garbled q root →
    displayPath p.text (some root.text) = displayPath q.text (some root.text) → p = q

/-- Under an absolute root paths are shown as they read from it, each in its own way, with the
    exception of the garbled ones. -/
theorem shows_of_absolute (absolute : root.isAbsolute = true) : Shows root where
  below p within apart := by
    obtain ⟨below, relative, spelled⟩ := within.exists_relative (within.beyond_ne_nil apart)
    exact ⟨below, relative, spelled ▸ displayPath_eq_joined_iff absolute within apart⟩
  outside p unrelated := by
    refine displayPath_eq_self_iff absolute fun within => ?_
    rw [Path.relativeTo?_of_within within] at unrelated
    cases unrelated
  apart _ _ absolute₁ absolute₂ sound₁ sound₂ :=
    eq_of_displayPath_eq absolute absolute₁ absolute₂ sound₁ sound₂

/-- A nested file is shown from the root, and a file with an equal name elsewhere in full. -/
theorem shows_of_absolute_nested : (Path.parse "/r").isAbsolute = true ∧ Shows (Path.parse "/r") ∧
    displayPath "/r/a/b.ts" (some "/r") = "a/b.ts" ∧
      displayPath "/q/a/b.ts" (some "/r") = "/q/a/b.ts" :=
  ⟨by decide, shows_of_absolute (by decide), by decide, by decide⟩

/-- Two files below the root are shown alike, because one of their names begins with a backslash,
    and a file beside the root is shown by half of its folder's name. -/
theorem displayPath_confuses :
    (Path.parse "/r/\\a.ts").relativeTo? (Path.parse "/r") = some (Path.parse "\\a.ts") ∧
      displayPath "/r/\\a.ts" (some "/r") = "a.ts" ∧ displayPath "/r/a.ts" (some "/r") = "a.ts" ∧
    (Path.parse "/rs/y.ts").relativeTo? (Path.parse "/r") = none ∧
      displayPath "/rs/y.ts" (some "/r") = "s/y.ts" := by
  decide

end Report

end RepoAtlas
