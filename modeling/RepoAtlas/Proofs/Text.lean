import Mathlib
import RepoAtlas.Text.Blank
import RepoAtlas.Text.Lowercase

/-! # Blanks, lines and letters

A text with no blank at either end is what stripping leaves of it and of the blanks around it, and
only such a text is left alone. Lines that hold no line end of their own are found again in the text
that they make up. Text of ASCII is brought into lower case letter by letter.
-/

namespace RepoAtlas.Text

/-- Neither end of the text is a blank. -/
def Tight (s : String) : Prop := s.toList.head?.all (!isBlank ·) ∧ s.toList.getLast?.all (!isBlank ·)

instance (s : String) : Decidable (Tight s) :=
  inferInstanceAs (Decidable (s.toList.head?.all (!isBlank ·) ∧ s.toList.getLast?.all (!isBlank ·)))

theorem stripLeft_of_head {cs : List Char} (tight : cs.head?.all (!isBlank ·)) :
    stripLeft cs = cs := by
  cases cs with
  | nil => rfl
  | cons c rest =>
      have solid : isBlank c = false := by simpa using tight
      rw [stripLeft, List.dropWhile_cons_of_neg (by simp [solid])]

theorem last_of_append (init : List Char) {cs : List Char}
    (solid : (init ++ cs).getLast?.all (!isBlank ·) = true) : cs.getLast?.all (!isBlank ·) = true := by
  cases cs with
  | nil => rfl
  | cons c rest => rwa [List.getLast?_append_of_ne_nil init (by simp)] at solid

/-- Blanks at the start of a text that ends in none are not all of it. -/
theorem dropWhile_isBlank_append {cs : List Char} (nonempty : cs ≠ [])
    (solid : cs.getLast?.all (!isBlank ·) = true) (rest : List Char) :
    (cs ++ rest).dropWhile isBlank = cs.dropWhile isBlank ++ rest := by
  have last := List.getLast?_eq_some_getLast nonempty
  rw [List.dropWhile_append, if_neg]
  intro empty
  have blank := List.dropWhile_eq_nil_iff.mp (List.isEmpty_iff.mp empty) _ (List.getLast_mem nonempty)
  rw [last, Option.all_some, blank] at solid
  exact Bool.false_ne_true solid

theorem takeWhile_isBlank_append {cs : List Char} (nonempty : cs ≠ [])
    (solid : cs.getLast?.all (!isBlank ·) = true) (rest : List Char) :
    (cs ++ rest).takeWhile isBlank = cs.takeWhile isBlank := by
  have whole := List.takeWhile_append_dropWhile (p := isBlank) (l := cs ++ rest)
  rw [dropWhile_isBlank_append nonempty solid, ← List.append_assoc, List.append_left_inj] at whole
  exact List.append_cancel_right (whole.trans List.takeWhile_append_dropWhile.symm)

theorem stripRight_of_last {cs : List Char} (solid : cs.getLast?.all (!isBlank ·) = true) :
    stripRight cs = cs := by
  have ending : stripLeft cs.reverse = cs.reverse := stripLeft_of_head (by rwa [List.head?_reverse])
  rw [stripRight, ← stripLeft, ending, List.reverse_reverse]

theorem stripRight_append_blanks (cs : List Char) {after : List Char}
    (blank : ∀ c ∈ after, isBlank c = true) : stripRight (cs ++ after) = stripRight cs := by
  rw [stripRight, List.reverse_append,
    List.dropWhile_append_of_pos fun c inside => blank c (List.mem_reverse.mp inside), stripRight]

theorem stripRight_append {init : List Char} (solid : init.getLast?.all (!isBlank ·) = true)
    (cs : List Char) : stripRight (init ++ cs) = init ++ stripRight cs := by
  rw [stripRight, List.reverse_append, List.dropWhile_append]
  split
  case isTrue empty =>
    rw [← stripRight, stripRight_of_last solid, stripRight, List.isEmpty_iff.mp empty,
      List.reverse_nil, List.append_nil]
  case isFalse => rw [List.reverse_append, List.reverse_reverse, stripRight]

theorem solid_dropWhile (cs : List Char) : (cs.dropWhile isBlank).head?.all (!isBlank ·) = true := by
  have head := List.head?_dropWhile_not isBlank cs
  cases left : cs.dropWhile isBlank with
  | nil => rfl
  | cons c rest =>
      rw [left] at head
      simpa using head

theorem stripRight_prefix (cs : List Char) : stripRight cs <+: cs := by
  rw [stripRight, ← List.reverse_suffix, List.reverse_reverse]
  exact List.dropWhile_suffix isBlank

/-- Stripping leaves no blank at either end. -/
theorem tight_strip (s : String) : Tight (strip s) := by
  rw [Tight, strip, String.toList_ofList, stripped]
  constructor
  · have start := solid_dropWhile s.toList
    cases left : stripRight (stripLeft s.toList) with
    | nil => rfl
    | cons c rest =>
        obtain ⟨more, whole⟩ := stripRight_prefix (stripLeft s.toList)
        rw [left] at whole
        rwa [← stripLeft, ← whole] at start
  · rw [stripRight, List.getLast?_reverse]
    exact solid_dropWhile _

/-- Only a text with no blank at either end is left alone. -/
theorem tight_of_strip {s : String} (bare : strip s = s) : Tight s := bare ▸ tight_strip s

theorem strip_of_tight {s : String} (tight : Tight s) : strip s = s := by
  rw [strip, stripped, stripLeft_of_head tight.1, stripRight_of_last tight.2, String.ofList_toList]

/-- Only what stands between outer blanks is left. -/
theorem stripped_between {before after : List Char} (blankBefore : ∀ c ∈ before, isBlank c = true)
    (blankAfter : ∀ c ∈ after, isBlank c = true) (cs : List Char) :
    stripped (before ++ (cs ++ after)) = stripped cs := by
  rw [stripped, stripLeft, List.dropWhile_append_of_pos blankBefore, List.dropWhile_append]
  split
  · rename_i empty
    rw [List.dropWhile_eq_nil_iff.mpr blankAfter, stripped, stripLeft, List.isEmpty_iff.mp empty]
  · rw [stripRight_append_blanks _ blankAfter, stripped, stripLeft]

/-- Blanks around a text with none at its ends are all that is stripped. -/
theorem strip_between {before after : List Char} {s : String} (tight : Tight s)
    (blankBefore : ∀ c ∈ before, isBlank c = true) (blankAfter : ∀ c ∈ after, isBlank c = true) :
    strip (String.ofList (before ++ (s.toList ++ after))) = s := by
  rw [strip, String.toList_ofList, stripped_between blankBefore blankAfter, ← strip,
    strip_of_tight tight]

/-- Stripping leaves nothing of blanks only. -/
theorem isBlankText_of_strip {s : String} (empty : strip s = "") : isBlankText s = true := by
  rw [strip, String.ofList_eq_empty_iff, stripped, stripRight, List.reverse_eq_nil_iff,
    List.dropWhile_eq_nil_iff] at empty
  rw [isBlankText, List.all_eq_true, ← List.dropWhile_eq_nil_iff]
  have start := solid_dropWhile s.toList
  cases left : s.toList.dropWhile isBlank with
  | nil => rfl
  | cons c rest =>
      have blank : isBlank c = true := empty c (by simp [stripLeft, left])
      rw [left, List.head?_cons, Option.all_some, blank] at start
      exact absurd start Bool.false_ne_true

theorem strip_lineFeed {s : String} (tight : Tight s) : strip (s ++ "\n") = s := by
  have ended : String.ofList ([] ++ (s.toList ++ ['\n'])) = s ++ "\n" := by
    rw [List.nil_append, String.ofList_append, String.ofList_toList]
  rw [← ended]
  exact strip_between tight (List.forall_mem_nil _) (List.forall_mem_singleton.mpr (by decide))

/-- The text that lines make up, each with a line feed behind it. -/
def ofLines (ls : List String) : String := String.join (ls.map (· ++ "\n"))

theorem ofLines_cons (line : String) (rest : List String) :
    ofLines (line :: rest) = line ++ "\n" ++ ofLines rest := by
  rw [ofLines, List.map_cons, String.join_cons, ofLines]

theorem linesFrom_append {cs : List Char} (solid : ∀ c ∈ cs, isLineEnd c = false)
    (line rest : List Char) :
    linesFrom line (cs ++ '\n' :: rest) = (line.reverse ++ cs) :: linesFrom [] rest := by
  induction cs generalizing line with
  | nil => simp [linesFrom, isLineEnd]
  | cons c more ih =>
      have inner : isLineEnd c = false := solid c (by simp)
      have later : ∀ d ∈ more, isLineEnd d = false :=
        fun d member => solid d (List.mem_cons_of_mem c member)
      rw [List.cons_append, linesFrom]
      · simp [inner, ih later]
      · -- A carriage return would end a line.
        rintro tail rfl -
        exact absurd inner (by decide)

theorem lines_ofLines {ls : List String} (solid : ∀ line ∈ ls, ∀ c ∈ line.toList, isLineEnd c = false) :
    lines (ofLines ls) = ls := by
  induction ls with
  | nil => rfl
  | cons line rest ih =>
      have first := linesFrom_append (solid line (by simp)) [] (ofLines rest).toList
      have later := ih fun other member => solid other (List.mem_cons_of_mem line member)
      rw [lines] at later
      rw [ofLines_cons, lines, String.toList_append, String.toList_append,
        show "\n".toList = ['\n'] from rfl, List.append_assoc, List.singleton_append, first,
        List.map_cons, later]
      simp

/-! ## Letters -/

section Letters

variable {c small : Char}

theorem upper_range (upper : c.isUpper = true) : 65 ≤ c.toNat ∧ c.toNat ≤ 90 := by
  simpa [Char.isUpper, UInt32.le_iff_toNat_le] using upper

theorem lower_range (lower : c.isLower = true) : 97 ≤ c.toNat ∧ c.toNat ≤ 122 := by
  simpa [Char.isLower, UInt32.le_iff_toNat_le] using lower

theorem alpha_range (alpha : c.isAlpha = true) : 65 ≤ c.toNat ∧ c.toNat ≤ 122 := by
  rw [Char.isAlpha, Bool.or_eq_true] at alpha
  rcases alpha with upper | lower
  · have := upper_range upper
    omega
  · have := lower_range lower
    omega

theorem isBlank_of_isAlpha (alpha : c.isAlpha = true) : isBlank c = false := by
  refine Bool.eq_false_iff.mpr fun blank => ?_
  have range := alpha_range alpha
  simp only [isBlank, Bool.or_eq_true, Bool.and_eq_true, decide_eq_true_eq] at blank
  omega

theorem toLower_of_not_isAlpha (other : c.isAlpha = false) : c.toLower = c := by
  refine Char.toLower_eq_of_not_isUpper fun capital => ?_
  rw [Char.isAlpha, capital, Bool.true_or] at other
  exact Bool.false_ne_true other.symm

theorem eq_of_toLower (lower : c.toLower = small) (other : small.isLower = false) : c = small := by
  have noLetter : c.isAlpha = false := by rw [← Char.isLower_toLower_eq_isAlpha, lower, other]
  rw [← toLower_of_not_isAlpha noLetter, lower]

theorem isBlank_toLower (c : Char) : isBlank c.toLower = isBlank c := by
  cases alpha : c.isAlpha with
  | true =>
      rw [isBlank_of_isAlpha alpha, isBlank_of_isAlpha (by rwa [Char.isAlpha_toLower_eq_isAlpha])]
  | false => rw [toLower_of_not_isAlpha alpha]

theorem stripped_map_toLower (cs : List Char) :
    stripped (cs.map Char.toLower) = (stripped cs).map Char.toLower := by
  have same : isBlank ∘ Char.toLower = isBlank := funext isBlank_toLower
  rw [stripped, stripped, stripLeft, stripLeft, stripRight, stripRight, List.dropWhile_map, same,
    ← List.map_reverse, List.dropWhile_map, same, List.map_reverse]

theorem ascii_of_toLower (ascii : c.toLower.toNat < 128) : c.toNat < 128 := by
  by_cases upper : c.isUpper = true
  · have := upper_range upper
    omega
  · rwa [Char.toLower_eq_of_not_isUpper upper] at ascii

theorem lowerFrom_of_ascii {cs : List Char} (ascii : ∀ c ∈ cs, c.toNat < 128)
    (before : List Char) : lowerFrom before cs = cs.map Char.toLower := by
  induction cs generalizing before with
  | nil => rfl
  | cons c rest later =>
      have small : c.toNat < 128 := ascii c List.mem_cons_self
      have noDot : c ≠ 'İ' := by
        rintro rfl
        exact absurd small (by decide)
      have noSigma : c ≠ 'Σ' := by
        rintro rfl
        exact absurd small (by decide)
      rw [lowerFrom, if_neg noDot, if_neg noSigma, lowerChar, if_pos small,
        later fun d inside => ascii d (List.mem_cons_of_mem c inside)]
      rfl

/-- The small letters of a text that is a word of ASCII in any mix of letters. -/
theorem lower_of_letters {s : String} {word : List Char}
    (letters : s.toList.map Char.toLower = word) (ascii : word.all (·.toNat < 128) = true) :
    lower s = String.ofList word := by
  have small : ∀ c ∈ s.toList, c.toNat < 128 := fun c inside =>
    ascii_of_toLower (of_decide_eq_true
      (List.all_eq_true.mp ascii _ (letters ▸ List.mem_map_of_mem inside)))
  rw [lower, lowerFrom_of_ascii small, letters]

end Letters

end RepoAtlas.Text
