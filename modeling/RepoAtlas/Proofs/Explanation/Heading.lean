import Mathlib
import RepoAtlas.Explanation.Heading
import RepoAtlas.Proofs.Text

/-! # Reading a heading

A title in any mix of small and capital letters, behind the marks of a list, is read as the heading
that it is. A line that is no heading by itself does not become one by what follows it, as long as
the next line that says something is a heading of its own: the only mark that a spelling could take
from there is the 5, and no heading ends behind it.
-/

namespace RepoAtlas.Explanation

/-! ## Letters -/

section Letters

variable {c small : Char}

theorem isLeadMark_iff :
    isLeadMark c = true ↔ c ∈ " \t#>*-.)".toList ∨ (Text.digit? c).isSome = true := by
  rw [isLeadMark, Bool.or_eq_true, List.contains_iff_mem]

theorem isTrailMark_iff : isTrailMark c = true ↔ c ∈ " \t*#".toList := List.contains_iff_mem

theorem isAlpha_of_isLeadMark (lead : isLeadMark c = true) : c.isAlpha = false := by
  refine Bool.eq_false_iff.mpr fun alpha => ?_
  have range := Text.alpha_range alpha
  rcases isLeadMark_iff.mp lead with inside | digit
  · have below : (" \t#>*-.)".toList.all (·.toNat < 65)) = true := by decide
    have := of_decide_eq_true (List.all_eq_true.mp below c inside)
    omega
  · have plain : c.isDigit = false := by
      simp only [Char.isDigit, Bool.and_eq_false_iff, decide_eq_false_iff_not,
        UInt32.le_iff_toNat_le]
      right
      show ¬ c.toNat ≤ 57
      omega
    have ascii : c.toNat < 128 := by omega
    simp [Text.digit?, plain, ascii] at digit

theorem isLeadMark_of_isAlpha (alpha : c.isAlpha = true) : isLeadMark c = false :=
  Bool.eq_false_iff.mpr fun lead => Bool.false_ne_true ((isAlpha_of_isLeadMark lead).symm.trans alpha)

theorem isLeadMark_of_isTrailMark (trail : isTrailMark c = true) : isLeadMark c = true := by
  have among : (" \t*#".toList.all isLeadMark) = true := by decide
  exact List.all_eq_true.mp among c (isTrailMark_iff.mp trail)

/-- Three characters behind ASCII fold to a letter. -/
theorem foldsTo_cases (folds : foldsTo c small = true) :
    c = small ∨ c.toLower = small ∨ c = 'İ' ∨ c = 'ı' ∨ c = '\u212A' := by
  simp only [foldsTo, Bool.or_eq_true, Bool.and_eq_true, decide_eq_true_eq] at folds
  rcases folds with ((same | lower) | ⟨-, dotted | dotless⟩) | ⟨-, kelvin⟩
  · exact .inl same
  · exact .inr (.inl lower)
  · exact .inr (.inr (.inl dotted))
  · exact .inr (.inr (.inr (.inl dotless)))
  · exact .inr (.inr (.inr (.inr kelvin)))

theorem foldsTo_toLower (c : Char) : foldsTo c c.toLower = true := by
  simp [foldsTo]

theorem eq_of_foldsTo_of_isLeadMark (lead : isLeadMark c = true) (folds : foldsTo c small = true) :
    c = small := by
  rcases foldsTo_cases folds with same | lower | rfl | rfl | rfl
  · exact same
  · rwa [Text.toLower_of_not_isAlpha (isAlpha_of_isLeadMark lead)] at lower
  all_goals exact absurd lead (by decide)

theorem toLower_of_foldsTo_of_isAlpha (alpha : c.isAlpha = true) (folds : foldsTo c small = true) :
    c.toLower = small.toLower := by
  rcases foldsTo_cases folds with rfl | rfl | rfl | rfl | rfl
  · rfl
  · rw [Char.toLower_toLower_eq_toLower]
  all_goals exact absurd alpha (by decide)

end Letters

/-! ## Spelling -/

section Spelling

variable {small c : Char} {marks : List Mark} {rest text after : List Char}

theorem spelled?_letter_cons :
    spelled? (.letter small :: marks) (c :: rest) =
      if foldsTo c small then (spelled? marks rest).map fun (text, after) => (c :: text, after)
      else none := by
  rw [spelled?]

theorem spelled?_letter (found : spelled? (.letter small :: marks) (c :: rest) = some (text, after)) :
    foldsTo c small = true ∧ ∃ more, spelled? marks rest = some (more, after) := by
  rw [spelled?_letter_cons] at found
  split at found
  case isTrue folds =>
    obtain ⟨⟨more, last⟩, read, same⟩ := Option.map_eq_some_iff.mp found
    obtain ⟨-, rfl⟩ := Prod.mk.inj same
    exact ⟨folds, more, read⟩
  case isFalse => exact absurd found (by simp)

theorem spelled?_gap (marks : List Mark) (cs : List Char) :
    spelled? (.gap :: marks) cs =
      if (cs.takeWhile Text.isBlank).isEmpty then none
      else (spelled? marks (cs.dropWhile Text.isBlank)).map
        fun (text, after) => (cs.takeWhile Text.isBlank ++ text, after) := by
  have behind : cs.drop (cs.takeWhile Text.isBlank).length = cs.dropWhile Text.isBlank := by
    conv => enter [1, 2]; rw [← List.takeWhile_append_dropWhile (p := Text.isBlank) (l := cs)]
    exact List.drop_left
  rw [spelled?, behind]

end Spelling

/-! ## Titles -/

/-- The character that a title in small letters has for a mark. -/
def Mark.plain : Mark → Char
  | .letter small => small
  | .gap => ' '
  | .apostrophe => '\''

/-- Every gap stands in front of a letter, so one space is all of it. -/
def spaced : List Mark → Bool
  | [] => true
  | .gap :: .letter small :: marks => !Text.isBlank small && spaced marks
  | .gap :: _ => false
  | _ :: marks => spaced marks

/-- Is the text spelled by the marks as a title is, perhaps with capital letters? -/
def Written (marks : List Mark) (text : List Char) : Prop :=
  text.map Char.toLower = marks.map Mark.plain

theorem written_cons {mark : Mark} {marks : List Mark} {text : List Char} :
    Written (mark :: marks) text ↔
      ∃ c more, text = c :: more ∧ c.toLower = mark.plain ∧ Written marks more := by
  simp only [Written, List.map_cons, List.map_eq_cons_iff]

theorem Written.read {marks : List Mark} {text : List Char} (ready : spaced marks = true)
    (written : Written marks text) (rest : List Char) :
    spelled? marks (text ++ rest) = some (text, rest) := by
  fun_induction spaced marks generalizing text with
  | case1 =>
      have empty : text = [] := by simpa [Written] using written
      rw [empty, spelled?, List.nil_append]
  | case2 small marks later =>
      obtain ⟨solid, readyTail⟩ := Bool.and_eq_true_iff.mp ready
      obtain ⟨space, text, rfl, spaceIs, writtenLetter⟩ := written_cons.mp written
      obtain ⟨c, more, rfl, rfl, writtenTail⟩ := written_cons.mp writtenLetter
      have one : space = ' ' := Text.eq_of_toLower spaceIs (by decide)
      have gap : (' ' :: c :: (more ++ rest)).takeWhile Text.isBlank = [' '] := by
        rw [Text.isBlank_toLower, Bool.not_eq_true'] at solid
        rw [List.takeWhile_cons_of_pos (by decide), List.takeWhile_cons_of_neg (by simp [solid])]
      rw [one, List.cons_append, List.cons_append, spelled?, gap]
      simp [spelled?_letter_cons, foldsTo_toLower, later readyTail writtenTail]
  | case3 => exact absurd ready Bool.false_ne_true
  | case4 mark marks _ notGap later =>
      obtain ⟨c, more, rfl, is, writtenTail⟩ := written_cons.mp written
      cases mark with
      | letter small =>
          rw [List.cons_append, spelled?_letter_cons, ← show c.toLower = small from is,
            if_pos (foldsTo_toLower c), later ready writtenTail, Option.map_some]
      | gap => exact absurd rfl notGap
      | apostrophe =>
          have one : c = '\'' := Text.eq_of_toLower is (by decide)
          rw [List.cons_append, spelled?, if_pos (by simp [one]), later ready writtenTail,
            Option.map_some]

/-- The first two letters of the spellings, which tell them apart. -/
def starts : List (Char × Char) := [('e', 'x'), ('e', 'l'), ('i', 'n'), ('t', 'e')]

theorem starts_isLower {a b : Char} (start : (a, b) ∈ starts) :
    a.isLower = true ∧ b.isLower = true := by
  have lower : (starts.all fun pair => pair.1.isLower && pair.2.isLower) = true := by decide
  exact Bool.and_eq_true_iff.mp (List.all_eq_true.mp lower (a, b) start)

theorem isAlpha_of_start {c d : Char} (start : (c.toLower, d.toLower) ∈ starts) :
    c.isAlpha = true ∧ d.isAlpha = true := by
  obtain ⟨first, second⟩ := starts_isLower start
  rw [Char.isLower_toLower_eq_isAlpha] at first second
  exact ⟨first, second⟩

theorem exists_start {marks : List Mark} (member : marks ∈ spellings) :
    ∃ a b more, (a, b) ∈ starts ∧ marks = .letter a :: .letter b :: more := by
  simp only [spellings, List.mem_cons, List.not_mem_nil, or_false] at member
  rcases member with rfl | rfl | rfl | rfl
  · exact ⟨'e', 'x', _, by decide, rfl⟩
  · exact ⟨'e', 'l', _, by decide, rfl⟩
  · exact ⟨'i', 'n', _, by decide, rfl⟩
  · exact ⟨'t', 'e', _, by decide, rfl⟩

theorem eq_of_take_two {marks other : List Mark} (member : marks ∈ spellings)
    (also : other ∈ spellings) (same : other.take 2 = marks.take 2) : other = marks := by
  have apart : (spellings.all fun marks => spellings.all fun other =>
      other.take 2 ≠ marks.take 2 || other = marks) = true := by decide
  have pair := List.all_eq_true.mp (List.all_eq_true.mp apart marks member) other also
  simpa [same] using pair

theorem spaced_of_mem {marks : List Mark} (member : marks ∈ spellings) : spaced marks = true := by
  have all : spellings.all spaced = true := by decide
  exact List.all_eq_true.mp all marks member

/-! ## The end of a heading -/

theorem closed?_eq_none_iff {cs : List Char} :
    closed? cs = none ↔ ∃ c more, cs.dropWhile isTrailMark = c :: more ∧ c ≠ ':' ∧ c ≠ '\n' := by
  unfold closed?
  split
  case h_1 stops => simp [stops]
  case h_2 stops => simp [stops]
  case h_3 stops => simp [stops]
  case h_4 noColon noBreak notEmpty =>
    cases stops : cs.dropWhile isTrailMark with
    | nil => exact absurd stops notEmpty
    | cons c more =>
        refine iff_of_true rfl ⟨c, more, rfl, ?_, ?_⟩
        · rintro rfl
          exact noColon more stops
        · rintro rfl
          exact noBreak more stops

theorem closed?_append {cs : List Char} (rest : List Char) (other : closed? cs = none) :
    closed? (cs ++ rest) = none := by
  obtain ⟨c, more, stops, noColon, noBreak⟩ := closed?_eq_none_iff.mp other
  refine closed?_eq_none_iff.mpr ⟨c, more ++ rest, ?_, noColon, noBreak⟩
  rw [List.dropWhile_append, stops]
  rfl

theorem headingAt?_eq_none_iff {line : List Char} :
    headingAt? line = none ↔ ∀ marks ∈ spellings, ∀ text after,
      spelled? marks (line.dropWhile isLeadMark) = some (text, after) → closed? after = none := by
  rw [headingAt?, List.findSome?_eq_none_iff]
  refine forall₂_congr fun marks member => ?_
  cases read : spelled? marks (line.dropWhile isLeadMark) with
  | none => simp
  | some parts =>
      obtain ⟨text, after⟩ := parts
      simp

/-- The heading of a line that one spelling reads and no other does. -/
theorem headingAt?_of_unique {line heading after rest : List Char} {marks : List Mark}
    (member : marks ∈ spellings)
    (read : spelled? marks (line.dropWhile isLeadMark) = some (heading, after))
    (unique : ∀ other ∈ spellings, ∀ parts,
      spelled? other (line.dropWhile isLeadMark) = some parts → other = marks)
    (closed : closed? after = some rest) : headingAt? line = some (heading, rest) := by
  cases found : headingAt? line with
  | none =>
      have missed := headingAt?_eq_none_iff.mp found marks member heading after read
      cases missed.symm.trans closed
  | some pair =>
      obtain ⟨other, also, fits⟩ := List.exists_of_findSome?_eq_some found
      cases readOther : spelled? other (line.dropWhile isLeadMark) with
      | none => simp [readOther] at fits
      | some parts =>
          rw [unique other also parts readOther, read] at fits
          simpa [closed] using fits.symm

/-! ## Titled lines -/

section Titled

variable {marks : List Mark} {heading : List Char} (member : marks ∈ spellings)
  (written : Written marks heading)

include member written

theorem Written.start :
    ∃ c d more others, heading = c :: d :: more ∧
      marks = .letter c.toLower :: .letter d.toLower :: others ∧ (c.toLower, d.toLower) ∈ starts := by
  obtain ⟨a, b, others, start, rfl⟩ := exists_start member
  obtain ⟨c, tail, rfl, rfl, writtenTail⟩ := written_cons.mp written
  obtain ⟨d, more, rfl, rfl, -⟩ := written_cons.mp writtenTail
  exact ⟨c, d, more, others, rfl, rfl, start⟩

/-- A title ends in a letter or in the 5. -/
theorem Written.last : heading.getLast?.all (!Text.isBlank ·) = true := by
  have plain : (spellings.all fun marks => (marks.map Mark.plain).getLast?.all (!Text.isBlank ·)) =
      true := by decide
  have ending := List.all_eq_true.mp plain marks member
  rw [← written, List.getLast?_map] at ending
  cases final : heading.getLast? with
  | none => rfl
  | some c =>
      rwa [final, Option.map_some, Option.all_some, Text.isBlank_toLower] at ending

/-- No other spelling fits a title. -/
theorem Written.unique {other : List Mark} (also : other ∈ spellings) {rest : List Char}
    {found : List Char × List Char} (read : spelled? other (heading ++ rest) = some found) :
    other = marks := by
  refine eq_of_take_two member also ?_
  obtain ⟨c, d, more, others, rfl, rfl, start⟩ := written.start member
  obtain ⟨a, b, tail, start', rfl⟩ := exists_start also
  obtain ⟨first, _, read⟩ := spelled?_letter read
  obtain ⟨second, -⟩ := spelled?_letter read
  have small := starts_isLower start'
  rw [List.take_succ_cons, List.take_succ_cons,
    toLower_of_foldsTo_of_isAlpha (isAlpha_of_start start).1 first,
    toLower_of_foldsTo_of_isAlpha (isAlpha_of_start start).2 second,
    Char.toLower_eq_of_not_isUpper (Char.not_isUpper_of_isLower small.1),
    Char.toLower_eq_of_not_isUpper (Char.not_isUpper_of_isLower small.2)]
  rfl

theorem Written.dropWhile_isLeadMark {lead : List Char} (leads : ∀ c ∈ lead, isLeadMark c = true)
    (rest : List Char) : (lead ++ (heading ++ rest)).dropWhile isLeadMark = heading ++ rest := by
  obtain ⟨c, d, more, others, rfl, rfl, start⟩ := written.start member
  rw [List.dropWhile_append_of_pos leads, List.cons_append, List.dropWhile_cons_of_neg]
  simp [isLeadMark_of_isAlpha (isAlpha_of_start start).1]

theorem Written.dropWhile_isBlank (lead rest : List Char) :
    (lead ++ (heading ++ rest)).dropWhile Text.isBlank =
      lead.dropWhile Text.isBlank ++ (heading ++ rest) := by
  obtain ⟨c, d, more, others, rfl, rfl, start⟩ := written.start member
  have inked := Text.isBlank_of_isAlpha (isAlpha_of_start start).1
  rw [List.dropWhile_append]
  split
  case isTrue empty =>
    rw [List.isEmpty_iff.mp empty, List.cons_append, List.dropWhile_cons_of_neg (by simp [inked]),
      List.nil_append]
  case isFalse => rfl

/-- A title behind list marks is the heading of its line. -/
theorem Written.headingAt?_eq {lead rest r : List Char} (leads : ∀ c ∈ lead, isLeadMark c = true)
    (closed : closed? rest = some r) :
    headingAt? (lead ++ (heading ++ rest)) = some (heading, r) := by
  have bare := written.dropWhile_isLeadMark member leads rest
  have read := written.read (spaced_of_mem member) rest
  rw [← bare] at read
  refine headingAt?_of_unique member read (fun other also parts readOther => ?_) closed
  rw [bare] at readOther
  exact written.unique member also readOther

/-- No heading ends in front of list marks and a title. -/
theorem Written.closed?_eq_none {lead : List Char} (leads : ∀ c ∈ lead, isLeadMark c = true)
    (rest : List Char) : closed? (lead ++ (heading ++ rest)) = none := by
  rw [closed?_eq_none_iff, List.dropWhile_append]
  cases stops : lead.dropWhile isTrailMark with
  | nil =>
      obtain ⟨c, d, more, others, rfl, rfl, start⟩ := written.start member
      have alpha := (isAlpha_of_start start).1
      have ends : ¬ isTrailMark c = true := fun trail =>
        Bool.false_ne_true ((isLeadMark_of_isAlpha alpha).symm.trans (isLeadMark_of_isTrailMark trail))
      refine ⟨c, d :: more ++ rest, List.dropWhile_cons_of_neg ends, ?_, ?_⟩
      all_goals
        rintro rfl
        exact absurd alpha (by decide)
  | cons c more =>
      have lead : isLeadMark c = true :=
        leads c ((List.dropWhile_sublist isTrailMark).subset (stops ▸ List.mem_cons_self))
      refine ⟨c, more ++ (heading ++ rest), rfl, ?_, ?_⟩
      all_goals
        rintro rfl
        exact absurd lead (by decide)

end Titled

/-! ## Lines in front of a heading -/

/-- Can the marks be read from a line feed on? -/
def startsLine : List Mark → Bool
  | .letter small :: _ => small = '\n'
  | .apostrophe :: marks => startsLine marks
  | .gap :: _ => true
  | [] => true

theorem startsLine_of_spelled? {marks : List Mark} {cs : List Char} {found : List Char × List Char}
    (read : spelled? marks ('\n' :: cs) = some found) : startsLine marks = true := by
  fun_induction startsLine marks with
  | case1 small marks =>
      have folds := (spelled?_letter read).1
      simpa [foldsTo, eq_comm] using folds
  | case2 marks later =>
      rw [spelled?, if_neg (by decide)] at read
      exact later read
  | case3 => rfl
  | case4 => rfl

/-- Marks that no title starts with: either the 5 alone, or two letters that start no title, perhaps
    with an apostrophe between them. -/
def foreign : List Mark → Bool
  | [.letter small] => small = '5'
  | .letter a :: .letter b :: _ => a.isLower && b.isLower && !starts.contains (a, b)
  | .letter a :: .apostrophe :: .letter b :: _ => a.isLower && b.isLower && !starts.contains (a, b)
  | _ => false

/-- A tail of a spelling that can be read from a line feed on is a gap and marks that no title
    starts with. -/
theorem foreign_of_startsLine {marks m : List Mark} (member : marks ∈ spellings) (tail : m <:+ marks)
    (nonempty : m ≠ []) (start : startsLine m = true) :
    ∃ next, m = .gap :: next ∧ foreign next = true := by
  have all : (spellings.all fun marks => marks.tails.all fun m =>
      match m with
      | [] => true
      | .gap :: next => foreign next
      | m => !startsLine m) = true := by decide
  have here := List.all_eq_true.mp (List.all_eq_true.mp all marks member) m
    ((List.mem_tails m marks).mpr tail)
  split at here
  case h_1 => exact absurd rfl nonempty
  case h_2 next => exact ⟨next, rfl, here⟩
  case h_3 => simp [start] at here

section Crossing

variable {marks next : List Mark} {lead heading rest text after : List Char}

/-- A letter is not read among list marks, so it is read behind them only if there are none. -/
theorem spelled?_letter_of_leads {a c : Char} (small : a.isLower = true) (alpha : c.isAlpha = true)
    (leads : ∀ c ∈ lead, isLeadMark c = true)
    (read : spelled? (.letter a :: next) (lead ++ c :: rest) = some (text, after)) :
    lead = [] ∧ c.toLower = a ∧ ∃ more, spelled? next rest = some (more, after) := by
  have same : a.toLower = a := Char.toLower_eq_of_not_isUpper (Char.not_isUpper_of_isLower small)
  cases lead with
  | nil =>
      obtain ⟨folds, more, read⟩ := spelled?_letter read
      exact ⟨rfl, (toLower_of_foldsTo_of_isAlpha alpha folds).trans same, more, read⟩
  | cons mark lead =>
      have first := leads mark List.mem_cons_self
      obtain rfl := eq_of_foldsTo_of_isLeadMark first (spelled?_letter read).1
      rw [isLeadMark_of_isAlpha (by rw [Char.isAlpha, small, Bool.or_true])] at first
      exact absurd first Bool.false_ne_true

/-- What no title starts with is read in front of a title as a 5 of its list marks at most. -/
theorem closed?_of_foreign (member : marks ∈ spellings) (written : Written marks heading)
    (leads : ∀ c ∈ lead, isLeadMark c = true) (other : foreign next = true)
    (read : spelled? next (lead ++ (heading ++ rest)) = some (text, after)) :
    closed? after = none := by
  obtain ⟨c, d, more, others, spelled, shape, start⟩ := written.start member
  have alpha := isAlpha_of_start start
  fun_cases foreign next with
  | case1 small =>
      obtain rfl : small = '5' := of_decide_eq_true other
      cases lead with
      | nil =>
          rw [spelled] at read
          have folds := toLower_of_foldsTo_of_isAlpha alpha.1 (spelled?_letter read).1
          have letter := (starts_isLower start).1
          rw [folds] at letter
          exact absurd letter (by decide)
      | cons mark lead =>
          obtain ⟨-, inner, read⟩ := spelled?_letter read
          obtain ⟨-, rfl⟩ : [] = inner ∧ lead ++ (heading ++ rest) = after := by
            simpa [spelled?] using read
          exact written.closed?_eq_none member
            (fun c inside => leads c (List.mem_cons_of_mem mark inside)) rest
  | case2 a b later =>
      -- The title's own two letters would have to start no title.
      obtain ⟨smallA, smallB, apart⟩ :
          a.isLower = true ∧ b.isLower = true ∧ (a, b) ∉ starts := by
        simpa [foreign, and_assoc] using other
      rw [spelled, List.cons_append, List.cons_append] at read
      obtain ⟨-, rfl, _, readB⟩ := spelled?_letter_of_leads smallA alpha.1 leads read
      obtain ⟨-, rfl, -⟩ := spelled?_letter_of_leads smallB alpha.2 (List.forall_mem_nil _) readB
      exact absurd start apart
  | case3 a b later =>
      obtain ⟨smallA, smallB, apart⟩ :
          a.isLower = true ∧ b.isLower = true ∧ (a, b) ∉ starts := by
        simpa [foreign, and_assoc] using other
      rw [spelled, List.cons_append, List.cons_append] at read
      obtain ⟨-, rfl, _, readB⟩ := spelled?_letter_of_leads smallA alpha.1 leads read
      have letter : ¬ (d = '\'' || d = '’') = true := by
        rw [Bool.or_eq_true, decide_eq_true_eq, decide_eq_true_eq]
        rintro (rfl | rfl)
        all_goals exact absurd alpha.2 (by decide)
      rw [spelled?, if_neg letter] at readB
      obtain ⟨-, rfl, -⟩ := spelled?_letter_of_leads smallB alpha.2 (List.forall_mem_nil _) readB
      exact absurd start apart
  | case4 =>
      unfold foreign at other
      split at other <;> simp_all

/-- A reading of a text and of more behind it ends inside the text, or marks that are left at its end
    are read from the start of what is behind it. -/
def Splits (marks : List Mark) (cs rest text after : List Char) : Prop :=
  (∃ inner, spelled? marks cs = some (text, inner) ∧ after = inner ++ rest) ∨
    ∃ m, m ≠ [] ∧ m <:+ marks ∧ ∃ more, spelled? m rest = some (more, after)

theorem Splits.cons {mark : Mark} {cs tail : List Char} {grow : List Char → List Char}
    (splits : Splits marks tail rest text after)
    (step : spelled? (mark :: marks) cs =
      (spelled? marks tail).map fun found => (grow found.1, found.2)) :
    Splits (mark :: marks) cs rest (grow text) after := by
  rcases splits with ⟨inner, found, split⟩ | ⟨m, nonempty, left, crosses⟩
  · exact .inl ⟨inner, by rw [step, found, Option.map_some], split⟩
  · exact .inr ⟨m, nonempty, left.trans (List.suffix_cons mark marks), crosses⟩

theorem splits_of_spelled? {cs : List Char} (solid : cs.getLast?.all (!Text.isBlank ·) = true)
    (read : spelled? marks (cs ++ rest) = some (text, after)) : Splits marks cs rest text after := by
  induction marks generalizing cs text with
  | nil =>
      obtain ⟨rfl, rfl⟩ : [] = text ∧ cs ++ rest = after := by simpa [spelled?] using read
      exact .inl ⟨cs, by rw [spelled?], rfl⟩
  | cons mark marks later =>
      cases cs with
      | nil => exact .inr ⟨mark :: marks, by simp, List.suffix_refl _, text, read⟩
      | cons c cs =>
          have solidTail := Text.last_of_append [c] solid
          cases mark with
          | letter small =>
              rw [List.cons_append, spelled?_letter_cons] at read
              split at read
              case isFalse => exact absurd read (by simp)
              case isTrue folds =>
                obtain ⟨⟨more, last⟩, readTail, same⟩ := Option.map_eq_some_iff.mp read
                obtain ⟨rfl, rfl⟩ := Prod.mk.inj same
                exact (later solidTail readTail).cons (by rw [spelled?_letter_cons, if_pos folds])
          | gap =>
              have solidBehind : ((c :: cs).dropWhile Text.isBlank).getLast?.all (!Text.isBlank ·) =
                  true :=
                Text.last_of_append ((c :: cs).takeWhile Text.isBlank)
                  (by rwa [List.takeWhile_append_dropWhile])
              rw [spelled?_gap, Text.takeWhile_isBlank_append (by simp) solid,
                Text.dropWhile_isBlank_append (by simp) solid] at read
              split at read
              case isTrue => exact absurd read (by simp)
              case isFalse some =>
                obtain ⟨⟨more, last⟩, readTail, same⟩ := Option.map_eq_some_iff.mp read
                obtain ⟨rfl, rfl⟩ := Prod.mk.inj same
                exact (later solidBehind readTail).cons (by rw [spelled?_gap, if_neg some])
          | apostrophe =>
              rw [List.cons_append, spelled?] at read
              split at read
              case isTrue mark =>
                obtain ⟨⟨more, last⟩, readTail, same⟩ := Option.map_eq_some_iff.mp read
                obtain ⟨rfl, rfl⟩ := Prod.mk.inj same
                exact (later solidTail readTail).cons (by rw [spelled?, if_pos mark])
              case isFalse other =>
                -- The apostrophe is left out.
                have step : spelled? (.apostrophe :: marks) (c :: cs) =
                    (spelled? marks (c :: cs)).map fun found => (id found.1, found.2) := by
                  rw [spelled?, if_neg other]
                  exact (Option.map_id_apply).symm
                exact (later solid read).cons step

end Crossing

section Following

variable {marks : List Mark} {lead heading : List Char} (member : marks ∈ spellings)
  (written : Written marks heading) (leads : ∀ c ∈ lead, isLeadMark c = true)

theorem spelled?_lineFeed (member : marks ∈ spellings) (rest : List Char) :
    spelled? marks ('\n' :: rest) = none := by
  cases read : spelled? marks ('\n' :: rest) with
  | none => rfl
  | some parts =>
      obtain ⟨a, b, more, -, rfl⟩ := exists_start member
      obtain ⟨next, gap, -⟩ := foreign_of_startsLine member (List.suffix_refl _) (by simp)
        (startsLine_of_spelled? read)
      exact Mark.noConfusion (List.cons.inj gap).1

theorem headingAt?_lineFeed (rest : List Char) : headingAt? ('\n' :: rest) = none := by
  refine headingAt?_eq_none_iff.mpr fun marks member text after read => ?_
  rw [List.dropWhile_cons_of_neg (by decide), spelled?_lineFeed member] at read
  exact absurd read (by simp)

/-- Does a line that is no heading stay none in front of the text? -/
def Quiet (rest : List Char) : Prop :=
  ∀ line : List Char, line.getLast?.all (!Text.isBlank ·) = true →
    headingAt? line = none → headingAt? (line ++ rest) = none

theorem quiet_nil : Quiet [] := fun line _ plain => by rwa [List.append_nil]

include member written leads

/-- Line feeds and a heading make no heading of what stands in front of them. -/
theorem quiet_heading (breaks : Nat) (rest : List Char) :
    Quiet (List.replicate (breaks + 1) '\n' ++ (lead ++ (heading ++ rest))) := by
  intro line solid plain
  have gapBehind : (List.replicate (breaks + 1) '\n' ++ (lead ++ (heading ++ rest))).dropWhile
      Text.isBlank = lead.dropWhile Text.isBlank ++ (heading ++ rest) := by
    rw [List.dropWhile_append_of_pos, written.dropWhile_isBlank member]
    intro c inside
    rw [List.eq_of_mem_replicate inside]
    decide
  obtain ⟨more, feed⟩ : ∃ more,
      List.replicate (breaks + 1) '\n' ++ (lead ++ (heading ++ rest)) = '\n' :: more := ⟨_, rfl⟩
  rw [feed] at gapBehind ⊢
  refine headingAt?_eq_none_iff.mpr fun other also text after read => ?_
  rw [List.dropWhile_append] at read
  split at read
  case isTrue =>
    -- The line holds nothing but list marks.
    rw [List.dropWhile_cons_of_neg (by decide), spelled?_lineFeed also] at read
    exact absurd read (by simp)
  case isFalse =>
    -- A spelling ends inside the line, or one of its gaps is read from the line feeds.
    have solidTail : (line.dropWhile isLeadMark).getLast?.all (!Text.isBlank ·) = true :=
      Text.last_of_append (line.takeWhile isLeadMark)
        (by rwa [List.takeWhile_append_dropWhile])
    rcases splits_of_spelled? solidTail read with ⟨inner, alone, rfl⟩ | ⟨m, nonempty, tail, _, behind⟩
    · exact closed?_append _ (headingAt?_eq_none_iff.mp plain other also text inner alone)
    · obtain ⟨next, rfl, other⟩ :=
        foreign_of_startsLine also tail nonempty (startsLine_of_spelled? behind)
      rw [spelled?_gap, gapBehind] at behind
      split at behind
      case isTrue => exact absurd behind (by simp)
      case isFalse =>
        obtain ⟨⟨_, last⟩, readNext, same⟩ := Option.map_eq_some_iff.mp behind
        obtain ⟨-, rfl⟩ := Prod.mk.inj same
        exact closed?_of_foreign member written
          (fun c inside => leads c ((List.dropWhile_sublist _).subset inside)) other readNext

end Following

end RepoAtlas.Explanation
