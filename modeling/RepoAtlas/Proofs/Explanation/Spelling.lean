import RepoAtlas.Proofs.Explanation.Tiers

/-! # Which lines are headings

A line is read as a heading exactly if it is made like one: marks of lists, a spelling in letters of
any case, marks of emphasis, and then a colon or the end of the line. What is read as the heading and
what is left behind it is determined by the line.
-/

namespace RepoAtlas.Explanation

/-! ## Folding -/

/-- The small letter that a character stands for. -/
def folded (c : Char) : Char :=
  if c = 'İ' ∨ c = 'ı' then 'i' else if c = '\u212A' then 'k' else c.toLower

/-- A small letter, or a character of ASCII that has none. -/
def isPlain (c : Char) : Bool := c.toNat < 128 && c.toLower = c

section Folding

variable {c small : Char}

theorem ne_of_ascii (ascii : c.toNat < 128) : c ≠ 'İ' ∧ c ≠ 'ı' ∧ c ≠ '\u212A' ∧ c ≠ 'Σ' := by
  refine ⟨?_, ?_, ?_, ?_⟩
  all_goals
    rintro rfl
    exact absurd ascii (by decide)

theorem folded_of_ascii (ascii : c.toNat < 128) : folded c = c.toLower := by
  obtain ⟨dotted, dotless, kelvin, -⟩ := ne_of_ascii ascii
  rw [folded, if_neg (by simp [dotted, dotless]), if_neg kelvin]

theorem isPlain_iff : isPlain c = true ↔ c.toNat < 128 ∧ c.toLower = c := by
  rw [isPlain, Bool.and_eq_true, decide_eq_true_eq, decide_eq_true_eq]

theorem foldsTo_iff (plain : isPlain small = true) : foldsTo c small = true ↔ folded c = small := by
  obtain ⟨ascii, lower⟩ := isPlain_iff.mp plain
  constructor
  · intro folds
    simp only [foldsTo, Bool.or_eq_true, Bool.and_eq_true, decide_eq_true_eq] at folds
    rcases folds with ((rfl | same) | ⟨rfl, rfl | rfl⟩) | ⟨rfl, rfl⟩
    · rw [folded_of_ascii ascii, lower]
    · subst same
      exact folded_of_ascii (Text.ascii_of_toLower ascii)
    all_goals decide
  · intro same
    subst same
    by_cases i : c = 'İ' ∨ c = 'ı'
    · rcases i with rfl | rfl <;> decide
    · by_cases k : c = '\u212A'
      · subst k
        decide
      · simp [foldsTo, folded, i, k]

theorem isBlank_folded (c : Char) : Text.isBlank (folded c) = Text.isBlank c := by
  by_cases i : c = 'İ' ∨ c = 'ı'
  · rcases i with rfl | rfl <;> decide
  · by_cases k : c = '\u212A'
    · subst k
      decide
    · rw [folded, if_neg i, if_neg k, Text.isBlank_toLower]

end Folding

/-! ## Spelling -/

/-- The text is spelled by marks. -/
inductive Spelt : List Mark → List Char → Prop
  | done : Spelt [] []
  | letter {small c : Char} {marks : List Mark} {text : List Char} (folds : foldsTo c small = true)
      (more : Spelt marks text) : Spelt (.letter small :: marks) (c :: text)
  | gap {blanks : List Char} {marks : List Mark} {text : List Char} (some_blank : blanks ≠ [])
      (blank : ∀ c ∈ blanks, Text.isBlank c = true) (more : Spelt marks text) :
      Spelt (.gap :: marks) (blanks ++ text)
  | apostrophe {c : Char} {marks : List Mark} {text : List Char} (quote : c = '\'' ∨ c = '’')
      (more : Spelt marks text) : Spelt (.apostrophe :: marks) (c :: text)
  | noApostrophe {marks : List Mark} {text : List Char} (more : Spelt marks text) :
      Spelt (.apostrophe :: marks) text

section Spelling

variable {marks : List Mark} {cs text after : List Char}

theorem spelt_of_spelled? (found : spelled? marks cs = some (text, after)) :
    Spelt marks text ∧ cs = text ++ after := by
  fun_induction spelled? marks cs generalizing text after with
  | case1 cs =>
      obtain ⟨rfl, rfl⟩ := Prod.mk.inj (Option.some.inj found)
      exact ⟨.done, rfl⟩
  | case2 small marks c rest folds ih =>
      obtain ⟨⟨more, last⟩, read, same⟩ := Option.map_eq_some_iff.mp found
      obtain ⟨rfl, rfl⟩ := Prod.mk.inj same
      obtain ⟨spelt, rfl⟩ := ih read
      exact ⟨.letter folds spelt, rfl⟩
  | case3 => exact absurd found (by simp)
  | case4 => exact absurd found (by simp)
  | case5 => exact absurd found (by simp)
  | case6 marks cs blanks some_blank =>
      rename_i ih
      obtain ⟨⟨more, last⟩, read, same⟩ := Option.map_eq_some_iff.mp found
      obtain ⟨rfl, rfl⟩ := Prod.mk.inj same
      obtain ⟨spelt, split⟩ := ih read
      refine ⟨.gap (by simpa using some_blank) (fun c inside => List.mem_takeWhile_imp inside) spelt, ?_⟩
      rw [List.append_assoc, ← split]
      exact (List.prefix_iff_eq_append.mp (List.takeWhile_prefix _)).symm
  | case7 marks c rest quote ih =>
      obtain ⟨⟨more, last⟩, read, same⟩ := Option.map_eq_some_iff.mp found
      obtain ⟨rfl, rfl⟩ := Prod.mk.inj same
      obtain ⟨spelt, rfl⟩ := ih read
      exact ⟨.apostrophe (by simpa using quote) spelt, rfl⟩
  | case8 marks c rest other ih =>
      obtain ⟨spelt, same⟩ := ih found
      exact ⟨.noApostrophe spelt, same⟩
  | case9 marks ih =>
      obtain ⟨spelt, same⟩ := ih found
      exact ⟨.noApostrophe spelt, same⟩

/-- A gap or an apostrophe stands in front of a letter that it cannot be taken for. -/
def firm : List Mark → Bool
  | [] => true
  | .letter _ :: marks => firm marks
  | .gap :: .letter small :: marks => isPlain small && !Text.isBlank small && firm marks
  | .apostrophe :: .letter small :: marks => isPlain small && small ≠ '\'' && firm marks
  | _ => false

theorem firm_of_mem (member : marks ∈ spellings) : firm marks = true := by
  have all : spellings.all firm = true := by decide
  exact List.all_eq_true.mp all marks member

theorem firm_tail {mark : Mark} (ready : firm (mark :: marks) = true) : firm marks = true := by
  cases mark with
  | letter small => exact ready
  | gap =>
      cases marks with
      | nil => exact absurd ready (by simp [firm])
      | cons next marks => cases next <;> simp_all [firm]
  | apostrophe =>
      cases marks with
      | nil => exact absurd ready (by simp [firm])
      | cons next marks => cases next <;> simp_all [firm]

/-- A spelling is read as far as it goes and no further. -/
theorem Spelt.read (ready : firm marks = true) (spelt : Spelt marks text) (rest : List Char) :
    spelled? marks (text ++ rest) = some (text, rest) := by
  induction spelt with
  | done => rw [spelled?, List.nil_append]
  | letter folds more ih =>
      rw [List.cons_append, spelled?_letter_cons, if_pos folds, ih (firm_tail ready), Option.map_some]
  | gap some_blank blank more ih =>
      have later := ih (firm_tail ready)
      cases more with
      | letter folds more =>
          obtain ⟨⟨plain, solid⟩, -⟩ :
              (isPlain _ = true ∧ (!Text.isBlank _) = true) ∧ firm _ = true := by
            simpa only [firm, Bool.and_eq_true] using ready
          rw [← (foldsTo_iff plain).mp folds, isBlank_folded, Bool.not_eq_true'] at solid
          rw [List.append_assoc, spelled?_gap, List.takeWhile_append_of_pos blank,
            List.dropWhile_append_of_pos blank]
          simp only [List.cons_append] at later ⊢
          rw [List.takeWhile_cons_of_neg (by simp [solid]), List.dropWhile_cons_of_neg (by simp [solid]),
            List.append_nil, if_neg (by simpa using some_blank), later]
          rfl
      | _ => exact absurd ready (by simp [firm])
  | apostrophe quote more ih =>
      rw [List.cons_append, spelled?, if_pos (by simpa using quote), ih (firm_tail ready),
        Option.map_some]
  | noApostrophe more ih =>
      have later := ih (firm_tail ready)
      cases more with
      | letter folds more =>
          obtain ⟨⟨plain, other⟩, -⟩ :
              (isPlain _ = true ∧ decide (_ ≠ '\'') = true) ∧ firm _ = true := by
            simpa only [firm, Bool.and_eq_true] using ready
          have is := (foldsTo_iff plain).mp folds
          rw [List.cons_append] at later ⊢
          rw [spelled?, if_neg, later]
          rw [Bool.or_eq_true, decide_eq_true_eq, decide_eq_true_eq]
          rintro (rfl | rfl)
          · exact absurd is.symm (of_decide_eq_true other)
          · rw [← is] at plain
            exact absurd plain (by decide)
      | _ => exact absurd ready (by simp [firm])

/-- The first two letters of a spelling are no marks of lists, and no other spelling has them. -/
theorem Spelt.start (member : marks ∈ spellings) (spelt : Spelt marks text) :
    ∃ c d more, text = c :: d :: more ∧ isLeadMark c = false ∧
      marks.take 2 = [.letter (folded c), .letter (folded d)] := by
  obtain ⟨a, b, others, start, rfl⟩ := exists_start member
  have plain : isPlain a = true ∧ isPlain b = true := by
    have all : (starts.all fun pair => isPlain pair.1 && isPlain pair.2) = true := by decide
    exact Bool.and_eq_true_iff.mp (List.all_eq_true.mp all (a, b) start)
  cases spelt with
  | letter foldsFirst more =>
      cases more with
      | letter foldsSecond more =>
          rename_i c d text
          refine ⟨c, d, text, rfl, ?_, ?_⟩
          · apply Bool.eq_false_iff.mpr
            intro lead
            have same := eq_of_foldsTo_of_isLeadMark lead foldsFirst
            have small := (starts_isLower start).1
            have letter := isAlpha_of_isLeadMark lead
            rw [same, Char.isAlpha, small, Bool.or_true] at letter
            exact Bool.noConfusion letter
          · rw [(foldsTo_iff plain.1).mp foldsFirst, (foldsTo_iff plain.2).mp foldsSecond]
            rfl

theorem Spelt.unique {other : List Mark} (member : marks ∈ spellings) (also : other ∈ spellings)
    (spelt : Spelt marks text) {rest : List Char} {found : List Char × List Char}
    (read : spelled? other (text ++ rest) = some found) : other = marks := by
  obtain ⟨spelt', split⟩ := spelt_of_spelled? read
  obtain ⟨c, d, more, rfl, -, here⟩ := spelt.start member
  obtain ⟨c', d', more', same', -, there⟩ := spelt'.start also
  rw [same'] at split
  obtain ⟨rfl, rfl⟩ : c = c' ∧ d = d' := by
    simp only [List.cons_append, List.cons.injEq] at split
    exact ⟨split.1, split.2.1⟩
  exact eq_of_take_two member also (there.trans here.symm)

end Spelling

/-! ## Headings of lines -/

/-- The end of a heading: a colon and marks, or the end of the line. -/
inductive Closes : List Char → List Char → Prop
  | colon {trail marks rest : List Char} (trails : ∀ c ∈ trail, isTrailMark c = true)
      (bodyMarks : ∀ c ∈ marks, isBodyMark c = true)
      (stops : rest.head?.all (!isBodyMark ·) = true) : Closes (trail ++ ':' :: marks) rest
  | line {trail rest : List Char} (trails : ∀ c ∈ trail, isTrailMark c = true)
      (stops : rest.head?.all (· = '\n') = true) : Closes trail rest

theorem dropWhile_append_of_stops {p : Char → Bool} {cs rest : List Char} (all : ∀ c ∈ cs, p c = true)
    (stops : rest.head?.all (!p ·) = true) : (cs ++ rest).dropWhile p = rest := by
  rw [List.dropWhile_append_of_pos all]
  cases rest with
  | nil => rfl
  | cons c rest => exact List.dropWhile_cons_of_neg (by simpa using stops)

theorem closed?_eq_some_iff {cs rest : List Char} :
    closed? cs = some rest ↔ ∃ closing, cs = closing ++ rest ∧ Closes closing rest := by
  constructor
  · intro closed
    have whole := List.takeWhile_append_dropWhile (p := isTrailMark) (l := cs)
    have trails : ∀ c ∈ cs.takeWhile isTrailMark, isTrailMark c = true :=
      fun c inside => List.mem_takeWhile_imp inside
    unfold closed? at closed
    split at closed
    case h_1 behind stop =>
      cases closed
      refine ⟨cs.takeWhile isTrailMark ++ ':' :: behind.takeWhile isBodyMark, ?_, ?_⟩
      · rw [List.append_assoc, List.cons_append, List.takeWhile_append_dropWhile, ← stop, whole]
      · refine .colon trails (fun c inside => List.mem_takeWhile_imp inside) ?_
        cases rest : behind.dropWhile isBodyMark with
        | nil => rfl
        | cons c more =>
            have first := List.head?_dropWhile_not isBodyMark behind
            rw [rest] at first
            simpa using first
    case h_2 behind stop =>
      cases closed
      exact ⟨cs.takeWhile isTrailMark, by rw [← stop, whole], .line trails rfl⟩
    case h_3 stop =>
      cases closed
      exact ⟨cs.takeWhile isTrailMark, by rw [← stop, whole], .line trails rfl⟩
    case h_4 => exact absurd closed (by simp)
  · rintro ⟨closing, rfl, closes⟩
    cases closes with
    | colon trails bodyMarks stops =>
        rw [List.append_assoc, List.cons_append, closed?_trail_colon trails,
          dropWhile_append_of_stops bodyMarks stops]
    | line trails stops =>
        cases rest with
        | nil => rw [List.append_nil, closed?_trail trails]
        | cons c more =>
            obtain rfl : c = '\n' := by simpa using stops
            exact closed?_trail_lineFeed trails more

/-- A line opens with a heading: behind marks of lists a spelling, and then its end. -/
structure Opens (lead heading closing rest : List Char) : Prop where
  leads : ∀ c ∈ lead, isLeadMark c = true
  spelt : ∃ marks ∈ spellings, Spelt marks heading
  closes : Closes closing rest

/-- Exactly the lines that open with a heading are read as such. -/
theorem headingAt?_eq_some_iff {line heading rest : List Char} :
    headingAt? line = some (heading, rest) ↔
      ∃ lead closing, line = lead ++ (heading ++ (closing ++ rest)) ∧
        Opens lead heading closing rest := by
  constructor
  · intro found
    obtain ⟨marks, member, fits⟩ := List.exists_of_findSome?_eq_some found
    split at fits
    case h_2 => exact absurd fits (by simp)
    case h_1 text after read =>
      obtain ⟨rest, closed, same⟩ := Option.map_eq_some_iff.mp fits
      obtain ⟨rfl, rfl⟩ := Prod.mk.inj same
      obtain ⟨spelt, split⟩ := spelt_of_spelled? read
      obtain ⟨closing, rfl, closes⟩ := closed?_eq_some_iff.mp closed
      refine ⟨line.takeWhile isLeadMark, closing, ?_, ?_⟩
      · rw [← split, List.takeWhile_append_dropWhile]
      · exact ⟨fun c inside => List.mem_takeWhile_imp inside, ⟨marks, member, spelt⟩, closes⟩
  · rintro ⟨lead, closing, rfl, opens⟩
    obtain ⟨marks, member, spelt⟩ := opens.spelt
    have bare : (lead ++ (heading ++ (closing ++ rest))).dropWhile isLeadMark =
        heading ++ (closing ++ rest) := by
      obtain ⟨c, d, more, rfl, noMark, -⟩ := spelt.start member
      exact dropWhile_append_of_stops opens.leads (by simp [noMark])
    have closed := closed?_eq_some_iff.mpr ⟨closing, rfl, opens.closes⟩
    have read := spelt.read (firm_of_mem member) (closing ++ rest)
    rw [← bare] at read
    refine headingAt?_of_unique member read (fun other also parts readOther => ?_) closed
    rw [bare] at readOther
    exact spelt.unique member also readOther

/-- Is the line made like a heading and something behind it? -/
def Opened (line : List Char) : Prop :=
  ∃ lead heading closing rest, line = lead ++ (heading ++ (closing ++ rest)) ∧
    Opens lead heading closing rest

theorem headingAt?_eq_none_of_not_opened {line : List Char} :
    headingAt? line = none ↔ ¬Opened line := by
  constructor
  · rintro none ⟨lead, heading, closing, rest, same, opens⟩
    cases none.symm.trans (headingAt?_eq_some_iff.mpr ⟨lead, closing, same, opens⟩)
  · intro unopened
    cases found : headingAt? line with
    | none => rfl
    | some pair =>
        obtain ⟨lead, closing, same, opens⟩ := headingAt?_eq_some_iff.mp found
        exact absurd ⟨lead, pair.1, closing, pair.2, same, opens⟩ unopened

end RepoAtlas.Explanation
