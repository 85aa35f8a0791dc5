import RepoAtlas.Proofs.Explanation.Spelling

/-! # The tier of a heading

A heading is recognised by its letters in any case, but its tier is told by its small letters. The
two agree unless the first word is spelled with a dotted capital or a dotless small i: their small
letters are not those of the word, and the heading belongs to no tier.
-/

namespace RepoAtlas.Explanation

/-! ## Words in small letters -/

/-- Is there an i with a dot as a capital or without one as a small letter? -/
def dotted (cs : List Char) : Bool := cs.any fun c => c = 'İ' || c = 'ı'

/-- How a text in small letters starts. -/
inductive LowersTo (before : List Char) (c : Char) (rest : List Char) : Prop
  /-- A dot is put on the small letter. -/
  | capital (is : c = 'İ')
      (lower : Text.lowerFrom before (c :: rest) =
        'i' :: '\u0307' :: Text.lowerFrom (c :: before) rest)
  /-- The letter stays as it is. -/
  | small (is : c = 'ı')
      (lower : Text.lowerFrom before (c :: rest) = 'ı' :: Text.lowerFrom (c :: before) rest)
  | folded (noCapital : c ≠ 'İ') (noSmall : c ≠ 'ı')
      (lower : Text.lowerFrom before (c :: rest) =
        Explanation.folded c :: Text.lowerFrom (c :: before) rest)

theorem lowersTo {c : Char} (plain : isPlain (folded c) = true) (before rest : List Char) :
    LowersTo before c rest := by
  by_cases capital : c = 'İ'
  case pos =>
    subst capital
    exact .capital rfl rfl
  by_cases small : c = 'ı'
  case pos =>
    subst small
    apply LowersTo.small rfl
    rw [Text.lowerFrom, if_neg (by decide), if_neg (by decide)]
    rfl
  apply LowersTo.folded capital small
  by_cases kelvin : c = '\u212A'
  case pos =>
    subst kelvin
    rw [Text.lowerFrom, if_neg (by decide), if_neg (by decide)]
    rfl
  have same : folded c = c.toLower := by simp [folded, capital, small, kelvin]
  have ascii : c.toNat < 128 := Text.ascii_of_toLower (same ▸ (isPlain_iff.mp plain).1)
  rw [Text.lowerFrom, if_neg capital, if_neg (ne_of_ascii ascii).2.2.2, Text.lowerChar,
    if_pos ascii, same]
  rfl

section Words

variable {w : List Char} (plain : (w.map folded).all isPlain = true)

include plain

theorem lowerFrom_of_not_dotted (clean : dotted w = false) (before tail : List Char) :
    ∃ passed, Text.lowerFrom before (w ++ tail) = w.map folded ++ Text.lowerFrom passed tail := by
  induction w generalizing before with
  | nil => exact ⟨before, rfl⟩
  | cons c w ih =>
      obtain ⟨plainHead, plainTail⟩ : isPlain (folded c) = true ∧ (w.map folded).all isPlain = true := by
        simpa using plain
      obtain ⟨⟨noCapital, noSmall⟩, cleanTail⟩ : (c ≠ 'İ' ∧ c ≠ 'ı') ∧ dotted w = false := by
        simpa [dotted] using clean
      obtain ⟨passed, lowerTail⟩ := ih plainTail cleanTail (c :: before)
      cases lowersTo plainHead before (w ++ tail) with
      | capital is => exact absurd is noCapital
      | small is => exact absurd is noSmall
      | folded _ _ lower =>
          refine ⟨passed, ?_⟩
          rw [List.cons_append, lower, lowerTail]
          rfl

/-- An i of another kind is not passed over, as a letter has to follow it. -/
theorem not_prefix_of_dotted (last : (w.map folded).getLast? ≠ some 'i') (is : dotted w = true)
    (before tail : List Char) : ¬w.map folded <+: Text.lowerFrom before (w ++ tail) := by
  induction w generalizing before with
  | nil => exact absurd is (by decide)
  | cons c w ih =>
      obtain ⟨plainHead, plainTail⟩ : isPlain (folded c) = true ∧ (w.map folded).all isPlain = true := by
        simpa using plain
      rw [List.map_cons, List.cons_append]
      cases lowersTo plainHead before (w ++ tail) with
      | capital capital lower =>
          subst capital
          rw [lower]
          cases w with
          | nil => exact absurd rfl last
          | cons d w =>
              have noDot : folded d ≠ '\u0307' := by
                intro same
                rw [List.map_cons, same] at plainTail
                exact absurd plainTail (by simp [isPlain])
              simp [noDot]
      | small small lower =>
          subst small
          have apart : folded 'ı' ≠ 'ı' := by decide
          rw [lower]
          simp [apart]
      | folded noCapital noSmall lower =>
          have isTail : dotted w = true := by simpa [dotted, noCapital, noSmall] using is
          have lastTail : (w.map folded).getLast? ≠ some 'i' := by
            cases w with
            | nil => simp
            | cons d w => simpa using last
          rw [lower, List.cons_prefix_cons]
          rintro ⟨-, later⟩
          exact ih plainTail lastTail isTail (c :: before) later

/-- What parts from a word parts from its small letters: they are plain as far as they follow it. -/
theorem not_prefix_of_apart {other : List Char} (plainOther : other.all isPlain = true)
    (apart : ¬w.map folded <+: other) (apart' : ¬other <+: w.map folded) (before tail : List Char) :
    ¬other <+: Text.lowerFrom before (w ++ tail) := by
  induction w generalizing other before with
  | nil => exact absurd (List.nil_prefix) apart
  | cons c w ih =>
      obtain ⟨plainHead, plainTail⟩ : isPlain (folded c) = true ∧ (w.map folded).all isPlain = true := by
        simpa using plain
      cases other with
      | nil => exact absurd (List.nil_prefix) apart'
      | cons b other =>
          obtain ⟨plainB, plainRest⟩ : isPlain b = true ∧ other.all isPlain = true := by
            simpa using plainOther
          rw [List.map_cons, List.cons_prefix_cons, not_and] at apart apart'
          rw [List.cons_append]
          cases lowersTo plainHead before (w ++ tail) with
          | capital capital lower =>
              subst capital
              rw [lower, List.cons_prefix_cons]
              rintro ⟨rfl, later⟩
              cases other with
              | nil => exact apart' rfl List.nil_prefix
              | cons d other =>
                  obtain ⟨rfl, -⟩ := List.cons_prefix_cons.mp later
                  exact absurd plainRest (by simp [isPlain])
          | small small lower =>
              rw [lower, List.cons_prefix_cons]
              rintro ⟨rfl, -⟩
              exact absurd plainB (by decide)
          | folded _ _ lower =>
              rw [lower, List.cons_prefix_cons]
              rintro ⟨rfl, later⟩
              exact ih plainTail plainRest (apart rfl) (apart' rfl) (c :: before) later

end Words

/-! ## The tier of a heading -/

/-- The spellings of the headings of a tier. -/
def Tier.spellings : Tier → List (List Mark)
  | .simple => Explanation.spellings.take 2
  | .intermediate => [word "intermediate"]
  | .technical => [word "technical"]

/-- The text is a heading of the tier. -/
def Tier.Heads (tier : Tier) (heading : List Char) : Prop :=
  ∃ marks ∈ tier.spellings, Spelt marks heading

/-- The text up to its first blank. -/
def firstWord (cs : List Char) : List Char := cs.takeWhile (!Text.isBlank ·)

/-- The first words of the spellings. -/
def names : List String := ["explain", "eli5", "intermediate", "technical"]

theorem exists_heads {heading : List Char} (spelt : ∃ marks ∈ spellings, Spelt marks heading) :
    ∃ tier : Tier, tier.Heads heading := by
  obtain ⟨marks, member, spelt⟩ := spelt
  have all : (spellings.all fun marks => [Tier.simple, .intermediate, .technical].any fun tier =>
      tier.spellings.contains marks) = true := by decide
  obtain ⟨tier, -, contains⟩ := List.any_eq_true.mp (List.all_eq_true.mp all marks member)
  exact ⟨tier, marks, List.contains_iff_mem.mp contains, spelt⟩

theorem tierOf?_eq (heading : List Char) :
    tierOf? (String.ofList heading) =
      if "explain".toList <+: Text.lowerFrom [] heading ∨ "eli5".toList <+: Text.lowerFrom [] heading
      then some .simple
      else if Text.lowerFrom [] heading = "intermediate".toList then some .intermediate
      else if Text.lowerFrom [] heading = "technical".toList then some .technical
      else none := by
  have same (word : String) : Text.lower (String.ofList heading) = word ↔
      Text.lowerFrom [] heading = word.toList := by
    rw [Text.lower, String.toList_ofList]
    constructor
    · rintro rfl
      rw [String.toList_ofList]
    · intro same
      rw [same, String.ofList_toList]
  have letters : (Text.lower (String.ofList heading)).toList = Text.lowerFrom [] heading :=
    (same _).mp rfl ▸ rfl
  rw [tierOf?]
  simp only [same, Text.startsWith, letters, Bool.or_eq_true, List.isPrefixOf_iff_prefix]

section Named

variable {name : String} {more : List Mark} {heading : List Char}

theorem plain_of_mem_names (known : name ∈ names) :
    name.toList.all isPlain = true ∧ name.toList.getLast? ≠ some 'i' ∧
      ∀ c ∈ name.toList, Text.isBlank c = false := by
  have all : (names.all fun name => name.toList.all isPlain && name.toList.getLast? ≠ some 'i' &&
      name.toList.all (!Text.isBlank ·)) = true := by decide
  have here := List.all_eq_true.mp all name known
  simpa [and_assoc] using here

theorem apart_of_mem_names {other : String} (known : name ∈ names) (also : other ∈ names)
    (different : other ≠ name) : ¬other.toList <+: name.toList := by
  have all : (names.all fun name => names.all fun other =>
      other = name || !other.toList.isPrefixOf name.toList) = true := by decide
  have here := List.all_eq_true.mp (List.all_eq_true.mp all name known) other also
  simpa [different, ← List.isPrefixOf_iff_prefix] using here

theorem Spelt.word {letters : List Char} (plain : letters.all isPlain = true)
    (spelt : Spelt (letters.map .letter ++ more) heading) :
    ∃ w tail, heading = w ++ tail ∧ w.map folded = letters ∧ Spelt more tail := by
  induction letters generalizing heading with
  | nil => exact ⟨[], heading, rfl, rfl, spelt⟩
  | cons small letters ih =>
      obtain ⟨plainHead, plainTail⟩ : isPlain small = true ∧ letters.all isPlain = true := by
        simpa using plain
      cases spelt with
      | letter folds later =>
          obtain ⟨w, tail, rfl, same, spelt⟩ := ih plainTail later
          refine ⟨_ :: w, tail, rfl, ?_, spelt⟩
          rw [List.map_cons, (foldsTo_iff plainHead).mp folds, same]

theorem firstWord_append {w tail : List Char} (solid : ∀ c ∈ w, Text.isBlank c = false)
    (stops : tail.head?.all Text.isBlank = true) : firstWord (w ++ tail) = w := by
  rw [firstWord, List.takeWhile_append_of_pos (by simpa using solid)]
  cases tail with
  | nil => exact List.append_nil w
  | cons c tail => rw [List.takeWhile_cons_of_neg (by simpa using stops), List.append_nil]

/-- The small letters of a heading start with the first word of its spelling, unless that has an
    i of another kind, and with no other first word. -/
theorem Spelt.small_letters (known : name ∈ names) (behind : more.head?.all (· = .gap) = true)
    (spelt : Spelt (Explanation.word name ++ more) heading) :
    (∀ other ∈ names, other.toList <+: Text.lowerFrom [] heading ↔
      other = name ∧ dotted (firstWord heading) = false) ∧
    (more = [] → dotted (firstWord heading) = false →
      Text.lowerFrom [] heading = name.toList) := by
  obtain ⟨plain, last, solid⟩ := plain_of_mem_names known
  obtain ⟨w, tail, rfl, same, spelt⟩ := Spelt.word plain spelt
  have stops : tail.head?.all Text.isBlank = true := by
    cases spelt with
    | done => rfl
    | @gap blanks marks text some_blank blank later =>
        obtain ⟨c, blanks, rfl⟩ := List.exists_cons_of_ne_nil some_blank
        exact blank c List.mem_cons_self
    | _ => exact absurd behind (by simp)
  have first : firstWord (w ++ tail) = w := by
    apply firstWord_append _ stops
    intro c inside
    rw [← isBlank_folded]
    exact solid _ (same ▸ List.mem_map_of_mem inside)
  rw [first]
  rw [← same] at plain last
  refine ⟨?_, ?_⟩
  · intro other also
    by_cases different : other = name
    case neg =>
      have apart := apart_of_mem_names known also different
      have apart' := apart_of_mem_names also known (Ne.symm different)
      rw [← same] at apart apart'
      have noStart := not_prefix_of_apart plain (plain_of_mem_names also).1 apart' apart [] tail
      exact iff_of_false noStart fun both => different both.1
    case pos =>
      subst different
      cases is : dotted w with
      | true =>
          have noStart := not_prefix_of_dotted plain last is [] tail
          rw [same] at noStart
          exact iff_of_false noStart (by simp)
      | false =>
          obtain ⟨passed, lower⟩ := lowerFrom_of_not_dotted plain is [] tail
          rw [lower, same]
          exact iff_of_true (List.prefix_append _ _) ⟨rfl, rfl⟩
  · rintro rfl clean
    obtain ⟨passed, lower⟩ := lowerFrom_of_not_dotted plain clean [] tail
    cases spelt
    rw [lower, same, Text.lowerFrom, List.append_nil]

theorem tierOf?_of_dotted (known : name ∈ names) (behind : more.head?.all (· = .gap) = true)
    (spelt : Spelt (Explanation.word name ++ more) heading)
    (is : dotted (firstWord heading) = true) : tierOf? (String.ofList heading) = none := by
  have noStart : ∀ other ∈ names, ¬other.toList <+: Text.lowerFrom [] heading := by
    intro other also starts
    have clean := (((spelt.small_letters known behind).1 other also).mp starts).2
    exact absurd (is.symm.trans clean) (by simp)
  have notAll : ∀ other ∈ names, Text.lowerFrom [] heading ≠ other.toList := by
    intro other also same
    exact noStart other also (same ▸ List.prefix_refl _)
  rw [tierOf?_eq, if_neg, if_neg (notAll _ (by decide)), if_neg (notAll _ (by decide))]
  rintro (explain | eli5)
  · exact noStart "explain" (by decide) explain
  · exact noStart "eli5" (by decide) eli5

/-- The tier of a heading is that of its first word. -/
theorem tierOf?_of_clean (known : name ∈ names) (behind : more.head?.all (· = .gap) = true)
    (alone : more ≠ [] → name = "explain") (spelt : Spelt (Explanation.word name ++ more) heading)
    (clean : dotted (firstWord heading) = false) :
    tierOf? (String.ofList heading) = tierOf? name := by
  obtain ⟨starts, letters⟩ := spelt.small_letters known behind
  rw [tierOf?_eq]
  by_cases first : name = "explain"
  case pos =>
    subst first
    rw [if_pos (.inl ((starts _ known).mpr ⟨rfl, clean⟩))]
    decide
  case neg =>
    rw [letters (by_contra fun nonempty => first (alone nonempty)) clean]
    simp only [names, List.mem_cons, List.not_mem_nil, or_false] at known
    rcases known with rfl | rfl | rfl | rfl <;> decide

end Named

/-- A spelling starts with a word of its tier; only one of them has more than a word. -/
theorem exists_name {tier : Tier} {marks : List Mark} (member : marks ∈ tier.spellings) :
    ∃ name ∈ names, ∃ more, marks = word name ++ more ∧ more.head?.all (· = .gap) = true ∧
      (more ≠ [] → name = "explain") ∧ tierOf? name = some tier := by
  have whole (name : String) (known : name ∈ names) (told : tierOf? name = some tier) :
      ∃ name' ∈ names, ∃ more, word name = word name' ++ more ∧
        more.head?.all (· = .gap) = true ∧ (more ≠ [] → name' = "explain") ∧
        tierOf? name' = some tier :=
    ⟨name, known, [], (List.append_nil _).symm, rfl, absurd rfl, told⟩
  cases tier with
  | simple =>
      rcases List.mem_pair.mp member with rfl | rfl
      · simp only [List.append_assoc]
        exact ⟨"explain", by decide, _, rfl, rfl, fun _ => rfl, by decide⟩
      · exact whole "eli5" (by decide) (by decide)
  | intermediate =>
      obtain rfl := List.mem_singleton.mp member
      exact whole "intermediate" (by decide) (by decide)
  | technical =>
      obtain rfl := List.mem_singleton.mp member
      exact whole "technical" (by decide) (by decide)

/-- A heading belongs to its tier, unless its first word has an i of another kind. -/
theorem tierOf?_of_heads {tier : Tier} {heading : List Char} (heads : tier.Heads heading) :
    tierOf? (String.ofList heading) = if dotted (firstWord heading) then none else some tier := by
  obtain ⟨marks, member, spelt⟩ := heads
  obtain ⟨name, known, more, rfl, behind, alone, named⟩ := exists_name member
  split
  case isTrue is => exact tierOf?_of_dotted known behind spelt is
  case isFalse clean =>
    rw [tierOf?_of_clean known behind alone spelt (Bool.eq_false_iff.mpr clean), named]

end RepoAtlas.Explanation
