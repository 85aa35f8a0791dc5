import RepoAtlas.Proofs.Text

/-! # Small letters

No small letter of the table is a capital in it. So what lower case leaves is not changed by lower
case, neither are blanks and dots made of other characters, and letters of ASCII may be capital or
small before.
-/

namespace RepoAtlas.Text

/-! ## The table -/

section Table

variable {n m : Nat} {r r' : Nat × Nat × Nat × Int} {c : Char}

/-- The code point is that of a capital letter in the range. -/
def IsCapital (n : Nat) : Nat × Nat × Nat × Int → Prop
  | (first, last, step, _) => first ≤ n ∧ n ≤ last ∧ (n - first) % step = 0

/-- How a letter by itself becomes small: in ASCII, by the table, or not at all. -/
theorem lowerChar_cases (c : Char) :
    (c.toNat < 128 ∧ lowerChar c = c.toLower) ∨
      (∃ r ∈ capitalRanges, IsCapital c.toNat r ∧ lowerChar c = Char.ofNat (c.toNat + r.2.2.2).toNat) ∨
        (128 ≤ c.toNat ∧ (∀ r ∈ capitalRanges, ¬IsCapital c.toNat r) ∧ lowerChar c = c) := by
  rw [lowerChar]
  by_cases ascii : c.toNat < 128
  · exact .inl ⟨ascii, if_pos ascii⟩
  · right
    simp only [if_neg ascii]
    split
    · rename_i first last step distance found
      have capital := List.find?_some found
      simp only [Bool.and_eq_true, decide_eq_true_eq, and_assoc] at capital
      exact .inl ⟨_, List.mem_of_find?_eq_some found, capital, rfl⟩
    · rename_i none
      refine .inr ⟨by omega, fun r member capital => ?_, rfl⟩
      have other := List.find?_eq_none.mp none r member
      obtain ⟨first, last, step, distance⟩ := r
      simp only [Bool.and_eq_true, decide_eq_true_eq, and_assoc] at other
      exact other capital

/-- Small letters from the least to the most are outside the range, or alternate with its capitals. -/
def avoids (least most : Nat) (alternate : Bool) (r : Nat × Nat × Nat × Int) : Bool :=
  Nat.blt most r.1 || Nat.blt r.2.1 least ||
    (alternate && Nat.beq r.2.2.1 2 && Nat.beq ((least + r.1) % 2) 1)

/-- No small letter of the first range is a capital in the second. -/
def keepsOff (r r' : Nat × Nat × Nat × Int) : Bool :=
  avoids (r.1 + r.2.2.2).toNat (r.2.1 + r.2.2.2).toNat (r.2.2.1 == 2 || r.1 == r.2.1) r'

theorem not_isCapital_of_keepsOff (capital : IsCapital n r) (small : (m : Int) = n + r.2.2.2)
    (positive : 0 ≤ r.1 + r.2.2.2) (apart : keepsOff r r' = true) : ¬IsCapital m r' := by
  obtain ⟨first, last, step, distance⟩ := r
  obtain ⟨first', last', step', distance'⟩ := r'
  obtain ⟨least, most, steps⟩ := capital
  rintro ⟨least', most', steps'⟩
  simp only [keepsOff, avoids, Bool.or_eq_true, Bool.and_eq_true, Nat.blt_eq, Nat.beq_eq,
    beq_iff_eq] at apart
  dsimp only at small positive
  rcases apart with (below | above) | ⟨⟨two | single, two'⟩, odd⟩
  · omega
  · omega
  · subst two two'
    omega
  · subst two'
    omega

/-- What no small letter is: the two letters without one of their own in the table, blanks behind
    ASCII, and the code points of no character. -/
def reserved : List (Nat × Nat × Nat × Int) :=
  [(304, 304, 1, 0), (931, 931, 1, 0), (0x80, 0xA0, 1, 0), (0x1680, 0x1680, 1, 0),
   (0x2000, 0x206F, 1, 0), (0x3000, 0x3000, 1, 0), (0xD800, 0xDFFF, 1, 0)]

theorem table_keepsOff : capitalRanges.all (fun r => (capitalRanges ++ reserved).all (keepsOff r) &&
    decide (97 ≤ r.1 + r.2.2.2 ∧ r.2.1 + r.2.2.2 < 0x110000)) = true := by
  decide +kernel

/-- What the table says of the small letter of a capital. -/
theorem lowerChar_of_isCapital (member : r ∈ capitalRanges) (capital : IsCapital c.toNat r)
    (moved : lowerChar c = Char.ofNat (c.toNat + r.2.2.2).toNat) : 97 ≤ (lowerChar c).toNat ∧
      ∀ r' ∈ capitalRanges ++ reserved, ¬IsCapital (lowerChar c).toNat r' := by
  have entry := List.all_eq_true.mp table_keepsOff r member
  simp only [Bool.and_eq_true, decide_eq_true_eq, List.all_eq_true] at entry
  obtain ⟨apart, least, most⟩ := entry
  have range : r.1 ≤ c.toNat ∧ c.toNat ≤ r.2.1 := ⟨capital.1, capital.2.1⟩
  obtain ⟨m, position⟩ : ∃ m : Nat, (m : Int) = c.toNat + r.2.2.2 :=
    ⟨(c.toNat + r.2.2.2).toNat, by omega⟩
  have outside : ∀ r' ∈ capitalRanges ++ reserved, ¬IsCapital m r' := fun r' member' =>
    not_isCapital_of_keepsOff capital position (by omega) (apart r' member')
  have valid : m.isValidChar := by
    have noSurrogate : ¬(0xD800 ≤ m ∧ m ≤ 0xDFFF ∧ (m - 0xD800) % 1 = 0) :=
      outside (0xD800, 0xDFFF, 1, 0) (by simp [reserved])
    rw [Nat.isValidChar]
    omega
  have small : (lowerChar c).toNat = m := by
    rw [moved, ← position, Int.toNat_natCast, Char.toNat_ofNat, if_pos valid]
  rw [small]
  exact ⟨by omega, outside⟩

/-- Outside ASCII, what is no capital in the table is its own small letter. -/
theorem lowerChar_of_not_isCapital (large : 128 ≤ c.toNat)
    (none : ∀ r ∈ capitalRanges, ¬IsCapital c.toNat r) : lowerChar c = c := by
  rcases lowerChar_cases c with ⟨ascii, -⟩ | ⟨r, member, capital, -⟩ | ⟨-, -, same⟩
  · omega
  · exact absurd capital (none r member)
  · exact same

theorem lowerChar_of_ascii (ascii : c.toNat < 128) : lowerChar c = c.toLower := by
  rw [lowerChar]
  exact if_pos ascii

end Table

/-! ## Characters -/

section Characters

variable {c : Char} {before cs : List Char}

/-- Lower case leaves the character as it is, wherever it stands. -/
structure Small (c : Char) : Prop where
  self : lowerChar c = c
  notDotted : c ≠ 'İ'
  notSigma : c ≠ 'Σ'

theorem Small.of_ascii (ascii : c.toNat < 128) (small : c.toLower = c) : Small c where
  self := (lowerChar_of_ascii ascii).trans small
  notDotted := by
    rintro rfl
    exact absurd ascii (by decide)
  notSigma := by
    rintro rfl
    exact absurd ascii (by decide)

theorem toLower_of_range (least : 91 ≤ c.toNat) : c.toLower = c := by
  refine Char.toLower_eq_of_not_isUpper fun capital => ?_
  have range := upper_range capital
  omega

/-- Behind the capitals of ASCII and outside all ranges there are small letters only, and neither a
    blank nor a dot. -/
theorem small_of_outside (least : 97 ≤ c.toNat)
    (outside : ∀ r ∈ capitalRanges ++ reserved, ¬IsCapital c.toNat r) :
    Small c ∧ isBlank c = false ∧ c ≠ '.' := by
  have free : ∀ {first last : Nat}, (first, last, 1, 0) ∈ reserved →
      ¬(first ≤ c.toNat ∧ c.toNat ≤ last) := fun listed range =>
    outside _ (List.mem_append_right _ listed) ⟨range.1, range.2, Nat.mod_one _⟩
  have notDotted : c ≠ 'İ' := by
    rintro rfl
    exact free (by simp [reserved] : (304, 304, 1, 0) ∈ reserved) (by decide)
  have notSigma : c ≠ 'Σ' := by
    rintro rfl
    exact free (by simp [reserved] : (931, 931, 1, 0) ∈ reserved) (by decide)
  refine ⟨⟨?_, notDotted, notSigma⟩, Bool.eq_false_iff.mpr fun blank => ?_, ?_⟩
  · by_cases ascii : c.toNat < 128
    · rw [lowerChar_of_ascii ascii, toLower_of_range (by omega)]
    · exact lowerChar_of_not_isCapital (by omega) fun r member =>
        outside r (List.mem_append_left _ member)
  · have latin := free (by simp [reserved] : (0x80, 0xA0, 1, 0) ∈ reserved)
    have ogham := free (by simp [reserved] : (0x1680, 0x1680, 1, 0) ∈ reserved)
    have general := free (by simp [reserved] : (0x2000, 0x206F, 1, 0) ∈ reserved)
    have wide := free (by simp [reserved] : (0x3000, 0x3000, 1, 0) ∈ reserved)
    simp only [isBlank, Bool.or_eq_true, Bool.and_eq_true, decide_eq_true_eq] at blank
    omega
  · rintro rfl
    exact absurd least (by decide)

/-- What a character becomes in lower case. -/
structure Lowers (c : Char) (smalls : List Char) : Prop where
  nonempty : smalls ≠ []
  small : ∀ d ∈ smalls, Small d
  solid : isBlank c = false → ∀ d ∈ smalls, isBlank d = false
  noDot : c ≠ '.' → ∀ d ∈ smalls, d ≠ '.'

theorem Lowers.of_small {c d : Char} (small : Small d) (solid : isBlank c = false → isBlank d = false)
    (noDot : c ≠ '.' → d ≠ '.') : Lowers c [d] where
  nonempty := List.cons_ne_nil _ _
  small := List.forall_mem_singleton.mpr small
  solid inked := List.forall_mem_singleton.mpr (solid inked)
  noDot other := List.forall_mem_singleton.mpr (noDot other)

theorem small_toLower (ascii : c.toNat < 128) : Small c.toLower := by
  by_cases capital : c.isUpper = true
  · have lower : c.toLower.isLower = true := by
      rw [Char.isLower_toLower_eq_isAlpha, Char.isAlpha, capital, Bool.true_or]
    have range := lower_range lower
    exact .of_ascii (by omega) (Char.toLower_toLower_eq_toLower c)
  · rw [Char.toLower_eq_of_not_isUpper capital]
    exact .of_ascii ascii (Char.toLower_eq_of_not_isUpper capital)

theorem lowers_lowerChar (notDotted : c ≠ 'İ') (notSigma : c ≠ 'Σ') : Lowers c [lowerChar c] := by
  rcases lowerChar_cases c with ⟨ascii, moved⟩ | ⟨r, member, capital, moved⟩ | ⟨-, -, moved⟩
  · rw [moved]
    exact .of_small (small_toLower ascii) (fun solid => (isBlank_toLower c).trans solid)
      fun other dot => other (eq_of_toLower dot (by decide))
  · obtain ⟨least, outside⟩ := lowerChar_of_isCapital member capital moved
    obtain ⟨small, solid, noDot⟩ := small_of_outside least outside
    exact .of_small small (fun _ => solid) fun _ => noDot
  · rw [moved]
    exact .of_small ⟨moved, notDotted, notSigma⟩ id id

/-- Each character becomes small letters of its own. -/
theorem exists_lowers (before rest : List Char) (c : Char) : ∃ smalls, Lowers c smalls ∧
    lowerFrom before (c :: rest) = smalls ++ lowerFrom (c :: before) rest := by
  have checked : (['i', '\u0307', 'ς', 'σ'].all fun d =>
      lowerChar d = d && d != 'İ' && d != 'Σ' && !isBlank d && d != '.') = true := by decide +kernel
  have small : ∀ d ∈ ['i', '\u0307', 'ς', 'σ'], Small d ∧ isBlank d = false ∧ d ≠ '.' := by
    intro d member
    have fine := List.all_eq_true.mp checked d member
    simp only [Bool.and_eq_true, decide_eq_true_eq, bne_iff_ne, Bool.not_eq_true', and_assoc] at fine
    obtain ⟨self, notDotted, notSigma, solid, noDot⟩ := fine
    exact ⟨⟨self, notDotted, notSigma⟩, solid, noDot⟩
  refine ⟨_, ?_, rfl⟩
  split
  · refine ⟨List.cons_ne_nil _ _, fun d member => (small d ?_).1, fun _ d member => (small d ?_).2.1,
      fun _ d member => (small d ?_).2.2⟩
    all_goals exact List.mem_append_left ['ς', 'σ'] member
  · rename_i notDotted
    split
    · refine .of_small (small _ ?_).1 (fun _ => (small _ ?_).2.1) fun _ => (small _ ?_).2.2
      all_goals split <;> decide
    · rename_i notSigma
      exact lowers_lowerChar notDotted notSigma

theorem lowerFrom_cons_of_small (small : Small c) (before rest : List Char) :
    lowerFrom before (c :: rest) = c :: lowerFrom (c :: before) rest := by
  rw [lowerFrom, if_neg small.notDotted, if_neg small.notSigma, small.self, List.singleton_append]

/-- Small letters are left as they are. -/
theorem lowerFrom_of_small (small : ∀ c ∈ cs, Small c) (before : List Char) :
    lowerFrom before cs = cs := by
  induction cs generalizing before with
  | nil => rfl
  | cons c rest ih =>
      rw [lowerFrom_cons_of_small (small c List.mem_cons_self),
        ih fun d member => small d (List.mem_cons_of_mem c member)]

theorem small_of_mem_lowerFrom (before : List Char) (member : c ∈ lowerFrom before cs) : Small c := by
  induction cs generalizing before with
  | nil => exact absurd member List.not_mem_nil
  | cons d rest ih =>
      obtain ⟨smalls, lowers, spelled⟩ := exists_lowers before rest d
      rw [spelled, List.mem_append] at member
      exact member.elim (lowers.small c) (ih _)

theorem lowerFrom_eq_nil_iff : lowerFrom before cs = [] ↔ cs = [] := by
  cases cs with
  | nil => exact iff_of_true rfl rfl
  | cons c rest =>
      obtain ⟨smalls, lowers, spelled⟩ := exists_lowers before rest c
      simp [spelled, lowers.nonempty]

theorem last_lowerFrom (solid : cs.getLast?.all (!isBlank ·) = true) (before : List Char) :
    (lowerFrom before cs).getLast?.all (!isBlank ·) = true := by
  induction cs generalizing before with
  | nil => rfl
  | cons c rest ih =>
      obtain ⟨smalls, lowers, spelled⟩ := exists_lowers before rest c
      rw [spelled]
      cases rest with
      | nil =>
          have inked : isBlank c = false := by simpa using solid
          have last := List.getLast?_eq_some_getLast lowers.nonempty
          rw [lowerFrom, List.append_nil, last, Option.all_some,
            lowers.solid inked _ (List.getLast_mem lowers.nonempty), Bool.not_false]
      | cons d more =>
          rw [List.getLast?_append_of_ne_nil _ (lowerFrom_eq_nil_iff.not.mpr (List.cons_ne_nil d more))]
          exact ih (by rwa [List.getLast?_cons_cons] at solid) _

end Characters

/-! ## Letters of ASCII and dots -/

section Context

variable {c : Char} {before before' cs : List Char}

theorem casedFirst_cons (c : Char) (cs : List Char) : casedFirst (c :: cs) =
    if inRanges caseIgnorableRanges c then casedFirst cs else inRanges casedRanges c := by
  by_cases passed : inRanges caseIgnorableRanges c = true
  · rw [casedFirst, List.dropWhile_cons_of_pos passed, if_pos passed, casedFirst]
  · rw [casedFirst, List.dropWhile_cons_of_neg passed, if_neg passed]

/-- Of what comes before only the first letter with case is looked at. -/
theorem lowerFrom_congr (same : casedFirst before = casedFirst before') (cs : List Char) :
    lowerFrom before cs = lowerFrom before' cs := by
  induction cs generalizing before before' with
  | nil => rfl
  | cons c rest ih =>
      have later : casedFirst (c :: before) = casedFirst (c :: before') := by
        rw [casedFirst_cons, casedFirst_cons, same]
      rw [lowerFrom, lowerFrom, same, ih later]

theorem small_dot : Small '.' := .of_ascii (by decide) (by decide)

/-- A dot in front changes nothing behind it. -/
theorem lowerFrom_dot (cs : List Char) : lowerFrom [] ('.' :: cs) = '.' :: lowerFrom [] cs := by
  have unseen : casedFirst ['.'] = casedFirst [] := by decide +kernel
  rw [lowerFrom_cons_of_small small_dot, lowerFrom_congr unseen]

/-- A letter of ASCII has case, be it capital or small, and is not passed over. -/
theorem inRanges_toLower (c : Char) :
    inRanges caseIgnorableRanges c.toLower = inRanges caseIgnorableRanges c ∧
      inRanges casedRanges c.toLower = inRanges casedRanges c := by
  have checked : ((List.range 26).all fun k => [caseIgnorableRanges, casedRanges].all fun ranges =>
      inRanges ranges (Char.ofNat (65 + k)).toLower = inRanges ranges (Char.ofNat (65 + k))) = true := by
    decide +kernel
  by_cases capital : c.isUpper = true
  · have range := upper_range capital
    have position : 65 + (c.toNat - 65) = c.toNat := by omega
    have entry := List.all_eq_true.mp checked (c.toNat - 65) (List.mem_range.mpr (by omega))
    rw [position, Char.ofNat_toNat] at entry
    simpa using entry
  · rw [Char.toLower_eq_of_not_isUpper capital]
    exact ⟨rfl, rfl⟩

theorem casedFirst_map_toLower (cs : List Char) : casedFirst (cs.map Char.toLower) = casedFirst cs := by
  induction cs with
  | nil => rfl
  | cons c rest ih =>
      obtain ⟨passed, cased⟩ := inRanges_toLower c
      rw [List.map_cons, casedFirst_cons, casedFirst_cons, ih, passed, cased]

theorem lowerChar_toLower (c : Char) : lowerChar c.toLower = lowerChar c := by
  by_cases capital : c.isUpper = true
  · have ascii : c.toNat < 128 := by
      have range := upper_range capital
      omega
    rw [lowerChar_of_ascii ascii, (small_toLower ascii).self]
  · rw [Char.toLower_eq_of_not_isUpper capital]

/-- Letters of ASCII may be capital or small before. -/
theorem lowerFrom_map_toLower (before cs : List Char) :
    lowerFrom (before.map Char.toLower) (cs.map Char.toLower) = lowerFrom before cs := by
  have letter : ∀ {c d : Char}, d.toLower = d → d.isLower = false → (c.toLower = d ↔ c = d) :=
    fun self other => ⟨fun lower => eq_of_toLower lower other, fun same => same ▸ self⟩
  induction cs generalizing before with
  | nil => rfl
  | cons c rest ih =>
      rw [List.map_cons, lowerFrom, lowerFrom, ← List.map_cons, ih, casedFirst_map_toLower,
        casedFirst_map_toLower, lowerChar_toLower]
      simp only [letter (by decide : 'İ'.toLower = 'İ') (by decide),
        letter (by decide : 'Σ'.toLower = 'Σ') (by decide)]

end Context

/-! ## Texts -/

section Texts

variable {s t : String}

theorem lower_of_small (small : ∀ c ∈ s.toList, Small c) : lower s = s := by
  rw [lower, lowerFrom_of_small small, String.ofList_toList]

theorem small_of_mem_lower {c : Char} (member : c ∈ (lower s).toList) : Small c := by
  rw [lower, String.toList_ofList] at member
  exact small_of_mem_lowerFrom [] member

theorem tight_lower (tight : Tight s) : Tight (lower s) := by
  obtain ⟨start, ending⟩ := tight
  rw [Tight, lower, String.toList_ofList]
  refine ⟨?_, last_lowerFrom ending []⟩
  cases spelled : s.toList with
  | nil => rfl
  | cons c rest =>
      obtain ⟨smalls, lowers, split⟩ := exists_lowers [] rest c
      obtain ⟨d, more, rfl⟩ := List.exists_cons_of_ne_nil lowers.nonempty
      have inked : isBlank c = false := by simpa [spelled] using start
      simp [split, lowers.solid inked d List.mem_cons_self]

theorem lower_eq_empty_iff : lower s = "" ↔ s = "" := by
  rw [lower, String.ofList_eq_empty_iff, lowerFrom_eq_nil_iff, String.toList_eq_nil_iff]

theorem toList_dot (s : String) : ("." ++ s).toList = '.' :: s.toList := by
  rw [String.toList_append]
  rfl

theorem lower_dot (s : String) : lower ("." ++ s) = "." ++ lower s := by
  rw [lower, toList_dot, lowerFrom_dot, ← List.singleton_append, String.ofList_append]
  rfl

theorem lower_eq_of_letters (letters : s.toList.map Char.toLower = t.toList.map Char.toLower) :
    lower s = lower t := by
  have read : ∀ s : String, lower s = String.ofList (lowerFrom [] (s.toList.map Char.toLower)) :=
    fun s => congrArg String.ofList (lowerFrom_map_toLower [] s.toList).symm
  rw [read, letters, ← read]

end Texts

end RepoAtlas.Text
