import Mathlib
import RepoAtlas.Decimal.Read
import RepoAtlas.Proofs.Average

/-! # Averages in hundredths

The payload writes an average as a whole number of hundredths: the one nearest to the exact value, and
of two that are equally near the one farther from zero. The numeral shows the sign of the value, also
that of a zero, and is refused if the number of hundredths is too long. Greater averages are never
written as smaller numbers.
-/

namespace RepoAtlas

/-- The number that a mantissa, an exponent and a sign stand for. -/
def Dyadic.value (v : Dyadic) : ℚ := (if v.negative then -1 else 1) * v.mantissa * 2 ^ v.exponent

namespace Decimal

/-! ## The nearest integer -/

/-- No integer is nearer to the number, and none that is as near is farther from zero. -/
structure Nearest (q : ℚ) (n : ℤ) : Prop where
  closest : ∀ k : ℤ, |q - n| ≤ |q - k|
  outer : ∀ k : ℤ, |q - k| = |q - n| → |k| ≤ |n|

section Nearest

variable {q r : ℚ} {m n : ℤ}

theorem Nearest.neg (nearest : Nearest q n) : Nearest (-q) (-n) := by
  have mirrored : ∀ k : ℤ, |-q - k| = |q - (-k : ℤ)| := by
    intro k
    rw [← abs_neg]
    push_cast
    ring_nf
  constructor
  · intro k
    rw [mirrored, mirrored, neg_neg]
    exact nearest.closest (-k)
  · intro k same
    rw [mirrored, mirrored, neg_neg] at same
    simpa using nearest.outer (-k) same

/-- Of the numbers from zero on those up to half a step below an integer go to it, the first included,
    and those less than half a step above. -/
theorem nearest_of_nonneg (nonneg : 0 ≤ q) (low : n - 1 / 2 ≤ q) (high : q < n + 1 / 2) :
    Nearest q n := by
  have near : |q - n| ≤ 1 / 2 := abs_le.mpr ⟨by linarith, by linarith⟩
  have natural : 0 ≤ n := by
    have above : (-1 : ℚ) < n := by linarith
    exact Int.le_of_lt_add_one (by exact_mod_cast (by linarith : (0 : ℚ) < n + 1))
  have below : ∀ k : ℤ, q - k ≤ |q - k| := fun k => le_abs_self _
  have above : ∀ k : ℤ, n < k → |q - n| < |q - k| := by
    intro k more
    have far : (n : ℚ) + 1 ≤ k := by exact_mod_cast more
    exact near.trans_lt (lt_of_lt_of_le (by linarith) (neg_le_abs _))
  constructor
  · intro k
    rcases lt_trichotomy k n with less | rfl | more
    · have far : (k : ℚ) ≤ n - 1 := by exact_mod_cast Int.le_sub_one_of_lt less
      linarith [below k]
    · rfl
    · exact (above k more).le
  · intro k same
    have less : k ≤ n := not_lt.mp fun more => (above k more).ne' same
    rw [abs_of_nonneg natural, abs_le]
    refine ⟨?_, less⟩
    -- An integer that far below zero is farther away than half a step.
    by_contra negative
    have far : (k : ℚ) ≤ -n - 1 := by exact_mod_cast (by omega : k ≤ -n - 1)
    have positive : (0 : ℚ) ≤ n := by exact_mod_cast natural
    linarith [below k]

/-- Of two integers only numbers beyond their middle are nearer to the greater one. -/
theorem le_of_closest (less : m < n) (closest : |q - n| ≤ |q - m|) : (m + n : ℚ) ≤ 2 * q := by
  have apart : (m : ℚ) < n := by exact_mod_cast less
  by_contra before
  rcases le_or_gt q m with left | right
  · rw [abs_of_nonpos (by linarith), abs_of_nonpos (by linarith)] at closest
    linarith
  · rw [abs_of_pos (by linarith : 0 < q - m)] at closest
    linarith [neg_le_abs (q - n)]

theorem Nearest.mono (first : Nearest q m) (second : Nearest r n) (ordered : q ≤ r) : m ≤ n := by
  by_contra less
  have middle := le_of_closest (not_le.mp less) (first.closest n)
  have middle' := le_of_closest (q := -r) (neg_lt_neg (not_le.mp less)) (second.neg.closest (-m))
  push_cast at middle'
  -- Both numbers are half-way between the integers, which are then equally far from zero.
  obtain rfl : q = r := le_antisymm ordered (by linarith)
  have half : 2 * q = m + n := by linarith
  have reflected : |q - n| = |q - m| := by
    rw [show q - n = -(q - m) by linarith, abs_neg]
  have sizes := le_antisymm (first.outer n reflected) (second.outer m reflected.symm)
  rcases abs_eq_abs.mp sizes with same | opposite
  · omega
  · rw [opposite] at half
    push_cast at half
    obtain rfl : q = 0 := by linarith
    have zero := first.closest 0
    simp only [Int.cast_zero, sub_zero, abs_zero, zero_sub, abs_neg, abs_nonpos_iff,
      Int.cast_eq_zero] at zero
    omega

end Nearest

/-! ## Units of the last place -/

theorem roundDiv_bounds (num : Nat) {den : Nat} (positive : 0 < den) :
    (roundDiv .awayFromZero num den - 1 / 2 : ℚ) ≤ num / den ∧
      (num / den : ℚ) < roundDiv .awayFromZero num den + 1 / 2 := by
  have parts := Nat.div_add_mod num den
  have rest := Nat.mod_lt num positive
  have bounds : 2 * roundDiv .awayFromZero num den * den ≤ 2 * num + den ∧
      2 * num < (2 * roundDiv .awayFromZero num den + 1) * den := by
    simp only [roundDiv]
    generalize num / den = quotient at parts
    generalize num % den = remainder at parts rest
    subst parts
    split_ifs <;> constructor <;> linarith
  have width : (0 : ℚ) < den := by exact_mod_cast positive
  obtain ⟨low, high⟩ := bounds
  constructor
  · rw [le_div_iff₀ width]
    have low' : (2 * roundDiv .awayFromZero num den * den : ℚ) ≤ 2 * num + den := by exact_mod_cast low
    linarith
  · rw [div_lt_iff₀ width]
    have high' : (2 * num : ℚ) < (2 * roundDiv .awayFromZero num den + 1) * den := by
      exact_mod_cast high
    linarith

theorem value_eq (v : Dyadic) :
    v.value = (if v.negative then -1 else 1) * (v.numerator / v.denominator) := by
  have power : (2 : ℚ) ^ v.exponent = 2 ^ v.exponent.toNat / 2 ^ (-v.exponent).toNat := by
    rw [← zpow_natCast, ← zpow_natCast, ← zpow_sub₀ (by norm_num)]
    congr 1
    omega
  rw [Dyadic.value, power, Dyadic.numerator, Dyadic.denominator, Nat.pow_eq, Nat.pow_eq]
  push_cast
  ring

/-- The units of the last place, with the sign of the value. -/
def signedUnits (places : Nat) (v : Dyadic) : ℤ :=
  if v.negative then -(units .awayFromZero places v : ℤ) else units .awayFromZero places v

theorem natAbs_signedUnits (places : Nat) (v : Dyadic) :
    (signedUnits places v).natAbs = units .awayFromZero places v := by
  rw [signedUnits]
  split <;> omega

theorem nearest_signedUnits (places : Nat) (v : Dyadic) :
    Nearest (10 ^ places * v.value) (signedUnits places v) := by
  have bounds := roundDiv_bounds (v.numerator * Nat.pow 10 places) (denominator_pos v)
  rw [← units, Nat.pow_eq] at bounds
  push_cast at bounds
  have magnitude : Nearest (v.numerator * 10 ^ places / v.denominator)
      (units .awayFromZero places v) :=
    nearest_of_nonneg (by positivity) (by rw [Int.cast_natCast]; exact bounds.1)
      (by rw [Int.cast_natCast]; exact bounds.2)
  rw [value_eq, signedUnits]
  split
  · convert magnitude.neg using 1
    ring
  · convert magnitude using 1
    ring

/-! ## Numerals with two places -/

/-- The text is the numeral of so many hundredths: a minus if it is to be negative, digits without a
    needless zero in front, a point and two digits. -/
def TwoPlaces (text : String) (negative : Bool) (hundredths : Nat) : Prop :=
  ∃ whole places, text.toList = (if negative then ['-'] else []) ++ (whole ++ '.' :: places) ∧
    Json.Digital whole ∧ (whole.head? = some '0' → whole = ['0']) ∧
    Json.Digital places ∧ places.length = 2 ∧ Json.digitsValue (whole ++ places) = hundredths

/-- The number that a numeral with a point stands for. -/
def numeralValue (text : String) : ℚ :=
  let (negative, body) := splitSign text.toList
  let places := (body.dropWhile Char.isDigit).drop 1
  let value : ℚ := Json.digitsValue (body.takeWhile Char.isDigit ++ places) / 10 ^ places.length
  if negative then -value else value

theorem head_digits (n : Nat) : (digits n).head? = some '0' → digits n = ['0'] := by
  rw [digits]
  induction n using Nat.strong_induction_on with
  | _ n shorter =>
      rcases Nat.lt_or_ge n 10 with small | large
      · rw [Nat.toDigits_of_lt_base small]
        exact fun zero => congrArg (· :: []) (Option.some.inj zero)
      · have some : Nat.toDigits 10 (n / 10) ≠ [] := Nat.toDigits_ne_nil
        rw [Nat.toDigits_of_base_le (by decide) large, List.head?_append_of_ne_nil _ some]
        intro zero
        -- Only a zero begins with the digit, and less than ten is left of none.
        have rest := congrArg Json.digitsValue (shorter _ (by omega) zero)
        rw [← digits, Json.digitsValue_digits] at rest
        have none : n / 10 = 0 := rest
        omega

theorem length_padded {width n : Nat} (positive : 0 < width) (short : n < 10 ^ width) :
    (padded width n).length = width := by
  have fits := (Nat.length_toDigits_le_iff (by decide) positive).mpr short
  rw [← digits] at fits
  rw [padded, List.length_append, List.length_replicate]
  omega

theorem twoPlaces_fixed (v : Dyadic) :
    TwoPlaces (fixed .awayFromZero 2 v) v.negative (units .awayFromZero 2 v) := by
  have two : ∀ n, (padded 2 (n % 100)).length = 2 := fun n =>
    length_padded (by decide) (Nat.mod_lt n (by decide))
  refine ⟨_, _, by rw [fixed, String.toList_ofList]; rfl, Json.digital_digits _, head_digits _,
    Json.digital_padded _ _, two _, ?_⟩
  rw [Json.digitsValue_append, Json.digitsValue_digits, two, Json.digitsValue_padded]
  exact Nat.div_add_mod _ 100

theorem TwoPlaces.value {text : String} {negative : Bool} {hundredths : Nat}
    (numeral : TwoPlaces text negative hundredths) :
    numeralValue text = (if negative then -(hundredths : ℚ) else hundredths) / 100 := by
  obtain ⟨whole, places, spelled, digital, -, -, two, value⟩ := numeral
  have parted : splitSign text.toList = (negative, whole ++ '.' :: places) := by
    rw [spelled]
    cases negative with
    | true => rfl
    | false =>
        obtain ⟨nonempty, ds⟩ := digital
        obtain ⟨c, rest, rfl⟩ := List.exists_cons_of_ne_nil nonempty
        have digit := ds c List.mem_cons_self
        change splitSign (c :: (rest ++ '.' :: places)) = _
        unfold splitSign
        split
        · rename_i same
          rw [(List.cons.inj same).1] at digit
          exact absurd digit (by decide)
        · rename_i same
          rw [(List.cons.inj same).1] at digit
          exact absurd digit (by decide)
        · rfl
  have ends : Json.NoDigit ('.' :: places) := fun c head => by
    cases head
    rfl
  simp only [numeralValue, parted, Json.takeWhile_digits digital.2 ends,
    Json.dropWhile_digits digital.2 ends, List.drop_one, List.tail_cons, two, value]
  cases negative <;> norm_num [neg_div]

/-! ## The average of a payload -/

/-- The average is written as the numeral of so many hundredths, or refused if that number has more
    than 28 digits. -/
def Writes (average : Float) (negative : Bool) (hundredths : ℤ) : Prop :=
  if (Nat.digits 10 hundredths.natAbs).length ≤ 28 then
    ∃ text, averageText average = .ok text ∧ TwoPlaces text negative hundredths.natAbs ∧
      numeralValue text = hundredths / 100
  else averageText average = .error (.averageTooLong average)

/-- How an average of this value is written: as the hundredths that are nearest to it, and never as a
    greater number than a greater average. -/
structure Rounds (average : Float) (v : Dyadic) : Prop where
  written : ∃ hundredths, (∀ n, Nearest (100 * v.value) n ↔ n = hundredths) ∧
    Writes average v.negative hundredths
  ordered : ∀ (other : Float) (w : Dyadic) (text text' : String), Dyadic.ofFloat? other = some w →
    v.value ≤ w.value → averageText average = .ok text → averageText other = .ok text' →
      numeralValue text ≤ numeralValue text'

section Average

variable {average : Float} {v : Dyadic}

theorem nearest_hundredths (v : Dyadic) : Nearest (100 * v.value) (signedUnits 2 v) :=
  (by norm_num : (10 : ℚ) ^ 2 = 100) ▸ nearest_signedUnits 2 v

theorem writes_signedUnits (finite : Dyadic.ofFloat? average = some v) :
    Writes average v.negative (signedUnits 2 v) := by
  have short : (Nat.digits 10 (signedUnits 2 v).natAbs).length ≤ 28 ↔
      (digits (units .awayFromZero 2 v)).length ≤ mostAverageDigits := by
    rw [Nat.digits_length_le_iff (by decide), natAbs_signedUnits, digits, mostAverageDigits,
      Nat.length_toDigits_le_iff (by decide) (by decide)]
  rw [Writes, averageText, finite]
  split
  case isTrue fits =>
    refine ⟨_, if_pos (short.mp fits), natAbs_signedUnits 2 v ▸ twoPlaces_fixed v, ?_⟩
    rw [(twoPlaces_fixed v).value, signedUnits]
    split <;> push_cast <;> rfl
  case isFalse long => exact if_neg (short.not.mp long)

theorem numeralValue_averageText (finite : Dyadic.ofFloat? average = some v) {text : String}
    (done : averageText average = .ok text) : numeralValue text = signedUnits 2 v / 100 := by
  have outcome := writes_signedUnits finite
  rw [Writes] at outcome
  split at outcome
  · obtain ⟨text', done', -, value⟩ := outcome
    cases done.symm.trans done'
    exact value
  · cases done.symm.trans outcome

/-- Every finite average is rounded to hundredths. -/
theorem averageText_rounds (finite : Dyadic.ofFloat? average = some v) : Rounds average v where
  written := by
    refine ⟨_, fun n => ⟨fun nearest => ?_, ?_⟩, writes_signedUnits finite⟩
    · exact le_antisymm (nearest.mono (nearest_hundredths v) le_rfl)
        ((nearest_hundredths v).mono nearest le_rfl)
    · rintro rfl
      exact nearest_hundredths v
  ordered other w text text' finite' le done done' := by
    have more : signedUnits 2 v ≤ signedUnits 2 w :=
      (nearest_hundredths v).mono (nearest_hundredths w) (by linarith)
    have ordered : (signedUnits 2 v : ℚ) ≤ signedUnits 2 w := by exact_mod_cast more
    rw [numeralValue_averageText finite done, numeralValue_averageText finite' done']
    linarith

end Average

/-- A negative tie goes away from zero, and a number just below a tie does not. -/
theorem averageText_rounds_ties :
    Dyadic.ofFloat? (-0.125) = some ⟨true, 0x10000000000000, -55⟩ ∧
      Rounds (-0.125) ⟨true, 0x10000000000000, -55⟩ ∧ averageText (-0.125) = .ok "-0.13" ∧
    Dyadic.ofFloat? 1.005 = some ⟨false, 4526117625507348, -52⟩ ∧
      Rounds 1.005 ⟨false, 4526117625507348, -52⟩ ∧ averageText 1.005 = .ok "1.00" := by
  have tie : Dyadic.ofFloat? (-0.125) = some ⟨true, 0x10000000000000, -55⟩ := by decide +kernel
  have below : Dyadic.ofFloat? 1.005 = some ⟨false, 4526117625507348, -52⟩ := by decide +kernel
  exact ⟨tie, averageText_rounds tie,
    averageText_eq_ok_iff.mpr (.inl ⟨_, tie, by decide +kernel, by decide +kernel⟩),
    below, averageText_rounds below,
    averageText_eq_ok_iff.mpr (.inl ⟨_, below, by decide +kernel, by decide +kernel⟩)⟩

end Decimal

end RepoAtlas
