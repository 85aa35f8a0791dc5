import RepoAtlas.Json.Read
import RepoAtlas.Json.Write

/-! # Numerals are read back

The text of a whole number is read as that number. The text of a float is read as the float of the
decimal that the text writes, `Decimal.written`; whether this is the float again is a question about
floats and not about texts. Either way the reader stops where the numeral ends, provided that what
follows cannot continue a numeral.
-/

namespace RepoAtlas

namespace Json

/-! ## Digits -/

theorem digitsValue_eq (ds : List Char) : digitsValue ds = Nat.ofDigitChars 10 ds 0 := by
  simp [digitsValue, Nat.ofDigitChars, Nat.mul_comm]

theorem digitsValue_append (ds more : List Char) :
    digitsValue (ds ++ more) = Nat.pow 10 more.length * digitsValue ds + digitsValue more := by
  rw [digitsValue_eq, Nat.ofDigitChars_append, Nat.ofDigitChars_eq_ofDigitChars_zero,
    digitsValue_eq, digitsValue_eq]
  rfl

theorem digitsValue_zeros (count : Nat) : digitsValue (List.replicate count '0') = 0 := by
  rw [digitsValue_eq, Nat.ofDigitChars_replicate_zero, Nat.mul_zero]

theorem digitsValue_digits (n : Nat) : digitsValue (Decimal.digits n) = n := by
  rw [digitsValue_eq, Decimal.digits, Nat.ofDigitChars_ten_toDigits]

theorem digitsValue_padded (width n : Nat) : digitsValue (Decimal.padded width n) = n := by
  rw [Decimal.padded, digitsValue_append, digitsValue_zeros, digitsValue_digits, Nat.mul_zero,
    Nat.zero_add]

/-- All characters are digits, and there is one. -/
def Digital (ds : List Char) : Prop := ds ≠ [] ∧ ∀ c ∈ ds, c.isDigit = true

theorem digital_digits (n : Nat) : Digital (Decimal.digits n) :=
  ⟨Nat.toDigits_ne_nil, fun _ => Nat.isDigit_of_mem_toDigits (by decide) (by decide)⟩

theorem digital_zero : Digital ['0'] := digital_digits 0

theorem isDigit_of_mem_zeros {count : Nat} {c : Char} (member : c ∈ List.replicate count '0') :
    c.isDigit = true := by
  rw [List.eq_of_mem_replicate member]
  rfl

theorem digital_padded (width n : Nat) : Digital (Decimal.padded width n) := by
  obtain ⟨nonempty, digits⟩ := digital_digits n
  refine ⟨by simp [Decimal.padded, nonempty], fun c member => ?_⟩
  exact (List.mem_append.mp member).elim isDigit_of_mem_zeros (digits c)

/-! ## What may follow -/

/-- The text does not go on with a digit. -/
def NoDigit (rest : List Char) : Prop := ∀ c ∈ rest.head?, c.isDigit = false

/-- The text does not go on with anything that continues a numeral. -/
def Ends (rest : List Char) : Prop :=
  ∀ c ∈ rest.head?, c.isDigit = false ∧ c ≠ '.' ∧ c ≠ 'e' ∧ c ≠ 'E'

theorem Ends.noDigit {rest : List Char} (ends : Ends rest) : NoDigit rest :=
  fun c head => (ends c head).1

theorem ends_nil : Ends [] := fun _ impossible => nomatch impossible

theorem ends_cons {c : Char} {rest : List Char}
    (other : c.isDigit = false ∧ c ≠ '.' ∧ c ≠ 'e' ∧ c ≠ 'E') : Ends (c :: rest) := by
  intro c' head
  cases head
  exact other

theorem NoDigit.takeWhile {rest : List Char} (ends : NoDigit rest) :
    rest.takeWhile Char.isDigit = [] := by
  cases rest with
  | nil => rfl
  | cons c rest => simp [ends c rfl]

theorem takeWhile_digits {ds rest : List Char} (digits : ∀ c ∈ ds, c.isDigit = true)
    (ends : NoDigit rest) : (ds ++ rest).takeWhile Char.isDigit = ds := by
  rw [List.takeWhile_append_of_pos digits, ends.takeWhile, List.append_nil]

theorem dropWhile_digits {ds rest : List Char} (digits : ∀ c ∈ ds, c.isDigit = true)
    (ends : NoDigit rest) : (ds ++ rest).dropWhile Char.isDigit = rest := by
  rw [List.dropWhile_append_of_pos digits]
  cases rest with
  | nil => rfl
  | cons c rest => simp [ends c rfl]

/-! ## The parts of a numeral -/

theorem readPlaces_of_ends {rest : List Char} (noPoint : ∀ c ∈ rest.head?, c ≠ '.') :
    readPlaces rest = (none, rest) := by
  unfold readPlaces
  split
  · exact absurd rfl (noPoint '.' rfl)
  · rfl

theorem readPlaces_point {places rest : List Char} (digits : ∀ c ∈ places, c.isDigit = true)
    (ends : NoDigit rest) : readPlaces ('.' :: (places ++ rest)) = (some places, rest) := by
  rw [readPlaces, takeWhile_digits digits ends, dropWhile_digits digits ends]

theorem readExponent_of_ends {rest : List Char} (ends : Ends rest) :
    readExponent rest = some (none, rest) := by
  cases rest with
  | nil => rfl
  | cons c rest =>
      obtain ⟨-, -, lower, upper⟩ := ends c rfl
      simp [readExponent, lower, upper]

/-- How an exponent is written. -/
def exponentText (exponent : Int) : List Char :=
  'e' :: (if exponent < 0 then '-' else '+') :: Decimal.padded 2 exponent.natAbs

theorem readExponent_exponentText (exponent : Int) {rest : List Char} (ends : NoDigit rest) :
    readExponent (exponentText exponent ++ rest) = some (some exponent, rest) := by
  obtain ⟨nonempty, digits⟩ := digital_padded 2 exponent.natAbs
  have value : ((digitsValue (Decimal.padded 2 exponent.natAbs) : Nat) : Int) =
      exponent.natAbs := by rw [digitsValue_padded]
  have filled : (Decimal.padded 2 exponent.natAbs).isEmpty = false := by simp [nonempty]
  by_cases negative : exponent < 0
  · simp only [exponentText, negative, if_true, List.cons_append, readExponent, true_or,
      takeWhile_digits digits ends, dropWhile_digits digits ends, filled, Bool.false_eq_true,
      if_false, value]
    congr 3
    omega
  · simp only [exponentText, negative, if_false, List.cons_append, readExponent, true_or, if_true,
      takeWhile_digits digits ends, dropWhile_digits digits ends, filled, Bool.false_eq_true, value]
    congr 3
    omega

theorem readMagnitude_int (negative : Bool) {ds rest : List Char} (digital : Digital ds)
    (ends : Ends rest) :
    readMagnitude negative (ds ++ rest) =
      some (.int (if negative then -(digitsValue ds : Int) else digitsValue ds), rest) := by
  obtain ⟨nonempty, digits⟩ := digital
  simp [readMagnitude, takeWhile_digits digits ends.noDigit, dropWhile_digits digits ends.noDigit,
    readPlaces_of_ends fun c head => (ends c head).2.1, readExponent_of_ends ends, nonempty]

/-- With a point or an exponent behind its digits a number is a float. -/
theorem readMagnitude_float (negative : Bool) {ds rest more rest' : List Char}
    {places : Option (List Char)} {exponent : Option Int} (digital : Digital ds)
    (ends : NoDigit rest) (point : readPlaces rest = (places, more)) (filled : places ≠ some [])
    (power : readExponent more = some (exponent, rest'))
    (marked : places ≠ none ∨ exponent ≠ none) :
    readMagnitude negative (ds ++ rest) =
      some (.float (decimalFloat negative (digitsValue (ds ++ places.getD []))
        (exponent.getD 0 - (places.getD []).length)), rest') := by
  obtain ⟨nonempty, digits⟩ := digital
  simp only [readMagnitude, takeWhile_digits digits ends, dropWhile_digits digits ends, point,
    power]
  match places, exponent with
  | none, none => simp at marked
  | some [], _ => exact absurd rfl filled
  | none, some _ | some (_ :: _), _ => simp [nonempty]

theorem noDigit_cons {c : Char} {rest : List Char} (other : c.isDigit = false) :
    NoDigit (c :: rest) := by
  intro c' head
  cases head
  exact other

theorem noDigit_exponentText (exponent : Int) (rest : List Char) :
    NoDigit (exponentText exponent ++ rest) := noDigit_cons rfl

theorem readMagnitude_point (negative : Bool) {ds places rest : List Char} (digital : Digital ds)
    (digital' : Digital places) (ends : Ends rest) :
    readMagnitude negative (ds ++ '.' :: (places ++ rest)) =
      some (.float (decimalFloat negative (digitsValue (ds ++ places)) (-places.length)),
        rest) := by
  rw [readMagnitude_float negative digital (noDigit_cons rfl)
    (readPlaces_point digital'.2 ends.noDigit) (by simp [digital'.1]) (readExponent_of_ends ends)
    (.inl (by simp))]
  simp

theorem readMagnitude_power (negative : Bool) {ds rest : List Char} (digital : Digital ds)
    (exponent : Int) (ends : Ends rest) :
    readMagnitude negative (ds ++ (exponentText exponent ++ rest)) =
      some (.float (decimalFloat negative (digitsValue ds) exponent), rest) := by
  rw [readMagnitude_float negative digital (noDigit_exponentText exponent rest)
    (readPlaces_of_ends (by simp [exponentText])) (by simp)
    (readExponent_exponentText exponent ends.noDigit) (.inr (by simp))]
  simp

theorem readMagnitude_point_power (negative : Bool) {ds places rest : List Char}
    (digital : Digital ds) (digital' : Digital places) (exponent : Int) (ends : Ends rest) :
    readMagnitude negative (ds ++ '.' :: (places ++ (exponentText exponent ++ rest))) =
      some (.float (decimalFloat negative (digitsValue (ds ++ places))
        (exponent - places.length)), rest) := by
  rw [readMagnitude_float negative digital (noDigit_cons rfl)
    (readPlaces_point digital'.2 (noDigit_exponentText exponent rest)) (by simp [digital'.1])
    (readExponent_exponentText exponent ends.noDigit) (.inl (by simp))]
  simp

/-- What can be read behind a sign begins with a digit, so it can be read without a sign. -/
theorem readNumber_unsigned {cs rest : List Char} {number : Json}
    (read : readMagnitude false cs = some (number, rest)) :
    readNumber cs = some (number, rest) := by
  unfold readNumber
  split
  · cases read
  · exact read

theorem readNumber_int (n : Int) {rest : List Char} (ends : Ends rest) :
    readNumber (writeInt n ++ rest) = some (.int n, rest) := by
  have digital := digital_digits n.natAbs
  have value : ((digitsValue (Decimal.digits n.natAbs) : Nat) : Int) = n.natAbs := by
    rw [digitsValue_digits]
  unfold writeInt
  split
  · rw [List.cons_append, readNumber, readMagnitude_int true digital ends, value, if_pos rfl]
    congr 3
    omega
  · rw [readNumber_unsigned (readMagnitude_int false digital ends), value,
      if_neg Bool.false_ne_true]
    congr 3
    omega

end Json

/-! ## Floats -/

namespace Decimal

/-- The decimal that is written for digits, as a whole number and a power of ten. A whole float
    keeps a zero behind its point. -/
def Digits.written (d : Digits) : Nat × Int :=
  let width := (padded d.count d.digits).length
  if width ≤ d.point ∧ d.point ≤ plainLayout.mostPoint then
    (d.digits * Nat.pow 10 ((d.point - width).toNat + 1), -1)
  else (d.digits, d.point - width)

/-- The decimal that is written for the magnitude of a float. -/
def written (v : Dyadic) : Nat × Int :=
  if v.mantissa = 0 then (0, -1) else (shortest v).written

/-- The decimal that is written for the float reads back as the float. -/
def ReadsBack (x : Float) : Prop :=
  ∀ v ∈ Dyadic.ofFloat? x, Json.decimalFloat v.negative (written v).1 (written v).2 = x

instance (x : Float) : Decidable (ReadsBack x) :=
  inferInstanceAs (Decidable (∀ v ∈ Dyadic.ofFloat? x,
    Json.decimalFloat v.negative (written v).1 (written v).2 = x))

end Decimal

namespace Json

open Decimal

/-- Zeros stand between the point and the first digit. -/
theorem readMagnitude_behind (negative : Bool) {ds rest : List Char} (digital : Digital ds)
    (zeros : Nat) (ends : Ends rest) :
    readMagnitude negative ('0' :: '.' :: (List.replicate zeros '0' ++ (ds ++ rest))) =
      some (.float (decimalFloat negative (digitsValue ds) (-(zeros + ds.length : Nat))),
        rest) := by
  have places : Digital (List.replicate zeros '0' ++ ds) := by
    refine ⟨by simp [digital.1], fun c member => ?_⟩
    exact (List.mem_append.mp member).elim isDigit_of_mem_zeros (digital.2 c)
  have number : digitsValue (['0'] ++ (List.replicate zeros '0' ++ ds)) = digitsValue ds := by
    rw [digitsValue_append, digitsValue_append, digitsValue_zeros]
    simp [digitsValue]
  have read := readMagnitude_point negative digital_zero places ends
  rw [number, List.length_append, List.length_replicate, List.append_assoc] at read
  exact read

/-- Zeros fill the place up to the point, and one stands behind it. -/
theorem readMagnitude_whole (negative : Bool) {ds rest : List Char} (digital : Digital ds)
    (zeros : Nat) (ends : Ends rest) :
    readMagnitude negative (ds ++ (List.replicate zeros '0' ++ '.' :: '0' :: rest)) =
      some (.float (decimalFloat negative (digitsValue ds * Nat.pow 10 (zeros + 1)) (-1)),
        rest) := by
  have whole : Digital (ds ++ List.replicate zeros '0') := by
    refine ⟨by simp [digital.1], fun c member => ?_⟩
    exact (List.mem_append.mp member).elim (digital.2 c) isDigit_of_mem_zeros
  have number : digitsValue (ds ++ List.replicate zeros '0' ++ ['0']) =
      digitsValue ds * Nat.pow 10 (zeros + 1) := by
    rw [List.append_assoc, ← List.replicate_succ', digitsValue_append, digitsValue_zeros,
      List.length_replicate]
    exact Nat.mul_comm _ _
  have read := readMagnitude_point negative whole digital_zero ends
  rw [number, List.append_assoc] at read
  exact read

/-- The point stands between two digits. -/
theorem readMagnitude_between (negative : Bool) {ds rest : List Char} (digital : Digital ds)
    {place : Nat} (after : 0 < place) (before : place < ds.length) (ends : Ends rest) :
    readMagnitude negative (ds.take place ++ '.' :: (ds.drop place ++ rest)) =
      some (.float (decimalFloat negative (digitsValue ds) (-(ds.length - place : Nat))),
        rest) := by
  have front : Digital (ds.take place) :=
    ⟨by simp [digital.1]; omega, fun c member => digital.2 c (List.mem_of_mem_take member)⟩
  have back : Digital (ds.drop place) :=
    ⟨by simp; omega, fun c member => digital.2 c (List.mem_of_mem_drop member)⟩
  have read := readMagnitude_point negative front back ends
  rwa [List.take_append_drop, List.length_drop] at read

/-- The first digit stands in front of the point, and an exponent behind the last. -/
theorem readMagnitude_power_digits (negative : Bool) {first : Char} {ds rest : List Char}
    (digital : Digital (first :: ds)) (exponent : Int) (ends : Ends rest) :
    readMagnitude negative
        (first :: ((if ds = [] then [] else '.' :: ds) ++ (exponentText exponent ++ rest))) =
      some (.float (decimalFloat negative (digitsValue (first :: ds)) (exponent - ds.length)),
        rest) := by
  match ds with
  | [] => simpa using readMagnitude_power negative digital exponent ends
  | second :: more =>
      have front : Digital [first] := ⟨by simp, fun c member => digital.2 c (by simp_all)⟩
      have back : Digital (second :: more) :=
        ⟨by simp, fun c member => digital.2 c (List.mem_cons_of_mem _ member)⟩
      exact readMagnitude_point_power negative front back exponent ends

/-- Digits laid out are read as the decimal that they write. -/
theorem readMagnitude_place (negative : Bool) (d : Digits) {rest : List Char} (ends : Ends rest) :
    readMagnitude negative (plainLayout.place d ++ rest) =
      some (.float (decimalFloat negative d.written.1 d.written.2), rest) := by
  have digital := digital_padded d.count d.digits
  have value := digitsValue_padded d.count d.digits
  have least : plainLayout.leastPoint = -3 := rfl
  have most : plainLayout.mostPoint = 16 := rfl
  have mark : plainLayout.exponentMark :: (if d.point - 1 < 0 then '-' else '+') ::
      padded plainLayout.exponentWidth (d.point - 1).natAbs = exponentText (d.point - 1) := rfl
  simp only [Layout.place, Digits.written, mark]
  generalize padded d.count d.digits = ds at digital value ⊢
  have full : 0 < ds.length := List.length_pos_iff.mpr digital.1
  by_cases positional : plainLayout.leastPoint ≤ d.point ∧ d.point ≤ plainLayout.mostPoint
  · rw [if_pos (by simpa using positional)]
    by_cases behind : d.point ≤ 0
    · have read := readMagnitude_behind negative digital (-d.point).toNat ends
      have places : (-((-d.point).toNat + ds.length : Nat) : Int) = d.point - ds.length := by omega
      rw [value, places] at read
      rw [if_pos behind, if_neg (by omega)]
      simpa using read
    · rw [if_neg behind]
      by_cases whole : ds.length ≤ d.point.toNat
      · have read := readMagnitude_whole negative digital (d.point.toNat - ds.length) ends
        have count : d.point.toNat - ds.length = (d.point - ds.length).toNat := by omega
        rw [value] at read
        rw [if_pos whole, if_pos (by omega), ← count]
        simpa using read
      · have read := readMagnitude_between negative digital (by omega) (Nat.lt_of_not_le whole) ends
        have places : (-(ds.length - d.point.toNat : Nat) : Int) = d.point - ds.length := by omega
        rw [value, places] at read
        rw [if_neg whole, if_neg (by omega)]
        simpa using read
  · rw [if_neg (by simpa using positional), if_neg (by omega)]
    match ds with
    | [] => exact absurd rfl digital.1
    | [first] =>
        have read := readMagnitude_power_digits negative digital (d.point - 1) ends
        rw [value] at read
        simpa using read
    | first :: second :: more =>
        have read := readMagnitude_power_digits negative digital (d.point - 1) ends
        have places : d.point - 1 - ((second :: more).length : Int) =
            d.point - ((first :: second :: more).length : Int) := by
          simp only [List.length_cons]
          omega
        rw [value, places] at read
        simpa using read

/-- The text of a finite float is read as the decimal that it writes, and so as the float if the
    decimal reads back. -/
theorem readNumber_write {x : Float} (finite : (Dyadic.ofFloat? x).isSome = true)
    (back : ReadsBack x) {rest : List Char} (ends : Ends rest) :
    readNumber ((Decimal.write x).toList ++ rest) = some (.float x, rest) := by
  obtain ⟨v, value⟩ := Option.isSome_iff_exists.mp finite
  have same := back v value
  have read : readMagnitude v.negative
      ((if v.mantissa = 0 then ['0', '.', '0'] else plainLayout.place (shortest v)) ++ rest) =
        some (.float x, rest) := by
    unfold written at same
    split at same
    · rw [if_pos ‹_›, ← same]
      exact readMagnitude_point v.negative digital_zero digital_zero ends
    · rw [if_neg ‹_›, readMagnitude_place v.negative _ ends, same]
  simp only [Decimal.write, Layout.write, value, String.toList_ofList]
  cases sign : v.negative with
  | true =>
      rw [sign] at read
      simpa [readNumber] using read
  | false =>
      rw [sign] at read
      simpa using readNumber_unsigned read

end Json

end RepoAtlas
