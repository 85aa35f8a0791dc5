import Mathlib.Order.Nat
import RepoAtlas.Proofs.Json.Numeral

/-! # What is written is read back

Reading the text of a value gives the value again, whatever the indent, if its floats are finite and
their decimals read back. The parts of a value are read by the same functions with what is written
behind them still to come, so every statement here says what is left as well. Every round of the
reader takes at least one character, so the length of the text is fuel enough.
-/

namespace RepoAtlas.Json

/-! ## Strings -/

theorem hexValue?_digit : ∀ k < 16, hexValue? ("0123456789abcdef".toList.getD k '0') = some k := by
  decide

theorem readUnit_unitDigits {n : Nat} (small : n < 65536) (rest : List Char) :
    readUnit (unitDigits n ++ rest) = some (n, rest) := by
  have digit (k : Nat) := hexValue?_digit (k % 16) (Nat.mod_lt k (by decide))
  simp only [unitDigits, List.cons_append, List.nil_append, readUnit, digit]
  simp
  omega

theorem readEscape_unit {c : Char} (small : c.toNat < 32) (rest : List Char) :
    readEscape ('u' :: (unitDigits c.toNat ++ rest)) = some (c, rest) := by
  have noHigh : ¬(0xD800 ≤ c.toNat ∧ c.toNat < 0xDC00) := by omega
  have noLow : ¬(0xDC00 ≤ c.toNat ∧ c.toNat < 0xE000) := by omega
  rw [readEscape, readUnit_unitDigits (by omega), Option.bind_eq_bind, Option.bind_some]
  dsimp only
  rw [if_neg noHigh, if_neg noLow, Char.ofNat_toNat]

/-- The text of a character takes one round. -/
theorem readStringRest_writeChar (fuel : Nat) (acc : List Char) (c : Char) (rest : List Char) :
    readStringRest (fuel + 1) acc (writeChar false c ++ rest) =
      readStringRest fuel (c :: acc) rest := by
  unfold writeChar
  split
  any_goals rfl
  rename_i noQuote noBackslash _ _ _ _ _
  split
  · rename_i small
    rw [unitEscape, List.cons_append, List.cons_append, readStringRest, readEscape_unit small]
  · rename_i large
    simp only [Bool.false_and, Bool.false_eq_true, if_false, List.cons_append, List.nil_append]
    rw [readStringRest, if_neg large]
    · exact noQuote
    · exact noBackslash

theorem readStringRest_flatMap (cs acc rest : List Char) {fuel : Nat} (enough : cs.length < fuel) :
    readStringRest fuel acc (cs.flatMap (writeChar false) ++ '"' :: rest) =
      some (String.ofList (acc.reverse ++ cs), rest) := by
  induction cs generalizing acc fuel with
  | nil =>
      obtain ⟨fuel, rfl⟩ := Nat.exists_eq_add_of_lt enough
      simp [readStringRest]
  | cons c cs ih =>
      obtain ⟨fuel, rfl⟩ := Nat.exists_eq_add_of_lt enough
      rw [List.flatMap_cons, List.append_assoc, readStringRest_writeChar, ih]
      · simp
      · rw [List.length_cons]
        omega

theorem length_le_flatMap (cs : List Char) :
    cs.length ≤ (cs.flatMap (writeChar false)).length := by
  induction cs with
  | nil => exact Nat.le_refl 0
  | cons c cs ih =>
      have one : 0 < (writeChar false c).length := by
        unfold writeChar
        split <;> (try split) <;> simp [unitEscape]
      rw [List.flatMap_cons, List.length_append, List.length_cons]
      omega

theorem length_writeString (s : String) : s.toList.length + 2 ≤ (writeString false s).length := by
  have := length_le_flatMap s.toList
  simp only [writeString, List.cons_append, List.length_cons, List.length_append, List.length_nil]
  omega

/-- Behind its opening quote a string is read up to its closing one. -/
theorem readStringRest_writeString (s : String) {fuel : Nat} (rest : List Char)
    (enough : (writeString false s).length ≤ fuel) :
    ∃ body, writeString false s ++ rest = '"' :: body ∧
      readStringRest fuel [] body = some (s, rest) := by
  have := length_writeString s
  refine ⟨s.toList.flatMap (writeChar false) ++ '"' :: rest, by simp [writeString], ?_⟩
  rw [readStringRest_flatMap s.toList [] rest (by omega), List.reverse_nil, List.nil_append,
    String.ofList_toList]

/-! ## Blanks -/

/-- Nothing but blanks. -/
def Blanks (gap : List Char) : Prop := ∀ c ∈ gap, isBlank c = true

theorem skipBlanks_append {gap : List Char} (blank : Blanks gap) (cs : List Char) :
    skipBlanks (gap ++ cs) = skipBlanks cs := List.dropWhile_append_of_pos blank

theorem skipBlanks_cons {c : Char} (visible : isBlank c = false) (cs : List Char) :
    skipBlanks (c :: cs) = c :: cs := by simp [skipBlanks, visible]

theorem skipBlanks_skipBlanks (cs : List Char) : skipBlanks (skipBlanks cs) = skipBlanks cs := by
  induction cs with
  | nil => rfl
  | cons c cs ih =>
      cases blank : isBlank c with
      | true => simpa [skipBlanks, blank] using ih
      | false => rw [skipBlanks_cons blank, skipBlanks_cons blank]

theorem blanks_lineBreak (indent : Option Nat) (depth : Nat) : Blanks (lineBreak indent depth) := by
  intro c member
  unfold lineBreak at member
  split at member
  · cases member
  · rcases List.mem_cons.mp member with rfl | blank
    · rfl
    · rw [List.eq_of_mem_replicate blank]
      rfl

/-- A separator is a comma and blanks. -/
theorem exists_separator (indent : Option Nat) (depth : Nat) :
    ∃ gap, separator indent depth = ',' :: gap ∧ Blanks gap := by
  cases indent with
  | none => exact ⟨[' '], rfl, by simp [Blanks, isBlank]⟩
  | some width => exact ⟨_, rfl, blanks_lineBreak (some width) depth⟩

/-! ## Values -/

mutual

/-- The floats in a value. -/
def floats : Json → List Float
  | .float x => [x]
  | .arr items => itemFloats items
  | .obj members => memberFloats members
  | _ => []

/-- The floats in the items of a list. -/
def itemFloats : List Json → List Float
  | [] => []
  | item :: rest => floats item ++ itemFloats rest

/-- The floats in the members of an object. -/
def memberFloats : List (String × Json) → List Float
  | [] => []
  | (_, value) :: rest => floats value ++ memberFloats rest

end

/-- A float that is finite and whose decimal reads back. -/
def Legible (x : Float) : Prop := (Dyadic.ofFloat? x).isSome = true ∧ Decimal.ReadsBack x

theorem readValue_skipBlanks (fuel : Nat) (cs : List Char) :
    readValue fuel (skipBlanks cs) = readValue fuel cs := by
  cases fuel with
  | zero => rfl
  | succ fuel => rw [readValue, readValue, skipBlanks_skipBlanks]

theorem readValue_append {gap : List Char} (blank : Blanks gap) (fuel : Nat)
    (cs : List Char) : readValue fuel (gap ++ cs) = readValue fuel cs := by
  rw [← readValue_skipBlanks, skipBlanks_append blank, readValue_skipBlanks]

theorem readMember_skipBlanks (fuel : Nat) (cs : List Char) :
    readMember fuel (skipBlanks cs) = readMember fuel cs := by
  cases fuel with
  | zero => rfl
  | succ fuel => rw [readMember, readMember, skipBlanks_skipBlanks]

theorem readMember_append {gap : List Char} (blank : Blanks gap) (fuel : Nat)
    (cs : List Char) : readMember fuel (gap ++ cs) = readMember fuel cs := by
  rw [← readMember_skipBlanks, skipBlanks_append blank, readMember_skipBlanks]

theorem head_of_readNumber {cs rest : List Char} {number : Json}
    (read : readNumber cs = some (number, rest)) :
    ∃ c tail, cs = c :: tail ∧ (c = '-' ∨ c.isDigit = true) := by
  unfold readNumber at read
  split at read
  · exact ⟨'-', _, rfl, .inl rfl⟩
  · match cs with
    | [] => cases read
    | c :: tail =>
        refine ⟨c, tail, rfl, .inr ?_⟩
        by_contra other
        simp [readMagnitude, List.takeWhile_cons_of_neg other] at read

theorem readValue_number {cs rest : List Char} {number : Json}
    (read : readNumber cs = some (number, rest)) (fuel : Nat) :
    readValue (fuel + 1) cs = some (number, rest) := by
  obtain ⟨c, tail, rfl, begins⟩ := head_of_readNumber read
  have visible : isBlank c = false := by
    by_contra blank
    simp only [isBlank, Bool.not_eq_false, Bool.or_eq_true, decide_eq_true_eq] at blank
    rcases blank with ((rfl | rfl) | rfl) | rfl <;> simp at begins
  rw [readValue, skipBlanks_cons visible]
  split
  any_goals
    rename_i same
    obtain ⟨rfl, -⟩ := List.cons.inj same
    simp at begins
  exact read

/-! What a sign asks the reader to do, one equation for each. -/

theorem readValue_quote (fuel : Nat) (cs : List Char) :
    readValue (fuel + 1) ('"' :: cs) =
      match readStringRest (fuel + 1) [] cs with
      | some (s, rest) => some (.str s, rest)
      | none => none := by
  rw [readValue]
  rfl

theorem readValue_bracket (fuel : Nat) (cs : List Char) :
    readValue (fuel + 1) ('[' :: cs) =
      match skipBlanks cs with
      | ']' :: rest => some (.arr [], rest)
      | rest =>
        match readValue fuel rest with
        | some (item, rest) => readItems fuel [item] rest
        | none => none := by
  rw [readValue]
  rfl

theorem readValue_brace (fuel : Nat) (cs : List Char) :
    readValue (fuel + 1) ('\x7b' :: cs) =
      match skipBlanks cs with
      | '\x7d' :: rest => some (.obj [], rest)
      | rest =>
        match readMember fuel rest with
        | some (member, rest) => readMembers fuel [member] rest
        | none => none := by
  rw [readValue]
  rfl

theorem readItems_comma (fuel : Nat) (acc : List Json) (cs : List Char) :
    readItems (fuel + 1) acc (',' :: cs) =
      match readValue fuel cs with
      | some (item, rest) => readItems fuel (item :: acc) rest
      | none => none := by
  rw [readItems]
  rfl

theorem readMembers_comma (fuel : Nat) (acc : List (String × Json)) (cs : List Char) :
    readMembers (fuel + 1) acc (',' :: cs) =
      match readMember fuel cs with
      | some (member, rest) => readMembers fuel (member :: acc) rest
      | none => none := by
  rw [readMembers]
  rfl

theorem readMember_quote (fuel : Nat) (cs : List Char) :
    readMember (fuel + 1) ('"' :: cs) =
      match readStringRest (fuel + 1) [] cs with
      | some (name, rest) =>
        match skipBlanks rest with
        | ':' :: rest =>
          match readValue fuel rest with
          | some (value, rest) => some ((name, value), rest)
          | none => none
        | _ => none
      | none => none := by
  rw [readMember]
  rfl

theorem readMember_writeString (name : String) {value : Json} {fuel : Nat} {cs rest : List Char}
    (enough : (writeString false name).length ≤ fuel + 1)
    (read : readValue fuel cs = some (value, rest)) :
    readMember (fuel + 1) (writeString false name ++ (':' :: ' ' :: cs)) =
      some ((name, value), rest) := by
  obtain ⟨body, written, inside⟩ :=
    readStringRest_writeString name (':' :: ' ' :: cs) enough
  have gap : Blanks [' '] := by simp [Blanks, isBlank]
  have blank : readValue fuel (' ' :: cs) = some (value, rest) :=
    (readValue_append gap fuel cs).trans read
  rw [written, readMember_quote, inside]
  have colon : skipBlanks (':' :: ' ' :: cs) = ':' :: ' ' :: cs := skipBlanks_cons rfl _
  simp only [colon, blank]

/-- A value that can be read is no closing bracket. -/
theorem skipBlanks_ne_bracket {fuel : Nat} {cs rest : List Char} {value : Json}
    (read : readValue fuel cs = some (value, rest)) (more : List Char) :
    skipBlanks cs ≠ ']' :: more := by
  intro close
  cases fuel with
  | zero => cases read
  | succ fuel =>
      rw [readValue, close] at read
      cases read

/-- A member that can be read is no closing brace. -/
theorem skipBlanks_ne_brace {fuel : Nat} {cs rest : List Char} {member : String × Json}
    (read : readMember fuel cs = some (member, rest)) (more : List Char) :
    skipBlanks cs ≠ '\x7d' :: more := by
  intro close
  cases fuel with
  | zero => cases read
  | succ fuel =>
      rw [readMember, close] at read
      cases read

theorem readValue_arr {fuel : Nat} {gap cs more : List Char} {item : Json}
    (blank : Blanks gap) (read : readValue fuel cs = some (item, more)) :
    readValue (fuel + 1) ('[' :: (gap ++ cs)) = readItems fuel [item] more := by
  rw [readValue_bracket, skipBlanks_append blank]
  split
  · exact absurd ‹_› (skipBlanks_ne_bracket read _)
  · rw [readValue_skipBlanks, read]

theorem readValue_obj {fuel : Nat} {gap cs more : List Char} {member : String × Json}
    (blank : Blanks gap) (read : readMember fuel cs = some (member, more)) :
    readValue (fuel + 1) ('\x7b' :: (gap ++ cs)) = readMembers fuel [member] more := by
  rw [readValue_brace, skipBlanks_append blank]
  split
  · exact absurd ‹_› (skipBlanks_ne_brace read _)
  · rw [readMember_skipBlanks, read]

theorem readItems_cons {fuel : Nat} {acc : List Json} {gap cs more : List Char} {item : Json}
    (blank : Blanks gap) (read : readValue fuel cs = some (item, more)) :
    readItems (fuel + 1) acc (',' :: (gap ++ cs)) = readItems fuel (item :: acc) more := by
  rw [readItems_comma, readValue_append blank, read]

theorem readMembers_cons {fuel : Nat} {acc : List (String × Json)} {gap cs more : List Char}
    {member : String × Json} (blank : Blanks gap)
    (read : readMember fuel cs = some (member, more)) :
    readMembers (fuel + 1) acc (',' :: (gap ++ cs)) = readMembers fuel (member :: acc) more := by
  rw [readMembers_comma, readMember_append blank, read]

theorem readItems_nil {fuel : Nat} (acc : List Json) {gap : List Char}
    (blank : Blanks gap) (rest : List Char) :
    readItems (fuel + 1) acc (gap ++ ']' :: rest) = some (.arr acc.reverse, rest) := by
  rw [readItems, skipBlanks_append blank, skipBlanks_cons rfl]
  rfl

theorem readMembers_nil {fuel : Nat} (acc : List (String × Json)) {gap : List Char}
    (blank : Blanks gap) (rest : List Char) :
    readMembers (fuel + 1) acc (gap ++ '\x7d' :: rest) = some (.obj acc.reverse, rest) := by
  rw [readMembers, skipBlanks_append blank, skipBlanks_cons rfl]
  rfl

/-! ## Round trip -/

section

variable (indent : Option Nat)

theorem ends_append {gap : List Char} (blank : Blanks gap) {rest : List Char}
    (ends : Ends rest) : Ends (gap ++ rest) := by
  cases gap with
  | nil => exact ends
  | cons c gap =>
      refine ends_cons ?_
      have first := blank c (by simp)
      simp only [isBlank, Bool.or_eq_true, decide_eq_true_eq] at first
      rcases first with ((rfl | rfl) | rfl) | rfl <;> decide

theorem ends_writeItems {gap : List Char} (blank : Blanks gap) (depth : Nat)
    (items : List Json) (rest : List Char) :
    Ends (writeItems false indent depth items ++ (gap ++ ']' :: rest)) := by
  cases items with
  | nil => exact ends_append blank (ends_cons (by decide))
  | cons item items =>
      obtain ⟨between, comma, -⟩ := exists_separator indent depth
      rw [writeItems, comma]
      exact ends_cons (by decide)

theorem ends_writeMembers {gap : List Char} (blank : Blanks gap) (depth : Nat)
    (members : List (String × Json)) (rest : List Char) :
    Ends (writeMembers false indent depth members ++ (gap ++ '\x7d' :: rest)) := by
  cases members with
  | nil => exact ends_append blank (ends_cons (by decide))
  | cons member members =>
      obtain ⟨between, comma, -⟩ := exists_separator indent depth
      rw [writeMembers, comma]
      exact ends_cons (by decide)

mutual

theorem readValue_writeAt : ∀ (v : Json), (∀ x ∈ v.floats, Legible x) →
    ∀ (fuel depth : Nat) (rest : List Char), (writeAt false indent depth v).length ≤ fuel →
      Ends rest → readValue (fuel + 1) (writeAt false indent depth v ++ rest) = some (v, rest)
  | .null, _, fuel, depth, rest, _, _ => by
    rw [writeAt, readValue]
    rfl
  | .bool true, _, fuel, depth, rest, _, _ => by
    rw [writeAt, readValue]
    rfl
  | .bool false, _, fuel, depth, rest, _, _ => by
    rw [writeAt, readValue]
    rfl
  | .int n, _, fuel, depth, rest, _, ends => by
    rw [writeAt]
    exact readValue_number (readNumber_int n ends) fuel
  | .float x, legible, fuel, depth, rest, _, ends => by
    obtain ⟨finite, back⟩ := legible x (by simp [floats])
    rw [writeAt]
    exact readValue_number (readNumber_write finite back ends) fuel
  | .str s, _, fuel, depth, rest, enough, _ => by
    rw [writeAt] at enough ⊢
    obtain ⟨body, written, read⟩ :=
      readStringRest_writeString s rest (Nat.le_succ_of_le enough)
    rw [written, readValue_quote, read]
  | .arr [], _, fuel, depth, rest, _, _ => by
    rw [writeAt, List.cons_append, readValue_bracket]
    rfl
  | .arr (item :: items), legible, fuel, depth, rest, enough, _ => by
    have inner := blanks_lineBreak indent (depth + 1)
    have outer := blanks_lineBreak indent depth
    simp only [writeAt, List.cons_append, List.append_assoc, List.nil_append, List.length_cons,
      List.length_append, List.length_nil] at enough ⊢
    obtain ⟨fuel, rfl⟩ : ∃ g, fuel = g + 1 := ⟨fuel - 1, by omega⟩
    have first := readValue_writeAt item
      (fun x member => legible x (by simp [floats, itemFloats, member])) fuel (depth + 1) _
      (by omega) (ends_writeItems indent outer (depth + 1) items rest)
    rw [readValue_arr inner first, readItems_writeItems items
      (fun x member => legible x (by simp [floats, itemFloats, member])) fuel (depth + 1) [item]
      (lineBreak indent depth) rest (by omega) outer]
    rfl
  | .obj [], _, fuel, depth, rest, _, _ => by
    rw [writeAt, List.cons_append, readValue_brace]
    rfl
  | .obj ((name, value) :: members), legible, fuel, depth, rest, enough, _ => by
    have inner := blanks_lineBreak indent (depth + 1)
    have outer := blanks_lineBreak indent depth
    simp only [writeAt, List.cons_append, List.append_assoc, List.nil_append, List.length_cons,
      List.length_append, List.length_nil] at enough ⊢
    obtain ⟨fuel, rfl⟩ : ∃ g, fuel = g + 2 := ⟨fuel - 2, by omega⟩
    have first := readValue_writeAt value
      (fun x member => legible x (by simp [floats, memberFloats, member])) fuel (depth + 1) _
      (by omega) (ends_writeMembers indent outer (depth + 1) members rest)
    rw [readValue_obj inner (readMember_writeString name (by omega) first),
      readMembers_writeMembers members
        (fun x member => legible x (by simp [floats, memberFloats, member])) (fuel + 1) (depth + 1)
        [(name, value)] (lineBreak indent depth) rest (by omega) outer]
    rfl

theorem readItems_writeItems : ∀ (items : List Json), (∀ x ∈ itemFloats items, Legible x) →
    ∀ (fuel depth : Nat) (acc : List Json) (gap rest : List Char),
      (writeItems false indent depth items).length ≤ fuel → Blanks gap →
      readItems (fuel + 1) acc (writeItems false indent depth items ++ (gap ++ ']' :: rest)) =
        some (.arr (acc.reverse ++ items), rest)
  | [], _, fuel, depth, acc, gap, rest, _, blank => by
    simpa [writeItems] using readItems_nil acc blank rest
  | item :: items, legible, fuel, depth, acc, gap, rest, enough, blank => by
    obtain ⟨between, comma, blank'⟩ := exists_separator indent depth
    simp only [writeItems, comma, List.cons_append, List.append_assoc, List.length_cons,
      List.length_append] at enough ⊢
    obtain ⟨fuel, rfl⟩ : ∃ g, fuel = g + 1 := ⟨fuel - 1, by omega⟩
    have here := readValue_writeAt item (fun x member => legible x (by simp [itemFloats, member]))
      fuel depth _ (by omega) (ends_writeItems indent blank depth items rest)
    rw [readItems_cons blank' here, readItems_writeItems items
      (fun x member => legible x (by simp [itemFloats, member])) fuel depth (item :: acc) gap rest
      (by omega) blank, List.reverse_cons, List.append_assoc]
    rfl

theorem readMembers_writeMembers : ∀ (members : List (String × Json)),
    (∀ x ∈ memberFloats members, Legible x) →
    ∀ (fuel depth : Nat) (acc : List (String × Json)) (gap rest : List Char),
      (writeMembers false indent depth members).length ≤ fuel → Blanks gap →
      readMembers (fuel + 1) acc
          (writeMembers false indent depth members ++ (gap ++ '\x7d' :: rest)) =
        some (.obj (acc.reverse ++ members), rest)
  | [], _, fuel, depth, acc, gap, rest, _, blank => by
    simpa [writeMembers] using readMembers_nil acc blank rest
  | (name, value) :: members, legible, fuel, depth, acc, gap, rest, enough, blank => by
    obtain ⟨between, comma, blank'⟩ := exists_separator indent depth
    simp only [writeMembers, comma, List.cons_append, List.append_assoc, List.nil_append,
      List.length_cons, List.length_append] at enough ⊢
    obtain ⟨fuel, rfl⟩ : ∃ g, fuel = g + 2 := ⟨fuel - 2, by omega⟩
    have here := readValue_writeAt value
      (fun x member => legible x (by simp [memberFloats, member])) fuel depth _ (by omega)
      (ends_writeMembers indent blank depth members rest)
    rw [readMembers_cons blank' (readMember_writeString name (by omega) here),
      readMembers_writeMembers members
        (fun x member => legible x (by simp [memberFloats, member])) (fuel + 1) depth
        ((name, value) :: acc) gap rest (by omega) blank, List.reverse_cons, List.append_assoc]
    rfl

end

/-- Reading the text of a value gives the value, whatever the indent. -/
theorem parse?_text {v : Json} (legible : ∀ x ∈ v.floats, Legible x) :
    parse? (v.text false indent) = some v := by
  have read := readValue_writeAt indent v legible _ 0 [] (Nat.le_refl _) ends_nil
  rw [List.append_nil] at read
  simp only [parse?, text, String.toList_ofList, read]
  rfl

end

end RepoAtlas.Json
