import Mathlib.Order.Nat
import RepoAtlas.Script.Form

/-! # Reading moves on

Skipping a gap never goes back, and a lexeme begins inside the text and ends behind its first
character. Byte offsets grow with the positions, so two lexemes that begin at different positions
have different offsets.
-/

namespace RepoAtlas.Script

theorem le_skipWhile (chars : Array Char) (test : Char → Bool) (i : Nat) :
    i ≤ skipWhile chars test i := by
  fun_induction skipWhile chars test i <;> omega

theorem lt_of_blockCommentEnd {chars : Array Char} {i j : Nat}
    (closed : blockCommentEnd chars i = some j) : i < j := by
  fun_induction blockCommentEnd chars i <;> simp_all <;> omega

theorem lt_size_of_commentEnd {chars : Array Char} {i j : Nat}
    (comment : commentEnd chars i = some j) : i < chars.size := by
  unfold commentEnd at comment
  split at comment
  · exact (Array.getElem?_eq_some_iff.mp ‹_›).1
  · cases comment

theorem lt_of_commentEnd {chars : Array Char} {i j : Nat} (comment : commentEnd chars i = some j) :
    i < j := by
  unfold commentEnd at comment
  split at comment
  · split at comment
    · have := le_skipWhile chars (fun c => c != '\n' && c != '\r' && !isSeparator c) (i + 2)
      cases comment
      omega
    · have := lt_of_blockCommentEnd comment
      omega
    · cases comment
  · cases comment

/-! ## Gaps and byte offsets -/

/-- No entry of the table points back. -/
def Forward (table : Array Nat) : Prop := ∀ k, k ≤ table.getD k k

theorem Forward.set {table : Array Nat} (forward : Forward table) {i j : Nat} (later : i ≤ j) :
    Forward (table.setIfInBounds i j) := by
  intro k
  have := forward k
  simp only [Array.getD_eq_getD_getElem?, Array.getElem?_setIfInBounds] at this ⊢
  by_cases here : i = k
  · subst here
    by_cases inside : i < table.size <;> simp [inside, later]
  · simpa [here] using this

theorem forward_gapTable (chars : Array Char) (i : Nat) {table : Array Nat}
    (forward : Forward table) : Forward (gapTable chars i table) := by
  induction i generalizing table with
  | zero => exact forward
  | succ i ih =>
      refine ih (forward.set ?_)
      split
      · exact Nat.le_refl i
      · split
        · exact (Nat.le_succ i).trans (forward (i + 1))
        · split
          · exact (lt_of_commentEnd ‹_›).le.trans (forward _)
          · exact Nat.le_refl i

/-- The tables of a source say what a text can say: a gap ends where it starts or later, and
    offsets grow with the positions. -/
structure Source.Sound (src : Source) : Prop where
  le_gap (i : Nat) : i ≤ src.gap i
  byteOffset_lt {i j : Nat} : i < j → j ≤ src.size → src.byteOffset i < src.byteOffset j

theorem Source.le_gap_ofString (text : String) (i : Nat) : i ≤ (Source.ofString text).gap i := by
  refine forward_gapTable _ _ (fun k => ?_) i
  rw [Array.getD_eq_getD_getElem?]
  by_cases inside : k < text.toList.length + 1 <;> simp [inside]

/-- The table that the characters extend holds offsets in ascending order, none above `last`. -/
theorem ascending_offsets (chars : List Char) (table : Array Nat) (last : Nat)
    (ascending : table.toList.Pairwise (· < ·)) (below : ∀ offset ∈ table, offset ≤ last) :
    let step := fun (acc : Array Nat × Nat) (c : Char) =>
      (acc.1.push (acc.2 + c.utf8Size), acc.2 + c.utf8Size)
    (chars.foldl step (table, last)).1.toList.Pairwise (· < ·) ∧
      (chars.foldl step (table, last)).1.size = table.size + chars.length := by
  induction chars generalizing table last with
  | nil => exact ⟨ascending, rfl⟩
  | cons c rest ih =>
      have positive := c.utf8Size_pos
      obtain ⟨ordered, length⟩ := ih (table.push (last + c.utf8Size)) (last + c.utf8Size)
        (by
          simp only [Array.toList_push, List.pairwise_append, List.pairwise_singleton,
            List.mem_singleton, forall_eq, true_and, Array.mem_toList_iff]
          exact ⟨ascending, fun offset member => by have := below offset member; omega⟩)
        (by
          intro offset member
          rcases Array.mem_push.mp member with before | rfl
          · have := below offset before
            omega
          · exact Nat.le_refl _)
      exact ⟨ordered, by simpa [Nat.add_assoc, Nat.add_comm 1] using length⟩

theorem Source.byteOffset_lt_ofString (text : String) {i j : Nat} (before : i < j)
    (inside : j ≤ (Source.ofString text).size) :
    (Source.ofString text).byteOffset i < (Source.ofString text).byteOffset j := by
  obtain ⟨ordered, length⟩ := ascending_offsets text.toList #[0] 0 (by simp) (by simp)
  have bound : j < (Source.ofString text).offsets.size := by
    rw [show (Source.ofString text).offsets.size = _ from by
      simpa [Source.ofString, byteOffsets] using length]
    simpa [Source.size, Source.ofString, Nat.lt_one_add_iff] using inside
  have ascending : (Source.ofString text).offsets.toList.Pairwise (· < ·) := by
    simpa [Source.ofString, byteOffsets] using ordered
  have := List.pairwise_iff_getElem.mp ascending i j (by simpa using before.trans bound)
    (by simpa using bound) before
  simpa [Source.byteOffset, Array.getD_eq_getD_getElem?, bound, before.trans bound] using this

theorem Source.sound_ofString (text : String) : (Source.ofString text).Sound where
  le_gap := le_gap_ofString text
  byteOffset_lt := byteOffset_lt_ofString text

/-! ## Lexemes -/

namespace Source

/-- The text has a character at `i`, and `j` lies behind it. -/
def Passes (src : Source) (i j : Nat) : Prop := i < src.size ∧ i < j

theorem lt_size_of_look {src : Source} {i : Nat} {c : Char} (here : src.look i = c)
    (visible : c ≠ '\x00') : i < src.size := by
  by_contra outside
  have : src.look i = '\x00' := by
    simp [look, Array.getD_eq_getD_getElem?, Array.getElem?_eq_none (Nat.le_of_not_lt outside)]
  exact visible (here ▸ this)

theorem lt_size_of_not_atEnd {src : Source} {i : Nat} (inside : src.atEnd i = false) :
    i < src.size := by
  simpa [atEnd, size] using inside

end Source

variable {src : Source} {i j : Nat}

theorem nameEscapeEnd_passes (found : nameEscapeEnd src i = some j) : src.Passes i j := by
  simp only [nameEscapeEnd] at found
  split at found
  · rename_i starts
    refine ⟨Source.lt_size_of_look (c := '\\') (by simp_all) (by decide), ?_⟩
    have := le_skipWhile src.chars isHex (i + 3)
    split at found
    · split at found <;> cases found
      omega
    · split at found <;> cases found
      omega
  · cases found

theorem le_nameRest (src : Source) (rounds i : Nat) : i ≤ nameRest src rounds i := by
  induction rounds generalizing i with
  | zero => exact Nat.le_refl i
  | succ rounds ih =>
      have plain := le_skipWhile src.chars isNamePart i
      simp only [nameRest]
      split
      · rename_i k escape
        exact plain.trans ((nameEscapeEnd_passes escape).2.le.trans (ih k))
      · exact plain

theorem nameEnd_passes (found : nameEnd src i = some j) : src.Passes i j := by
  unfold nameEnd at found
  split at found
  · rename_i starts
    have := le_nameRest src src.size (i + 1)
    cases found
    exact ⟨Source.lt_size_of_not_atEnd (by simp_all), by omega⟩
  · obtain ⟨k, escape, rfl⟩ := Option.map_eq_some_iff.mp found
    obtain ⟨inside, before⟩ := nameEscapeEnd_passes escape
    exact ⟨inside, before.trans_le (le_nameRest src src.size k)⟩

theorem le_digitsEnd_more (src : Source) (digit : Char → Bool) (rounds i : Nat) :
    i ≤ digitsEnd.more src digit rounds i := by
  fun_induction digitsEnd.more src digit rounds i <;> omega

theorem lt_of_digitsEnd {digit : Char → Bool} (found : digitsEnd src digit i = some j) :
    i < j := by
  unfold digitsEnd at found
  split at found <;> cases found
  exact le_digitsEnd_more src digit src.size (i + 1)

theorem digitsEnd_passes {digit : Char → Bool} (plain : digit '\x00' = false)
    (found : digitsEnd src digit i = some j) : src.Passes i j := by
  refine ⟨?_, lt_of_digitsEnd found⟩
  unfold digitsEnd at found
  split at found <;> cases found
  rename_i first
  exact Source.lt_size_of_look rfl fun blank => by simp [blank, plain] at first

theorem lt_of_exponentEnd (found : exponentEnd src i = some j) : i < j := by
  simp only [exponentEnd] at found
  split at found
  · have := lt_of_digitsEnd found
    split at this <;> omega
  · cases found

theorem le_getD_digitsEnd (src : Source) (digit : Char → Bool) {i j k : Nat} (later : i ≤ j)
    (otherwise : i ≤ k) : i ≤ (digitsEnd src digit j).getD k := by
  cases found : digitsEnd src digit j with
  | none => exact otherwise
  | some stop => exact later.trans (lt_of_digitsEnd found).le

theorem wholeEnd_passes (found : wholeEnd src i = some j) : src.Passes i j := by
  have rest (k : Nat) : k ≤ (digitsEnd src Char.isDigit
      (if src.look k = '_' then k + 1 else k)).getD k :=
    le_getD_digitsEnd src _ (by split <;> omega) (Nat.le_refl k)
  simp only [wholeEnd] at found
  split at found
  · rename_i zero
    refine ⟨Source.lt_size_of_look zero (by decide), ?_⟩
    split at found <;> cases found
    · exact (by omega : i < i + 2).trans_le (rest (i + 2))
    · omega
  · split at found <;> cases found
    rename_i digit
    refine ⟨Source.lt_size_of_look rfl fun blank => ?_, rest (i + 1)⟩
    simp [blank] at digit

theorem eq_or_eq_of_max {stop stop' : Option Nat} (longest : max stop stop' = some j) :
    stop = some j ∨ stop' = some j := by
  match stop, stop' with
  | none, none => exact .inl longest
  | none, some _ => exact .inr longest
  | some _, none => exact .inl longest
  | some k, some k' =>
      have : max k k' = j := Option.some.inj longest
      simp only [Option.some.injEq]
      omega

theorem mem_of_foldl_max {stops : List (Option Nat)} {first : Option Nat}
    (longest : stops.foldl max first = some j) : first = some j ∨ some j ∈ stops := by
  induction stops generalizing first with
  | nil => exact .inl longest
  | cons stop rest ih =>
      rcases ih longest with largest | later
      · exact (eq_or_eq_of_max largest).imp_right fun same => by simp [same]
      · exact .inr (List.mem_cons_of_mem _ later)

theorem numberEnd_passes (found : numberEnd src i = some j) : src.Passes i j := by
  have big {stop : Option Nat} (passes : ∀ k, stop = some k → src.Passes i k)
      (whole : some j = stop.map fun k => if src.look k = 'n' then k + 1 else k) :
      src.Passes i j := by
    obtain ⟨k, reached, rfl⟩ := Option.map_eq_some_iff.mp whole.symm
    obtain ⟨inside, before⟩ := passes k reached
    exact ⟨inside, by split <;> omega⟩
  have radix {letters : List Char} {digit : Char → Bool} (k : Nat)
      (reached : (if src.look i = '0' && letters.contains (src.look (i + 1)) then
        digitsEnd src digit (i + 2) else none) = some k) : src.Passes i k := by
    split at reached
    · have := lt_of_digitsEnd reached
      exact ⟨Source.lt_size_of_look (c := '0') (by simp_all) (by decide), by omega⟩
    · cases reached
  have exponent (k : Nat) : k ≤ (exponentEnd src k).getD k := by
    cases found : exponentEnd src k with
    | none => exact Nat.le_refl k
    | some stop => exact (lt_of_exponentEnd found).le
  simp only [numberEnd] at found
  rcases mem_of_foldl_max found with none | notation_
  · cases none
  simp only [List.mem_cons, List.not_mem_nil, or_false] at notation_
  rcases notation_ with whole | whole | whole | whole | point | fraction
  · exact big radix whole
  · exact big radix whole
  · exact big radix whole
  · exact big (fun k => digitsEnd_passes (by decide)) whole
  · cases start : wholeEnd src i with
    | none => simp [start] at point
    | some k =>
        obtain ⟨inside, before⟩ := wholeEnd_passes start
        refine ⟨inside, ?_⟩
        simp only [start, Option.bind_eq_bind, Option.bind_some] at point
        split at point
        · cases point
          exact before.trans_le
            ((le_getD_digitsEnd src _ (Nat.le_succ k) (Nat.le_succ k)).trans (exponent _))
        · exact before.trans (lt_of_exponentEnd point.symm)
  · split at fraction
    · obtain ⟨k, digits, rfl⟩ := Option.map_eq_some_iff.mp fraction.symm
      have := lt_of_digitsEnd digits
      exact ⟨Source.lt_size_of_look ‹_› (by decide),
        (by omega : i < k).trans_le (exponent k)⟩
    · cases fraction

theorem escapeEnd_passes (found : escapeEnd src i = some j) : src.Passes i j := by
  simp only [escapeEnd] at found
  split at found
  · cases found
  · rename_i starts
    refine ⟨Source.lt_size_of_look (c := '\\') (by simp_all) (by decide), ?_⟩
    split at found
    · split at found <;> cases found
      omega
    · split at found
      · exact (nameEscapeEnd_passes found).2
      · split at found
        · cases found
          split <;> [split; skip] <;> omega
        · split at found <;> cases found <;> omega

theorem lt_of_stringRest {quote : Char} {rounds : Nat}
    (found : stringRest src quote rounds i = some j) : i < j := by
  induction rounds generalizing i with
  | zero => cases found
  | succ rounds ih =>
      simp only [stringRest] at found
      have plain := le_skipWhile src.chars
        (fun c => c != quote && c != '\\' && c != '\n' && c != '\r') i
      split at found
      · cases found
      · split at found
        · cases found
          omega
        · split at found
          · split at found
            · exact plain.trans_lt ((escapeEnd_passes ‹_›).2.trans (ih found))
            · cases found
          · -- Behind a raw line end only a gap may stand.
            have blank := plain.trans (le_skipWhile src.chars isGap _)
            split at found
            · exact blank.trans_lt ((lt_of_commentEnd ‹_›).trans (ih found))
            · split at found <;> cases found
              omega

theorem stringEnd_passes (found : stringEnd src i = some j) : src.Passes i j := by
  simp only [stringEnd] at found
  split at found
  · rename_i quote
    have := lt_of_stringRest found
    refine ⟨Source.lt_size_of_look rfl fun blank => ?_, by omega⟩
    simp [blank] at quote
  · cases found

theorem le_patternRest {rounds : Nat} {inClass : Bool}
    (found : patternRest src rounds inClass i = some j) : i ≤ j := by
  fun_induction patternRest src rounds inClass i <;> simp_all <;> grind

theorem patternEnd_passes (found : patternEnd src i = some j) : src.Passes i j := by
  unfold patternEnd at found
  split at found
  · refine ⟨Source.lt_size_of_look ‹_› (by decide), ?_⟩
    split at found
    · rename_i k body
      have := le_patternRest body
      have := le_skipWhile src.chars (fun c => 'a' ≤ c && c ≤ 'z') (k + 1)
      split at found <;> cases found
      omega
    · cases found
  · cases found

theorem templateTextEnd_passes (found : templateTextEnd src i = some j) : src.Passes i j := by
  have more {rounds i j : Nat} (found : templateTextEnd.more src rounds i = some j) :
      i < src.size ∧ i ≤ j := by
    fun_induction templateTextEnd.more src rounds i with
    | case1 => cases found
    | case2 => cases found
    | case3 =>
        cases found
        exact ⟨Source.lt_size_of_not_atEnd (by simp_all), Nat.le_refl _⟩
    | case4 _ _ _ _ _ ih =>
        have := ih found
        omega
  unfold templateTextEnd at found
  split at found
  · split at found <;> cases found
    have := more ‹_›
    exact ⟨this.1, by omega⟩
  · cases found

theorem markupTextEnd_passes (found : markupTextEnd src i = some j) : src.Passes i j := by
  have more {rounds i j : Nat} {afterLine sawText : Bool}
      (found : markupTextEnd.more src rounds i afterLine sawText = some j) :
      i ≤ j ∧ (sawText = false → src.Passes i j) := by
    fun_induction markupTextEnd.more src rounds i afterLine sawText with
    | case1 => cases found
    | case2 =>
        cases found
        exact ⟨Nat.le_refl _, by simp_all⟩
    | case3 => cases found
    | case4 rounds i afterLine sawText c inside line ih =>
        have := ih found
        have here : i < src.size := Source.lt_size_of_not_atEnd (by simp_all)
        exact ⟨by omega, fun _ => ⟨here, by omega⟩⟩
    | case5 rounds i afterLine sawText c inside line after ih =>
        have := ih found
        have here : i < src.size := Source.lt_size_of_not_atEnd (by simp_all)
        exact ⟨by omega, fun _ => ⟨here, by omega⟩⟩
  exact (more found).2 rfl

theorem characterReferenceEnd_passes (found : characterReferenceEnd src i = some j) :
    src.Passes i j := by
  simp only [characterReferenceEnd] at found
  split at found
  · cases found
  · refine ⟨Source.lt_size_of_look (c := '&') (by simp_all) (by decide), ?_⟩
    split at found
    · split at found <;> split at found <;> cases found
      · have := le_skipWhile src.chars isHex (i + 3)
        omega
      · have := le_skipWhile src.chars Char.isDigit (i + 2)
        omega
    · split at found <;> cases found
      have := le_skipWhile src.chars Char.isAlpha (i + 1)
      omega

theorem markupNameEnd_passes (found : markupNameEnd src i = some j) : src.Passes i j := by
  simp only [markupNameEnd] at found
  rcases eq_or_eq_of_max found with hyphenated | name
  · split at hyphenated
    · split at hyphenated <;> cases hyphenated
      rename_i first hyphen
      have stop := le_skipWhile src.chars (fun c => c.isAlphanum || c = '_' || c = '$') i
      have apart : i ≠ skipWhile src.chars (fun c => c.isAlphanum || c = '_' || c = '$') i := by
        intro same
        rw [← same] at hyphen
        simp [hyphen] at first
      refine ⟨Source.lt_size_of_look rfl fun blank => by simp [blank] at first, ?_⟩
      exact (stop.lt_of_ne apart).trans_le (le_skipWhile _ _ _)
    · cases hyphenated
  · exact nameEnd_passes name

theorem markupStringEnd_passes (found : markupStringEnd src i = some j) : src.Passes i j := by
  have more {quote : Char} {rounds i j : Nat}
      (found : markupStringEnd.more src quote rounds i = some j) : i < j := by
    fun_induction markupStringEnd.more src quote rounds i with
    | case1 | case2 | case5 | case6 => cases found
    | case3 =>
        cases found
        omega
    | case4 _ _ _ _ _ _ _ _ _ reference ih =>
        exact (characterReferenceEnd_passes reference).2.trans (ih found)
    | case7 _ _ _ _ _ _ _ _ _ ih | case8 _ _ _ _ _ _ ih =>
        have := ih found
        omega
  simp only [markupStringEnd] at found
  split at found
  · rename_i quote
    have := more found
    refine ⟨Source.lt_size_of_look rfl fun blank => ?_, by omega⟩
    simp [blank] at quote
  · cases found

theorem lt_of_markupCommentEnd (found : markupCommentEnd src i = some j) : i < j := by
  unfold markupCommentEnd at found
  split at found <;> cases found
  have := le_skipWhile src.chars (fun c => c != '\n' && c != '\x00' && !isSeparator c) (i + 3)
  omega

theorem interpreterLineEnd_passes (found : interpreterLineEnd src i = some j) :
    src.Passes i j := by
  unfold interpreterLineEnd at found
  split at found <;> cases found
  have := le_skipWhile src.chars (· != '\n') (i + 2)
  exact ⟨Source.lt_size_of_look (c := '#') (by simp_all) (by decide), by omega⟩

/-- Every lexeme begins inside the text and ends behind its first character. -/
theorem Lexeme.passes {shape : Lexeme} (found : shape.end? src i = some j) : src.Passes i j := by
  cases shape with
  | number => exact numberEnd_passes found
  | string => exact stringEnd_passes found
  | privateName =>
      simp only [Lexeme.end?, privateNameEnd] at found
      split at found
      · exact ⟨Source.lt_size_of_look ‹_› (by decide),
          (Nat.lt_succ_self i).trans (nameEnd_passes found).2⟩
      · cases found
  | pattern => exact patternEnd_passes found
  | escape => exact escapeEnd_passes found
  | templateText => exact templateTextEnd_passes found
  | markupText => exact markupTextEnd_passes found
  | characterReference => exact characterReferenceEnd_passes found
  | markupName => exact markupNameEnd_passes found
  | markupString => exact markupStringEnd_passes found
  | interpreterLine => exact interpreterLineEnd_passes found

end RepoAtlas.Script
