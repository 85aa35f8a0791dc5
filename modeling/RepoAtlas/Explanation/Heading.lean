import RepoAtlas.Text.Blank
import RepoAtlas.Text.Digit
import RepoAtlas.Text.Lowercase
import RepoAtlas.Text.Split

/-! # Headings of an explanation

An explanation of a file comes in three tiers, each under its heading. A heading stands at the start
of a line, perhaps behind list marks, in any mix of small and capital letters, and is followed by a
colon or by the end of its line.
-/

namespace RepoAtlas.Explanation

/-- The tiers of an explanation. -/
inductive Tier where
  /-- For a child. -/
  | simple
  | intermediate
  | technical
  deriving DecidableEq, Repr

/-- A piece of the spelling of a heading. -/
inductive Mark where
  /-- A character in any case. -/
  | letter (c : Char)
  /-- One blank at least. -/
  | gap
  /-- An apostrophe that may be left out. -/
  | apostrophe
  deriving DecidableEq, Repr

/-- The letters of a word. -/
def word (letters : String) : List Mark := letters.toList.map .letter

/-- The spellings of headings. -/
def spellings : List (List Mark) :=
  [word "explain" ++ [.gap] ++ word "it" ++ [.gap] ++ word "like" ++ [.gap] ++ word "i" ++
      [.apostrophe] ++ word "m" ++ [.gap] ++ word "5",
   word "eli5", word "intermediate", word "technical"]

/-- Capital letters, and letters that fold like them, that stand for a small letter. -/
def foldsTo (c small : Char) : Bool :=
  c = small || c.toLower = small ||
    (small = 'i' && (c = 'İ' || c = 'ı')) || (small = 'k' && c = '\u212A')

/-- The text of a spelling at the start and what follows. -/
def spelled? : List Mark → List Char → Option (List Char × List Char)
  | [], cs => some ([], cs)
  | .letter small :: marks, c :: rest =>
    if foldsTo c small then (spelled? marks rest).map fun (text, after) => (c :: text, after)
    else none
  | .letter _ :: _, [] => none
  | .gap :: marks, cs =>
    let blanks := cs.takeWhile Text.isBlank
    if blanks.isEmpty then none
    else
      (spelled? marks (cs.drop blanks.length)).map fun (text, after) => (blanks ++ text, after)
  | .apostrophe :: marks, c :: rest =>
    if c = '\'' || c = '’' then
      (spelled? marks rest).map fun (text, after) => (c :: text, after)
    else spelled? marks (c :: rest)
  | .apostrophe :: marks, [] => spelled? marks []

/-- A spelling divides what it reads. -/
theorem length_of_spelled? {marks : List Mark} {cs text after : List Char}
    (found : spelled? marks cs = some (text, after)) :
    text.length + after.length = cs.length := by
  fun_induction spelled? marks cs generalizing text after with
  | case1 cs =>
      cases found
      exact Nat.zero_add _
  | case2 small marks c rest folds ih | case7 marks c rest quote ih =>
      obtain ⟨⟨more, behind⟩, inner, same⟩ := Option.map_eq_some_iff.mp found
      cases same
      have divided := ih inner
      rw [List.length_cons, List.length_cons]
      omega
  | case3 | case4 | case5 => cases found
  | case6 marks cs blanks nonempty =>
      rename_i ih
      obtain ⟨⟨more, behind⟩, inner, same⟩ := Option.map_eq_some_iff.mp found
      cases same
      have divided := ih inner
      have within : blanks.length ≤ cs.length := (List.takeWhile_sublist _).length_le
      rw [List.length_drop] at divided
      rw [List.length_append]
      omega
  | case8 marks c rest other ih => exact ih found
  | case9 marks ih => exact ih found

/-- Marks of lists and quotations in front of a heading. -/
def isLeadMark (c : Char) : Bool := " \t#>*-.)".toList.contains c || (Text.digit? c).isSome

/-- Marks of emphasis behind a heading. -/
def isTrailMark (c : Char) : Bool := " \t*#".toList.contains c

/-- Blanks and marks of emphasis in front of a body on the same line. -/
def isBodyMark (c : Char) : Bool := " \t*".toList.contains c

/-- What follows the end of a heading: a colon is passed over, the end of a line is not. -/
def closed? (cs : List Char) : Option (List Char) :=
  match cs.dropWhile isTrailMark with
  | ':' :: rest => some (rest.dropWhile isBodyMark)
  | '\n' :: rest => some ('\n' :: rest)
  | [] => some []
  | _ => none

/-- The text of the heading at the start of a line and what follows. -/
def headingAt? (line : List Char) : Option (List Char × List Char) :=
  let cs := line.dropWhile isLeadMark
  spellings.findSome? fun marks =>
    match spelled? marks cs with
    | some (text, after) => (closed? after).map fun rest => (text, rest)
    | none => none

theorem length_of_closed? {cs rest : List Char} (found : closed? cs = some rest) :
    rest.length ≤ cs.length := by
  have unmarked : (cs.dropWhile isTrailMark).length ≤ cs.length :=
    (List.dropWhile_sublist _).length_le
  unfold closed? at found
  split at found
  · rename_i behind colon
    obtain rfl := Option.some.inj found
    rw [colon, List.length_cons] at unmarked
    have bare : (behind.dropWhile isBodyMark).length ≤ behind.length :=
      (List.dropWhile_sublist _).length_le
    omega
  · rename_i behind lineEnd
    obtain rfl := Option.some.inj found
    rwa [lineEnd] at unmarked
  · obtain rfl := Option.some.inj found
    exact Nat.zero_le _
  · cases found

theorem exists_letter_of_spelling {marks : List Mark} (member : marks ∈ spellings) :
    ∃ c more, marks = .letter c :: more := by
  simp only [spellings, word, List.mem_cons, List.not_mem_nil, or_false] at member
  rcases member with rfl | rfl | rfl | rfl <;>
    exact ⟨_, _, rfl⟩

theorem length_pos_of_spelled? {c : Char} {marks : List Mark} {cs text after : List Char}
    (found : spelled? (.letter c :: marks) cs = some (text, after)) : 0 < text.length := by
  cases cs with
  | nil => cases found
  | cons d rest =>
      rw [spelled?] at found
      split at found
      · obtain ⟨_, -, same⟩ := Option.map_eq_some_iff.mp found
        cases same
        exact Nat.succ_pos _
      · cases found

/-- A heading takes something away. -/
theorem length_of_headingAt? {line text rest : List Char}
    (found : headingAt? line = some (text, rest)) : rest.length < line.length := by
  obtain ⟨marks, member, read⟩ := List.exists_of_findSome?_eq_some found
  obtain ⟨c, more, rfl⟩ := exists_letter_of_spelling member
  split at read
  · rename_i heading after spelled
    obtain ⟨body, closed, same⟩ := Option.map_eq_some_iff.mp read
    cases same
    have unmarked : (line.dropWhile isLeadMark).length ≤ line.length :=
      (List.dropWhile_sublist _).length_le
    have divided := length_of_spelled? spelled
    have longer := length_pos_of_spelled? spelled
    have behind := length_of_closed? closed
    omega
  · cases read

/-- The tier of a heading, by its text in small letters. -/
def tierOf? (heading : String) : Option Tier :=
  let name := Text.lower heading
  if Text.startsWith name "explain" || Text.startsWith name "eli5" then some .simple
  else if name = "intermediate" then some .intermediate
  else if name = "technical" then some .technical
  else none

end RepoAtlas.Explanation
