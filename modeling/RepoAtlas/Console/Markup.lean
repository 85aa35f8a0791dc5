import RepoAtlas.Text.Split

/-! # Markup

Text for a terminal may hold tags in square brackets that switch styles on and off. Without colours
only the text between the tags is left. Text that comes from elsewhere is escaped first: a backslash
in front of a tag makes it text.
-/

namespace RepoAtlas.Console

namespace Markup

/-- The characters that a tag begins with. -/
def startsTag (c : Char) : Bool :=
  ('a' ≤ c && c ≤ 'z') || c = '#' || c = '/' || c = '@'

/-- The rest of a tag up to its bracket, and what follows. -/
def tagEnd? : List Char → Option (List Char × List Char)
  | [] => none
  | ']' :: rest => some ([']'], rest)
  | '[' :: _ => none
  | c :: rest => (tagEnd? rest).map fun (tag, after) => (c :: tag, after)

/-- The tag at the start of a text, brackets included, and what follows. A tag has one character
    at least. -/
def tagAt? : List Char → Option (List Char × List Char)
  | '[' :: c :: rest =>
    if startsTag c then (tagEnd? rest).map fun (tag, after) => ('[' :: c :: tag, after) else none
  | _ => none

/-- A piece of markup. -/
inductive Piece where
  | text (cs : List Char)
  /-- A tag with so many backslashes in front. -/
  | tag (backslashes : Nat) (cs : List Char)
  deriving DecidableEq, Repr

theorem length_of_tagEnd? {cs tag after : List Char} (found : tagEnd? cs = some (tag, after)) :
    after.length < cs.length := by
  fun_induction tagEnd? cs generalizing tag after with
  | case1 => cases found
  | case2 rest =>
      cases found
      exact Nat.lt_succ_self _
  | case3 => cases found
  | case4 c rest notEnd notStart ih =>
      obtain ⟨⟨name, behind⟩, inner, same⟩ := Option.map_eq_some_iff.mp found
      cases same
      exact Nat.lt_succ_of_lt (ih inner)

/-- A tag takes something away. -/
theorem length_of_tagAt? {cs tag after : List Char} (found : tagAt? cs = some (tag, after)) :
    after.length < cs.length := by
  unfold tagAt? at found
  split at found
  · split at found
    · obtain ⟨⟨name, behind⟩, inner, same⟩ := Option.map_eq_some_iff.mp found
      cases same
      have shorter := length_of_tagEnd? inner
      rw [List.length_cons, List.length_cons]
      omega
    · cases found
  · cases found

/-- The pieces of markup behind so many backslashes and the text before them, latest first. -/
def piecesFrom (text : List Char) (backslashes : Nat) (cs : List Char) : List Piece :=
  let pending := (List.replicate backslashes '\\' ++ text).reverse
  match cs with
  | [] => [.text pending]
  | c :: rest =>
    match _found : tagAt? (c :: rest) with
    | some (tag, after) => .text text.reverse :: .tag backslashes tag :: piecesFrom [] 0 after
    | none =>
      if c = '\\' then piecesFrom text (backslashes + 1) rest
      else piecesFrom (c :: (List.replicate backslashes '\\' ++ text)) 0 rest
termination_by cs.length
decreasing_by
  · exact length_of_tagAt? _found
  · simp
  · simp

/-- The pieces of markup. -/
def pieces (cs : List Char) : List Piece := piecesFrom [] 0 cs

/-- A piece made text: its backslashes are doubled and one more is put in front. -/
def escapePiece : Piece → List Char
  | .text cs => cs
  | .tag n cs => List.replicate (2 * n + 1) '\\' ++ cs

/-- Markup that stands for a text. A single backslash at the end is doubled, so that it does not
    escape a tag behind it. -/
def escape (text : String) : String :=
  let cs := (pieces text.toList).flatMap escapePiece
  let ending := cs.reverse.takeWhile (· = '\\')
  String.ofList (if ending.length = 1 then cs ++ ['\\'] else cs)

/-- Drops the backslash in front of a bracket that starts no tag. -/
def freeBrackets : List Char → List Char
  | '\\' :: '[' :: rest => '[' :: freeBrackets rest
  | c :: rest => c :: freeBrackets rest
  | [] => []

/-- The text of a piece. Of the backslashes in front of a tag each pair stands for one; one that is
    left over makes the tag text. -/
def pieceText : Piece → List Char
  | .text cs => freeBrackets cs
  | .tag n cs => List.replicate (n / 2) '\\' ++ if n % 2 = 1 then cs else []

/-- The text of markup. Text without brackets is no markup and is left as it is. -/
def text (markup : String) : String :=
  if markup.toList.contains '[' then
    String.ofList ((pieces markup.toList).flatMap pieceText)
  else markup

end Markup

/-- What prints on a terminal: it escapes texts from elsewhere and takes the text of markup. -/
structure Printer where
  escape : String → String
  text : String → String

/-- The printer of this markup, without colours. -/
def Printer.plain : Printer := { escape := Markup.escape, text := Markup.text }

end RepoAtlas.Console
