import RepoAtlas.Console.Markup

/-! # Escaped texts

Escaping only puts backslashes into a text, so up to backslashes an escaped text is the text itself. A
text without brackets and backslashes is not touched.
-/

namespace RepoAtlas.Console

namespace Markup

/-- The character means nothing in markup. -/
def Plain (c : Char) : Prop := c ≠ '[' ∧ c ≠ '\\'

instance (c : Char) : Decidable (Plain c) := inferInstanceAs (Decidable (c ≠ '[' ∧ c ≠ '\\'))

theorem plain_of_all {cs : List Char} (all : cs.all (Plain ·) = true) : ∀ c ∈ cs, Plain c :=
  fun c member => of_decide_eq_true (List.all_eq_true.mp all c member)

/-! ## Tags -/

theorem append_of_tagEnd? {cs tag after : List Char} (found : tagEnd? cs = some (tag, after)) :
    tag ++ after = cs := by
  fun_induction tagEnd? cs generalizing tag after with
  | case1 => cases found
  | case2 rest =>
      cases found
      rfl
  | case3 => cases found
  | case4 c rest notEnd notStart ih =>
      obtain ⟨⟨name, behind⟩, inner, same⟩ := Option.map_eq_some_iff.mp found
      cases same
      exact congrArg (c :: ·) (ih inner)

theorem append_of_tagAt? {cs tag after : List Char} (found : tagAt? cs = some (tag, after)) :
    tag ++ after = cs := by
  unfold tagAt? at found
  split at found
  · rename_i c rest
    split at found
    · obtain ⟨⟨name, behind⟩, ended, same⟩ := Option.map_eq_some_iff.mp found
      cases same
      exact congrArg ('[' :: c :: ·) (append_of_tagEnd? ended)
    · cases found
  · cases found

theorem tagAt?_of_ne {c : Char} (other : c ≠ '[') (rest : List Char) : tagAt? (c :: rest) = none := by
  unfold tagAt?
  split
  · rename_i same
    exact absurd (List.cons.inj same).1 other
  · rfl

/-! ## Pieces -/

section Pieces

variable {text : List Char} {k : Nat}

theorem piecesFrom_nil : piecesFrom text k [] = [.text (List.replicate k '\\' ++ text).reverse] := by
  rw [piecesFrom]

theorem piecesFrom_tag {cs tag after : List Char} (found : tagAt? cs = some (tag, after)) :
    piecesFrom text k cs = .text text.reverse :: .tag k tag :: piecesFrom [] 0 after := by
  cases cs with
  | nil => simp [tagAt?] at found
  | cons c rest =>
      rw [piecesFrom]
      split
      · rename_i found'
        cases found.symm.trans found'
        rfl
      · rename_i none
        cases found.symm.trans none

theorem piecesFrom_backslash (rest : List Char) :
    piecesFrom text k ('\\' :: rest) = piecesFrom text (k + 1) rest := by
  rw [piecesFrom]
  split
  · rename_i found
    cases (tagAt?_of_ne (by decide) rest).symm.trans found
  · rw [if_pos rfl]

theorem piecesFrom_plain {c : Char} {rest : List Char} (untagged : tagAt? (c :: rest) = none)
    (other : c ≠ '\\') :
    piecesFrom text k (c :: rest) = piecesFrom (c :: (List.replicate k '\\' ++ text)) 0 rest := by
  rw [piecesFrom]
  split
  · rename_i found
    cases untagged.symm.trans found
  · rw [if_neg other]

end Pieces

/-! ## Escaping -/

/-- A text without its backslashes. -/
def unslashed (cs : List Char) : List Char := cs.filter (· ≠ '\\')

theorem unslashed_append (cs ds : List Char) : unslashed (cs ++ ds) = unslashed cs ++ unslashed ds :=
  List.filter_append cs ds

theorem unslashed_replicate (n : Nat) : unslashed (List.replicate n '\\') = [] := by
  simp [unslashed]

theorem unslashed_of_free {cs : List Char} (free : '\\' ∉ cs) : unslashed cs = cs := by
  refine List.filter_eq_self.mpr fun c member => decide_eq_true ?_
  rintro rfl
  exact free member

/-- The characters of the escaped pieces are, up to backslashes, those of the text. -/
theorem unslashed_piecesFrom (text : List Char) (k : Nat) (cs : List Char) :
    unslashed ((piecesFrom text k cs).flatMap escapePiece) = unslashed (text.reverse ++ cs) := by
  induction text, k, cs using piecesFrom.induct with
  | case1 text k => simp [piecesFrom_nil, escapePiece, unslashed_append, unslashed_replicate]
  | case2 text k c rest tag after found ih =>
      rw [piecesFrom_tag found, List.flatMap_cons, List.flatMap_cons, unslashed_append,
        unslashed_append, ih, ← append_of_tagAt? found]
      simp [escapePiece, unslashed_append, unslashed_replicate]
  | case3 text k rest untagged ih =>
      rw [piecesFrom_backslash, ih]
      simp [unslashed]
  | case4 text k c rest untagged other ih =>
      rw [piecesFrom_plain untagged other, ih]
      simp [unslashed]

theorem unslashed_escape (s : String) : unslashed (escape s).toList = unslashed s.toList := by
  have pieced := unslashed_piecesFrom [] 0 s.toList
  rw [escape, String.toList_ofList, pieces]
  split
  · rw [unslashed_append, pieced]
    exact List.append_nil _
  · exact pieced

theorem piecesFrom_of_plain {cs : List Char} (plain : ∀ c ∈ cs, Plain c) (text : List Char) :
    piecesFrom text 0 cs = [.text (text.reverse ++ cs)] := by
  induction cs generalizing text with
  | nil => simp [piecesFrom_nil]
  | cons c rest ih =>
      obtain ⟨noBracket, noBackslash⟩ := plain c List.mem_cons_self
      rw [piecesFrom_plain (tagAt?_of_ne noBracket rest) noBackslash,
        ih fun d member => plain d (List.mem_cons_of_mem c member)]
      simp

/-- A text that means nothing in markup is left alone. -/
theorem escape_of_plain {s : String} (plain : ∀ c ∈ s.toList, Plain c) : escape s = s := by
  have whole : (pieces s.toList).flatMap escapePiece = s.toList := by
    rw [pieces, piecesFrom_of_plain plain]
    simp [escapePiece]
  have unended : s.toList.reverse.takeWhile (· = '\\') = [] := by
    cases ends : s.toList.reverse with
    | nil => rfl
    | cons c front =>
        have member : c ∈ s.toList := List.mem_reverse.mp (ends ▸ List.mem_cons_self)
        exact List.takeWhile_cons_of_neg (by simpa using (plain c member).2)
  rw [escape, whole, unended]
  exact String.ofList_toList

end Markup

end RepoAtlas.Console
