import RepoAtlas.Proofs.Script.Lexeme
import RepoAtlas.Script.Grammar

/-! # Where the trees of a script stand

The trees that a form leaves stand one behind the other between the position where the form was
tried and the one where it ended, each starts at the offset of its own position, and the parts of a
branch stand between its ends. Every way of matching keeps this, whatever the grammar, as long as
the answers remembered from before have it too.
-/

namespace RepoAtlas.Script

/-- The trees stand one behind the other from position `i` to position `j`. A leaf takes at least
    one position of the text, a branch those of its parts. -/
inductive Placed (src : Source) : Nat → List Tree → Nat → Prop where
  | nil {i j : Nat} (order : i ≤ j) : Placed src i [] j
  | leaf {i q j stop : Nat} {kind : LeafKind} {text : String} {rest : List Tree} (order : i ≤ q)
      (inside : q < src.size) (later : Placed src (q + 1) rest j) :
      Placed src i (.leaf kind (src.byteOffset q) stop text :: rest) j
  | branch {i q k j stop : Nat} {kind : BranchKind} {parts rest : List Tree} (order : i ≤ q)
      (within : Placed src q parts k) (later : Placed src k rest j) :
      Placed src i (.branch kind (src.byteOffset q) stop parts :: rest) j

namespace Placed

variable {src : Source} {i j k : Nat} {trees trees' : List Tree}

theorem le (placed : Placed src i trees j) : i ≤ j := by
  induction placed <;> omega

theorem earlier (placed : Placed src i trees j) (order : k ≤ i) : Placed src k trees j := by
  cases placed with
  | nil order' => exact .nil (order.trans order')
  | leaf order' inside later => exact .leaf (order.trans order') inside later
  | branch order' within later => exact .branch (order.trans order') within later

theorem later (placed : Placed src i trees j) (order : j ≤ k) : Placed src i trees k := by
  induction placed with
  | nil order' => exact .nil (order'.trans order)
  | leaf order' inside _ ih => exact .leaf order' inside (ih order)
  | branch order' within _ _ ih => exact .branch order' within (ih order)

theorem append (placed : Placed src i trees k) (placed' : Placed src k trees' j) :
    Placed src i (trees ++ trees') j := by
  induction placed with
  | nil order => exact placed'.earlier order
  | leaf order inside _ ih => exact .leaf order inside (ih placed')
  | branch order within _ _ ih => exact .branch order within (ih placed')

theorem exists_of_append (placed : Placed src i (trees ++ trees') j) :
    ∃ k, Placed src i trees k ∧ Placed src k trees' j := by
  induction trees generalizing i with
  | nil => exact ⟨i, .nil (Nat.le_refl i), placed⟩
  | cons tree rest ih =>
      cases placed with
      | leaf order inside later =>
          obtain ⟨k, front, back⟩ := ih later
          exact ⟨k, .leaf order inside front, back⟩
      | branch order within later =>
          obtain ⟨k, front, back⟩ := ih later
          exact ⟨k, .branch order within front, back⟩

/-- A single tree starts at the offset of its position. -/
theorem exists_start {tree : Tree} (placed : Placed src i [tree] j) :
    ∃ q, i ≤ q ∧ tree.start = src.byteOffset q ∧ Placed src q [tree] j := by
  cases placed with
  | leaf order inside later => exact ⟨_, order, rfl, .leaf (Nat.le_refl _) inside later⟩
  | branch order within later => exact ⟨_, order, rfl, .branch (Nat.le_refl _) within later⟩

end Placed

/-! ## Tokens -/

section

variable {src : Source} {i : Nat}

theorem Source.placed_commentsBetween (src : Source) (stop rounds i : Nat) :
    Placed src (min i stop) (src.commentsBetween stop rounds i) stop := by
  induction rounds generalizing i with
  | zero => exact .nil (Nat.min_le_right i stop)
  | succ rounds ih =>
      unfold commentsBetween
      split
      · exact .nil (Nat.min_le_right i stop)
      · rename_i before
        split
        · rename_i j comment
          have := lt_of_commentEnd comment
          exact .leaf (Nat.min_le_left i stop) (lt_size_of_commentEnd comment)
            ((ih j).earlier (by omega))
        · have := le_skipWhile src.chars isGap (i + 1)
          exact (ih _).earlier (by omega)

theorem Source.placed_comments (sound : src.Sound) (i : Nat) :
    Placed src i (src.comments i) (src.gap i) :=
  (placed_commentsBetween src _ _ i).earlier (by have := sound.le_gap i; omega)

theorem Source.le_skipMarkupComments (sound : src.Sound) (rounds i : Nat) :
    i ≤ src.skipMarkupComments rounds i := by
  induction rounds generalizing i with
  | zero => exact Nat.le_refl i
  | succ rounds ih =>
      unfold skipMarkupComments
      split
      · exact (sound.le_gap i).trans ((lt_of_markupCommentEnd ‹_›).le.trans (ih _))
      · exact Nat.le_refl i

/-- What a form may answer at a position: if it matches, its trees stand in the text from there to
    where the match ends. -/
def Answers (src : Source) (i : Nat) (answer : Option Found) : Prop :=
  ∀ found ∈ answer, Placed src i found.trees found.stop

theorem answers_none : Answers src i none := fun _ impossible => nomatch impossible

theorem answers_some {found : Found} :
    Answers src i (some found) ↔ Placed src i found.trees found.stop := by
  simp [Answers]

/-- Behind the comments of a gap stands a leaf. -/
theorem Source.placed_leaf (sound : src.Sound) {j : Nat} (kind : LeafKind)
    (passes : src.Passes (src.gap i) j) :
    Placed src i (src.comments i ++ [src.leaf kind (src.gap i) j]) j :=
  (placed_comments sound i).append
    (.leaf (Nat.le_refl _) passes.1 (.nil passes.2))

theorem Token.answers (sound : src.Sound) (d : Dialect) (token : Token) (i : Nat) :
    Answers src i (token.read d src i) := by
  have sign (length : Nat) : Placed src i (src.comments i) (src.gap i + length) :=
    (Source.placed_comments sound i).later (Nat.le_add_right _ length)
  intro found read
  cases token with
  | mark text | conditional =>
      simp only [Token.read] at read
      split at read <;> cases read
      exact sign _
  | sign text | word text =>
      simp only [Token.read] at read
      split at read <;> cases read
      exact sign _
  | name barred | label barred =>
      simp only [Token.read] at read
      split at read
      · split at read <;> cases read
        exact Source.placed_leaf sound _ (nameEnd_passes ‹_›)
      · cases read
  | lexeme shape kind =>
      obtain ⟨j, stop, rfl⟩ := Option.map_eq_some_iff.mp read
      exact Source.placed_leaf sound kind (Lexeme.passes stop)
  | tight shape =>
      obtain ⟨j, stop, rfl⟩ := Option.map_eq_some_iff.mp read
      exact .nil (Lexeme.passes stop).2.le
  | tightMark text =>
      simp only [Token.read] at read
      split at read <;> cases read
      exact .nil (Nat.le_add_right i _)
  | markupComments =>
      cases read
      exact .nil (Source.le_skipMarkupComments sound _ i)
  | lineEnd before | sameStatement before =>
      simp only [Token.read] at read
      split at read <;> cases read
      exact .nil (Nat.le_refl i)
  | finish =>
      simp only [Token.read] at read
      split at read <;> cases read
      exact Source.placed_comments sound i

end

/-! ## Matching -/

section

variable {ρ α β : Type} [BEq ρ] {src : Source}

/-- Every answer in the memo is one that a form may give at its position. -/
def Memo.Sound (src : Source) (memo : Memo ρ) : Prop :=
  ∀ rule mode i, ∀ answer ∈ memo.answer? rule mode i, Answers src i answer

theorem Memo.sound_empty : Memo.Sound src (∅ : Memo ρ) := by
  intro rule mode i answer impossible
  simp [Memo.answer?] at impossible

theorem Memo.Sound.keep {memo : Memo ρ} (sound : memo.Sound src) {rule : ρ} {mode : Mode} {i : Nat}
    {answer : Option Found} (answers : Answers src i answer) :
    (memo.keep rule mode i answer).Sound src := by
  intro rule' mode' i' answer' known
  simp only [Memo.answer?, Memo.keep, Std.TreeMap.getD_insert] at known
  split at known
  · obtain rfl := Nat.compare_eq_eq.mp ‹_›
    rw [List.lookup_cons] at known
    split at known
    · cases known
      exact answers
    · exact sound rule' mode' i answer' known
  · exact sound rule' mode' i' answer' known

/-- From a sound memo the computation comes to a result with the property and leaves a sound
    memo. -/
def Keeps (src : Source) (Result : α → Prop) (matching : Matching ρ α) : Prop :=
  ∀ memo : Memo ρ, memo.Sound src →
    Result (matching.run memo).1 ∧ Memo.Sound src (matching.run memo).2

namespace Keeps

variable {Result : α → Prop} {Result' : β → Prop}

theorem pure {a : α} (result : Result a) : Keeps src Result (Pure.pure a : Matching ρ α) :=
  fun _ sound => ⟨result, sound⟩

theorem bind {matching : Matching ρ α} {next : α → Matching ρ β} (first : Keeps src Result matching)
    (rest : ∀ a, Result a → Keeps src Result' (next a)) :
    Keeps src Result' (matching >>= next) := by
  intro memo sound
  obtain ⟨result, sound'⟩ := first memo sound
  exact rest _ result _ sound'

theorem get : Keeps src (Memo.Sound src) (MonadState.get : Matching ρ (Memo ρ)) :=
  fun _ sound => ⟨sound, sound⟩

theorem keep (rule : ρ) (mode : Mode) {i : Nat} {answer : Option Found}
    (answers : Answers src i answer) :
    Keeps src (fun _ => True) (modify (·.keep rule mode i answer) : Matching ρ PUnit) :=
  fun _ sound => ⟨trivial, sound.keep answers⟩

end Keeps

/-- A way of matching that gives an answer and keeps the memo. -/
abbrev KeepsAnswers (src : Source) (i : Nat) (matching : Matching ρ (Option Found)) : Prop :=
  Keeps src (Answers src i) matching

variable {one : Form ρ → Nat → Matching ρ (Option Found)}

theorem keeps_matchAll (each : ∀ form i, KeepsAnswers src i (one form i)) {i : Nat}
    (forms : List (Form ρ)) (j : Nat) (trees : List Tree) (placed : Placed src i trees.reverse j) :
    KeepsAnswers src i (matchAll one forms j trees) := by
  induction forms generalizing j trees with
  | nil => exact .pure (answers_some.mpr placed)
  | cons form rest ih =>
      refine .bind (each form j) fun answer answers => ?_
      cases answer with
      | none => exact .pure answers_none
      | some found =>
          refine ih _ _ ?_
          simpa [List.reverseAux_eq] using placed.append (answers_some.mp answers)

theorem keeps_matchFirst {one : Form ρ → Matching ρ (Option Found)} {i : Nat}
    (each : ∀ form, KeepsAnswers src i (one form)) (forms : List (Form ρ)) :
    KeepsAnswers src i (matchFirst one forms) := by
  induction forms with
  | nil => exact .pure answers_none
  | cons form rest ih =>
      refine .bind (each form) fun answer answers => ?_
      cases answer with
      | none => exact ih
      | some found => exact .pure answers

theorem keeps_matchMany {one : Nat → Matching ρ (Option Found)}
    (each : ∀ i, KeepsAnswers src i (one i)) {i : Nat} (rounds j : Nat) (trees : List Tree)
    (placed : Placed src i trees.reverse j) :
    KeepsAnswers src i (matchMany one rounds j trees) := by
  induction rounds generalizing j trees with
  | zero => exact .pure (answers_some.mpr placed)
  | succ rounds ih =>
      refine .bind (each j) fun answer answers => ?_
      cases answer with
      | none => exact .pure (answers_some.mpr placed)
      | some found =>
          dsimp only
          split
          · exact .pure (answers_some.mpr placed)
          · refine ih _ _ ?_
            simpa [List.reverseAux_eq] using placed.append (answers_some.mp answers)

theorem keeps_matchStep {one : Form ρ → Matching ρ (Option Found)} {i : Nat}
    (each : ∀ form, KeepsAnswers src i (one form)) (sign : String) (left : Tree)
    (steps : List (String × Bool × BranchKind × Form ρ)) :
    Keeps src (fun answer => ∀ grown ∈ answer, Placed src i grown.2.trees grown.2.stop)
      (matchStep one sign left steps) := by
  induction steps with
  | nil => exact .pure fun _ impossible => nomatch impossible
  | cons step rest ih =>
      obtain ⟨expected, assigns, kind, form⟩ := step
      unfold matchStep
      split
      · refine .bind (each form) fun answer answers => ?_
        cases answer with
        | none => exact ih
        | some found => exact .pure (by simpa using answers_some.mp answers)
      · exact ih

theorem keeps_matchGrow (each : ∀ form i, KeepsAnswers src i (one form i)) (d : Dialect)
    (mode : Mode) (before : Before) (steps : List (String × Bool × BranchKind × Form ρ)) {i : Nat}
    (rounds j : Nat) (left : Tree) (placed : Placed src i [left] j) :
    Keeps src (fun grown => Placed src i [grown.2] grown.1)
      (matchGrow one d src mode before steps rounds j left) := by
  induction rounds generalizing j left with
  | zero => exact .pure placed
  | succ rounds ih =>
      unfold matchGrow
      dsimp only
      split
      · exact .pure placed
      · split
        · exact .pure placed
        · refine .bind (keeps_matchStep (each · j) _ left steps) fun answer answers => ?_
          cases answer with
          | none => exact .pure placed
          | some grown =>
              -- The operand so far becomes the first part of a branch that starts where it does.
              obtain ⟨q, order, start, left'⟩ := placed.exists_start
              refine ih _ _ ?_
              rw [start]
              exact .branch order (left'.append (answers grown rfl)) (.nil (Nat.le_refl _))

theorem keeps_read (sound : src.Sound) (g : Grammar ρ) (depth : Nat) (form : Form ρ) (mode : Mode)
    (i : Nat) : KeepsAnswers src i (Form.read g src depth form mode i) := by
  induction depth generalizing form mode i with
  | zero => exact .pure answers_none
  | succ depth ih =>
      unfold Form.read
      match form with
      | .token token => exact .pure (token.answers sound g.dialect i)
      | .rule rule =>
          refine .bind .get fun memo kept => ?_
          split
          · exact .pure (kept rule mode i _ ‹_›)
          · refine .bind (ih (g.form rule) mode i) fun answer answers => ?_
            exact .bind (.keep rule mode answers) fun _ _ => .pure answers
      | .seq forms =>
          exact keeps_matchAll (fun form i => ih form mode i) forms i [] (.nil (Nat.le_refl i))
      | .alt forms => exact keeps_matchFirst (fun form => ih form mode i) forms
      | .many form => exact keeps_matchMany (fun i => ih form mode i) _ i [] (.nil (Nat.le_refl i))
      | .ahead form =>
          refine .bind (ih form mode i) fun answer _ => ?_
          cases answer with
          | none => exact .pure answers_none
          | some found => exact .pure (answers_some.mpr (.nil (Nat.le_refl i)))
      | .unless form =>
          refine .bind (ih form mode i) fun answer _ => ?_
          cases answer with
          | none => exact .pure (answers_some.mpr (.nil (Nat.le_refl i)))
          | some found => exact .pure answers_none
      | .branch kind form =>
          refine .bind (ih form mode (src.gap i)) fun answer answers => ?_
          cases answer with
          | none => exact .pure answers_none
          | some found =>
              refine .pure (answers_some.mpr ((Source.placed_comments sound i).append ?_))
              exact .branch (Nat.le_refl _) (answers_some.mp answers) (.nil (Nat.le_refl _))
      | .within change form => exact ih form (change mode) i
      | .allowed test =>
          refine .pure ?_
          split
          · exact answers_some.mpr (.nil (Nat.le_refl i))
          · exact answers_none
      | .place form =>
          refine .bind (ih form mode i) fun answer answers => ?_
          cases answer with
          | none => exact .pure answers_none
          | some found =>
              refine .pure ?_
              split
              · exact answers
              · exact answers_none
      | .grow base before steps =>
          refine .bind (ih base mode i) fun answer answers => ?_
          cases answer with
          | none => exact .pure answers_none
          | some found =>
              dsimp only
              split
              · rename_i left last
                have placed := answers_some.mp answers
                obtain ⟨others, same⟩ := List.getLast?_eq_some_iff.mp last
                rw [same] at placed
                obtain ⟨k, front, back⟩ := placed.exists_of_append
                refine .bind (keeps_matchGrow (fun form i => ih form mode i) g.dialect mode before
                  steps _ _ left back) fun grown placed' => ?_
                refine .pure (answers_some.mpr ?_)
                rw [same, List.dropLast_concat]
                exact front.append placed'
              · exact .pure answers

theorem Grammar.answers_read (sound : src.Sound) (g : Grammar ρ) (start : ρ) :
    Answers src 0 (g.read start src) :=
  (keeps_read sound g _ (.rule start) Mode.closed 0 ∅ Memo.sound_empty).1

end

/-- The parts of a parse tree stand one behind the other in the text. -/
theorem exists_placed_of_parse {d : Dialect} {text : String} {tree : Tree}
    (parsed : parse d text = some tree) :
    ∃ stop parts j, tree = .branch .other 0 stop parts ∧
      Placed (Source.ofString text) 0 parts j := by
  obtain ⟨found, read, rfl⟩ := Option.map_eq_some_iff.mp parsed
  exact ⟨_, found.trees, found.stop, rfl,
    (grammar d).answers_read (Source.sound_ofString text) .program found read⟩

end RepoAtlas.Script
