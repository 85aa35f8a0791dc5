import Std.Data.TreeMap
import RepoAtlas.Script.LineEnd
import RepoAtlas.Script.Tree

/-! # Grammar forms and how they are matched

A grammar gives a `Form` to each of its rules. Forms are matched from left to right and
alternatives in their order; the first that matches is kept. Answers of rules are remembered by
rule, mode and position, so the time stays proportional to the length of the script however
deeply it is nested.

Operands with operators behind them are matched by `Form.grow`: an operand is found first and
then taken as the left part of ever larger operands. A step names the sign that must come next,
so most steps are refused at a glance.
-/

namespace RepoAtlas.Script

/-- What the surroundings of a form allow inside it. -/
structure Mode where
  /-- A line end may end the statement here, so it also ends the operand. -/
  lineEnds : Bool
  /-- The operator `in` belongs to the surroundings. -/
  noIn : Bool
  /-- Arrow functions have no result type here: a colon belongs to the surroundings. -/
  plainArrow : Bool
  deriving DecidableEq, Repr

/-- Inside brackets nothing of the surroundings matters. -/
def Mode.closed : Mode := { lineEnds := false, noIn := false, plainArrow := false }

/-- The lexemes with a shape of their own. -/
inductive Lexeme where
  | number | string | privateName | pattern | escape | templateText
  | markupText | characterReference | markupName | markupString | interpreterLine
  deriving DecidableEq, Repr

/-- Where a lexeme that starts at the position ends. -/
def Lexeme.end? (src : Source) (i : Nat) : Lexeme → Option Nat
  | .number => numberEnd src i
  | .string => stringEnd src i
  | .privateName => privateNameEnd src i
  | .pattern => patternEnd src i
  | .escape => escapeEnd src i
  | .templateText => templateTextEnd src i
  | .markupText => markupTextEnd src i
  | .characterReference => characterReferenceEnd src i
  | .markupName => markupNameEnd src i
  | .markupString => markupStringEnd src i
  | .interpreterLine => interpreterLineEnd src i

/-- Forms that read at most one token. -/
inductive Token where
  /-- Punctuation, as written. -/
  | mark (text : String)
  /-- Punctuation that is the longest sign at its position. -/
  | sign (text : String)
  /-- A keyword. -/
  | word (text : String)
  /-- A name that is none of the barred words; leaves an identifier. -/
  | name (barred : List String)
  /-- A name of something that is not a value; leaves nothing to be called. -/
  | label (barred : List String)
  /-- A lexeme; leaves a leaf of the kind. -/
  | lexeme (shape : Lexeme) (kind : LeafKind)
  /-- A lexeme without a gap in front of it. -/
  | tight (shape : Lexeme)
  /-- Punctuation without a gap in front of it. -/
  | tightMark (text : String)
  /-- The question mark of a conditional. -/
  | conditional
  /-- Comments in markup style, as many as there are. -/
  | markupComments
  /-- The statement ends here without a semicolon. -/
  | lineEnd (before : Before)
  /-- No line end ends the statement here. -/
  | sameStatement (before : Before)
  /-- The text ends here. -/
  | finish

/-- Forms over the rules `ρ` of a grammar. -/
inductive Form (ρ : Type) where
  | token (token : Token)
  | rule (rule : ρ)
  /-- One after the other. -/
  | seq (forms : List (Form ρ))
  /-- The first that matches. -/
  | alt (forms : List (Form ρ))
  /-- As many as there are. -/
  | many (form : Form ρ)
  /-- Matches nothing, but only where the form would match. -/
  | ahead (form : Form ρ)
  /-- Matches nothing, but only where the form would not match. -/
  | unless (form : Form ρ)
  /-- Gathers the trees of the form. -/
  | branch (kind : BranchKind) (form : Form ρ)
  /-- Matches in a changed mode. -/
  | within (change : Mode → Mode) (form : Form ρ)
  /-- Matches nothing, but only in such a mode. -/
  | allowed (test : Mode → Bool)
  /-- Accepts only an operand that a pattern may bind. -/
  | place (form : Form ρ)
  /-- An operand and what may follow it: `(sign, only after an assignable operand, kind, form)`. -/
  | grow (base : Form ρ) (before : Before) (steps : List (String × Bool × BranchKind × Form ρ))

/-- A match: where it ends and the trees it leaves, in order. -/
structure Found where
  stop : Nat
  trees : List Tree

/-- Does the operand name a place that a pattern may bind? -/
def Tree.isPlace : Tree → Bool
  | .leaf .identifier _ _ _ => true
  | .branch .member _ _ _ | .branch .subscript _ _ _ | .branch .nonNull _ _ _ => true
  | _ => false

/-- May the operand stand to the left of an assignment? Whatever is in parentheses may. -/
def Tree.isAssignable : Tree → Bool
  | .branch .parenthesized _ _ _ => true
  | tree => tree.isPlace

namespace Source

/-- The comments between two positions of a gap. -/
def commentsBetween (src : Source) (stop : Nat) : Nat → Nat → List Tree
  | 0, _ => []
  | rounds + 1, i =>
    if stop ≤ i then []
    else
      match commentEnd src.chars i with
      | some j =>
        .leaf .comment (src.byteOffset i) (src.byteOffset j) (src.slice i j) ::
          src.commentsBetween stop rounds j
      | none => src.commentsBetween stop rounds (skipWhile src.chars isGap (i + 1))

/-- The comments in the gap at a position. -/
def comments (src : Source) (i : Nat) : List Tree :=
  src.commentsBetween (src.gap i) (src.gap i - i) i

/-- The leaf between two positions. -/
def leaf (src : Source) (kind : LeafKind) (i j : Nat) : Tree :=
  .leaf kind (src.byteOffset i) (src.byteOffset j) (src.slice i j)

/-- Passes comments in markup style. -/
def skipMarkupComments (src : Source) : Nat → Nat → Nat
  | 0, i => i
  | rounds + 1, i =>
    match markupCommentEnd src (src.gap i) with
    | some j => src.skipMarkupComments rounds j
    | none => i

/-- The question mark of a conditional is followed by an operand. Before a colon, a closing
    parenthesis or a comma it marks something optional, and a point belongs to it only as the
    start of a number. -/
def conditionalMark (src : Source) (i : Nat) : Bool :=
  src.look i = '?' && src.look (i + 1) != '?' &&
    let j := skipWhile src.chars isBreakable (i + 1)
    match src.look j with
    | ':' | ')' | ',' => false
    | '.' => (src.look (j + 1)).isDigit
    | _ => true

end Source

/-- Matches a token. -/
def Token.read (d : Dialect) (src : Source) (i : Nat) : Token → Option Found
  | .mark text =>
    let q := src.gap i
    if src.standsAt text.toList q then some ⟨q + text.length, src.comments i⟩ else none
  | .sign text =>
    let q := src.gap i
    if src.standsAt text.toList q && signAt src q == text then
      some ⟨q + text.length, src.comments i⟩
    else none
  | .word text =>
    let q := src.gap i
    if src.standsAt text.toList q && nameEnd src q == some (q + text.length) then
      some ⟨q + text.length, src.comments i⟩
    else none
  | .name barred =>
    let q := src.gap i
    match nameEnd src q with
    | some j =>
      if barred.contains (src.slice q j) then none
      else some ⟨j, src.comments i ++ [src.leaf .identifier q j]⟩
    | none => none
  | .label barred =>
    let q := src.gap i
    match nameEnd src q with
    | some j =>
      if barred.contains (src.slice q j) then none
      else some ⟨j, src.comments i ++ [src.leaf .other q j]⟩
    | none => none
  | .lexeme shape kind =>
    let q := src.gap i
    (shape.end? src q).map fun j => ⟨j, src.comments i ++ [src.leaf kind q j]⟩
  | .tight shape => (shape.end? src i).map fun j => ⟨j, []⟩
  | .tightMark text =>
    if src.standsAt text.toList i then some ⟨i + text.length, []⟩ else none
  | .conditional =>
    let q := src.gap i
    if src.conditionalMark q then some ⟨q + 1, src.comments i⟩ else none
  | .markupComments => some ⟨src.skipMarkupComments (src.size + 1) i, []⟩
  | .lineEnd before => if src.endsStatement d before i then some ⟨i, []⟩ else none
  | .sameStatement before => if src.endsStatement d before i then none else some ⟨i, []⟩
  | .finish => if src.atEnd (src.gap i) then some ⟨src.gap i, src.comments i⟩ else none

/-- A grammar: its dialect and the form of each rule. -/
structure Grammar (ρ : Type) where
  dialect : Dialect
  form : ρ → Form ρ

/-- Answers of rules found so far, by position. Few rules are tried at any one position. -/
abbrev Memo (ρ : Type) := Std.TreeMap Nat (List ((ρ × Mode) × Option Found))

namespace Memo

variable {ρ : Type} [BEq ρ]

/-- The answer of a rule at a position, if there is one yet. -/
def answer? (memo : Memo ρ) (rule : ρ) (mode : Mode) (i : Nat) : Option (Option Found) :=
  (memo.getD i []).lookup (rule, mode)

/-- Keeps the answer of a rule at a position. -/
def keep (memo : Memo ρ) (rule : ρ) (mode : Mode) (i : Nat) (answer : Option Found) : Memo ρ :=
  memo.insert i (((rule, mode), answer) :: memo.getD i [])

end Memo

/-- A computation that remembers answers. -/
abbrev Matching (ρ : Type) := StateM (Memo ρ)

section

variable {ρ : Type} [BEq ρ]

/-- Matches forms one after the other; `trees` holds the trees so far, latest first. -/
def matchAll (one : Form ρ → Nat → Matching ρ (Option Found)) :
    List (Form ρ) → Nat → List Tree → Matching ρ (Option Found)
  | [], i, trees => pure (some ⟨i, trees.reverse⟩)
  | form :: rest, i, trees => do
    match ← one form i with
    | some found => matchAll one rest found.stop (found.trees.reverseAux trees)
    | none => pure none

/-- Matches the first form that fits. -/
def matchFirst (one : Form ρ → Matching ρ (Option Found)) :
    List (Form ρ) → Matching ρ (Option Found)
  | [] => pure none
  | form :: rest => do
    match ← one form with
    | some found => pure (some found)
    | none => matchFirst one rest

/-- Matches a form as often as it goes on. -/
def matchMany (one : Nat → Matching ρ (Option Found)) :
    Nat → Nat → List Tree → Matching ρ (Option Found)
  | 0, i, trees => pure (some ⟨i, trees.reverse⟩)
  | rounds + 1, i, trees => do
    match ← one i with
    | some found =>
      if found.stop ≤ i then pure (some ⟨i, trees.reverse⟩)
      else matchMany one rounds found.stop (found.trees.reverseAux trees)
    | none => pure (some ⟨i, trees.reverse⟩)

/-- Tries the steps that may follow an operand. -/
def matchStep (one : Form ρ → Matching ρ (Option Found)) (sign : String) (left : Tree) :
    List (String × Bool × BranchKind × Form ρ) → Matching ρ (Option (BranchKind × Found))
  | [] => pure none
  | (expected, assigns, kind, form) :: rest => do
    if expected == sign && (!assigns || left.isAssignable) then
      match ← one form with
      | some found => pure (some (kind, found))
      | none => matchStep one sign left rest
    else matchStep one sign left rest

/-- Grows an operand as long as a step fits. -/
def matchGrow (one : Form ρ → Nat → Matching ρ (Option Found)) (d : Dialect) (src : Source)
    (mode : Mode) (before : Before) (steps : List (String × Bool × BranchKind × Form ρ)) :
    Nat → Nat → Tree → Matching ρ (Nat × Tree)
  | 0, i, left => pure (i, left)
  | rounds + 1, i, left => do
    let sign := signAt src (src.gap i)
    if !(steps.any fun step => step.1 == sign) then pure (i, left)
    else if mode.lineEnds && src.endsStatement d before i then pure (i, left)
    else
      match ← matchStep (one · i) sign left steps with
      | some (kind, found) =>
        let larger := Tree.branch kind left.start (src.byteOffset found.stop) (left :: found.trees)
        matchGrow one d src mode before steps rounds found.stop larger
      | none => pure (i, left)

/-- Matches a form at a position. The first argument bounds the depth of forms inside forms. -/
def Form.read (g : Grammar ρ) (src : Source) :
    Nat → Form ρ → Mode → Nat → Matching ρ (Option Found)
  | 0, _, _, _ => pure none
  | depth + 1, form, mode, i =>
    match form with
    | .token t => pure (t.read g.dialect src i)
    | .rule r => do
      match (← get).answer? r mode i with
      | some answer => pure answer
      | none =>
        let answer ← Form.read g src depth (g.form r) mode i
        modify (·.keep r mode i answer)
        pure answer
    | .seq forms => matchAll (fun form i => Form.read g src depth form mode i) forms i []
    | .alt forms => matchFirst (fun form => Form.read g src depth form mode i) forms
    | .many form => matchMany (fun i => Form.read g src depth form mode i) (src.size + 1) i []
    | .ahead form => do
      match ← Form.read g src depth form mode i with
      | some _ => pure (some ⟨i, []⟩)
      | none => pure none
    | .unless form => do
      match ← Form.read g src depth form mode i with
      | some _ => pure none
      | none => pure (some ⟨i, []⟩)
    | .branch kind form => do
      let q := src.gap i
      match ← Form.read g src depth form mode q with
      | some found =>
        let tree := Tree.branch kind (src.byteOffset q) (src.byteOffset found.stop) found.trees
        pure (some ⟨found.stop, src.comments i ++ [tree]⟩)
      | none => pure none
    | .within change form => Form.read g src depth form (change mode) i
    | .allowed test => pure (if test mode then some ⟨i, []⟩ else none)
    | .place form => do
      match ← Form.read g src depth form mode i with
      | some found =>
        pure (if (found.trees.getLast?.map Tree.isPlace).getD false then some found else none)
      | none => pure none
    | .grow base before steps => do
      match ← Form.read g src depth base mode i with
      | some found =>
        match found.trees.getLast? with
        | some left => do
          let grown ← matchGrow (fun form i => Form.read g src depth form mode i) g.dialect src
            mode before steps (src.size + 1) found.stop left
          pure (some ⟨grown.1, found.trees.dropLast ++ [grown.2]⟩)
        | none => pure (some found)
      | none => pure none

/-- Matches a rule at the start of a source. No chain of forms between two tokens is longer than
    the factor, so the depth never cuts a match short. -/
def Grammar.read (g : Grammar ρ) (start : ρ) (src : Source) : Option Found :=
  ((Form.read g src ((src.size + 2) * 1024) (.rule start) Mode.closed 0).run ∅).1

end

end RepoAtlas.Script
