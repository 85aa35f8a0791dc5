import RepoAtlas.Proofs.Explanation.Naming

/-! # What is recognised in a text

A text is cut at all lines that are made like headings, and each tier is what stands below the first
heading that belongs to it. A heading whose first word has an i of another kind belongs to none: it
still ends the text of the heading before it, but what stands below it is lost.
-/

namespace RepoAtlas.Explanation

/-! ## Where headings are recognised -/

/-- A heading that is recognised, with the marks around it and the text below it. -/
structure Occurrence where
  lead : List Char
  heading : List Char
  closing : List Char
  below : List Char

namespace Occurrence

def text (o : Occurrence) : List Char := o.lead ++ (o.heading ++ (o.closing ++ o.below))

def block (o : Occurrence) : Block :=
  { heading := String.ofList o.heading, body := Text.strip (String.ofList o.below) }

end Occurrence

/-- No heading opens a line that starts inside the text. -/
structure Unopened (atStart : Bool) (text rest : List Char) : Prop where
  first : atStart = true → text ≠ [] → ¬Opened (text ++ rest)
  later : ∀ after, after ≠ [] → '\n' :: after <:+ text → ¬Opened (after ++ rest)

/-- Does a line start behind the text? -/
def startsBehind (atStart : Bool) (text : List Char) : Bool := text.getLast?.elim atStart (· = '\n')

/-- The occurrences are the headings that open lines behind the text before them, and neither that
    text nor what stands below one of them has a line that is opened by another heading. -/
inductive Laid : Bool → List Char → List Occurrence → Prop
  | last {atStart : Bool} {text : List Char} (plain : Unopened atStart text []) :
      Laid atStart text []
  | next {atStart : Bool} {before : List Char} {o : Occurrence} {more : List Occurrence}
      (line : startsBehind atStart before = true)
      (plain : Unopened atStart before (o.text ++ more.flatMap Occurrence.text))
      (opens : Opens o.lead o.heading o.closing (o.below ++ more.flatMap Occurrence.text))
      (later : Laid false o.below more) : Laid atStart before (o :: more)

section Laid

variable {atStart : Bool} {c : Char} {text rest : List Char} {occurrences : List Occurrence}

theorem startsBehind_cons : startsBehind atStart (c :: text) = startsBehind (c = '\n') text := by
  rw [startsBehind, startsBehind, List.getLast?_cons]
  cases text.getLast? <;> rfl

theorem unopened_nil (rest : List Char) : Unopened atStart [] rest where
  first _ nonempty := absurd rfl nonempty
  later _ _ inside := by simp at inside

theorem unopened_cons : Unopened atStart (c :: text) rest ↔
    (atStart = true → ¬Opened (c :: (text ++ rest))) ∧ Unopened (c = '\n') text rest := by
  constructor
  · intro plain
    refine ⟨fun start => plain.first start (by simp), ?_, ?_⟩
    · intro feed nonempty
      exact plain.later text nonempty (of_decide_eq_true feed ▸ List.suffix_refl _)
    · intro after nonempty inside
      exact plain.later after nonempty (inside.trans (List.suffix_cons c text))
  · rintro ⟨first, plain⟩
    refine ⟨fun start _ => first start, ?_⟩
    intro after nonempty inside
    rcases List.suffix_cons_iff.mp inside with same | inside
    · obtain ⟨rfl, rfl⟩ := List.cons.inj same
      exact plain.first (by simp) nonempty
    · exact plain.later after nonempty inside

theorem Laid.cons (laid : Laid (c = '\n') text occurrences)
    (first : atStart = true → ¬Opened (c :: (text ++ occurrences.flatMap Occurrence.text))) :
    Laid atStart (c :: text) occurrences := by
  cases laid with
  | last plain => exact .last (unopened_cons.mpr ⟨first, plain⟩)
  | next line plain opens later =>
      exact .next (startsBehind_cons.trans line) (unopened_cons.mpr ⟨first, plain⟩) opens later

/-- Every text can be laid out: its first heading, if there is one, is found from the left. -/
theorem exists_laid (atStart : Bool) (cs : List Char) :
    ∃ before occurrences, cs = before ++ occurrences.flatMap Occurrence.text ∧
      Laid atStart before occurrences := by
  induction size : cs.length using Nat.strong_induction_on generalizing cs atStart with
  | h size' ih =>
      subst size
      cases cs with
      | nil => exact ⟨[], [], rfl, .last (unopened_nil [])⟩
      | cons c rest =>
          by_cases starts : atStart = true ∧ Opened (c :: rest)
          case pos =>
            obtain ⟨rfl, lead, heading, closing, behind, same, opens⟩ := starts
            have shorter := length_of_headingAt?
              (headingAt?_eq_some_iff.mpr ⟨lead, closing, same, opens⟩)
            obtain ⟨below, more, rfl, laid⟩ := ih behind.length shorter false behind rfl
            refine ⟨[], ⟨lead, heading, closing, below⟩ :: more, ?_, ?_⟩
            · simp only [same, List.flatMap_cons, Occurrence.text, List.nil_append,
                List.append_assoc]
            · exact .next rfl (unopened_nil _) opens laid
          case neg =>
            obtain ⟨before, more, rfl, laid⟩ := ih rest.length (Nat.lt_succ_self _) (c = '\n') rest rfl
            refine ⟨c :: before, more, rfl, laid.cons ?_⟩
            intro start opened
            exact starts ⟨start, opened⟩

/-- A text without headings is passed over. -/
theorem cut_unopened (plain : Unopened atStart text rest) :
    cut atStart (text ++ rest) =
      (text ++ (cut (startsBehind atStart text) rest).1,
        (cut (startsBehind atStart text) rest).2) := by
  induction text generalizing atStart with
  | nil => rfl
  | cons c text ih =>
      obtain ⟨first, plain⟩ := unopened_cons.mp plain
      have none : atStart = true → headingAt? (c :: (text ++ rest)) = none :=
        fun start => headingAt?_eq_none_of_not_opened.mpr (first start)
      rw [List.cons_append, cut_cons none, ih plain, startsBehind_cons, List.cons_append]

/-- A text is cut as it is laid out, so there is only one way to do so. -/
theorem Laid.cut_eq (laid : Laid atStart text occurrences) :
    cut atStart (text ++ occurrences.flatMap Occurrence.text) =
      (text, occurrences.map Occurrence.block) := by
  induction laid with
  | last plain =>
      rw [List.flatMap_nil, cut_unopened plain, cut, List.append_nil]
      rfl
  | @next _ before o more line plain opens later ih =>
      have found : headingAt? (o.text ++ more.flatMap Occurrence.text) =
          some (o.heading, o.below ++ more.flatMap Occurrence.text) := by
        apply headingAt?_eq_some_iff.mpr
        exact ⟨o.lead, o.closing, by simp only [Occurrence.text, List.append_assoc], opens⟩
      rw [List.flatMap_cons, cut_unopened plain, line, cut_heading found, ih, List.append_nil]
      rfl

theorem Laid.spelt (laid : Laid atStart text occurrences) :
    ∀ o ∈ occurrences, ∃ marks ∈ spellings, Spelt marks o.heading := by
  induction laid with
  | last => exact List.forall_mem_nil _
  | next _ _ opens _ ih => exact List.forall_mem_cons.mpr ⟨opens.spelt, ih⟩

end Laid

/-! ## What is told of a heading -/

/-- The heading is one of the tier, and its first word has no i of another kind. -/
def Occurrence.Belongs (o : Occurrence) (tier : Tier) : Prop :=
  tier.Heads o.heading ∧ dotted (firstWord o.heading) = false

section Belongs

variable {o : Occurrence} (spelt : ∃ marks ∈ spellings, Spelt marks o.heading)

include spelt

theorem tierOf?_eq_some_iff {tier : Tier} :
    tierOf? o.block.heading = some tier ↔ o.Belongs tier := by
  rw [Occurrence.block]
  constructor
  · intro found
    obtain ⟨other, heads⟩ := exists_heads spelt
    rw [tierOf?_of_heads heads] at found
    split at found
    case isTrue => exact absurd found (by simp)
    case isFalse clean =>
      cases found
      exact ⟨heads, Bool.eq_false_iff.mpr clean⟩
  · rintro ⟨heads, clean⟩
    simp [tierOf?_of_heads heads, clean]

theorem tierOf?_eq_none_iff :
    tierOf? o.block.heading = none ↔ dotted (firstWord o.heading) = true := by
  obtain ⟨tier, heads⟩ := exists_heads spelt
  rw [Occurrence.block, tierOf?_of_heads heads]
  cases dotted (firstWord o.heading) <;> simp

end Belongs

/-! ## The tiers of a text -/

/-- The text is laid out as it is before the first heading and as the headings that open its lines. -/
structure Recognises (text : String) (before : List Char) (occurrences : List Occurrence) : Prop where
  whole : (Text.strip text).toList = before ++ occurrences.flatMap Occurrence.text
  laid : Laid true before occurrences

section Recognises

variable {text : String} {before : List Char} {occurrences : List Occurrence}
  (recognises : Recognises text before occurrences)

include recognises

theorem Recognises.cut_eq :
    cut true (Text.strip text).toList = (before, occurrences.map Occurrence.block) := by
  rw [recognises.whole, recognises.laid.cut_eq]

/-- The text of a tier is that below the first of the occurrences that belong to it. -/
theorem Recognises.body_eq (nonempty : occurrences ≠ []) (tier : Tier) :
    (ofText text).body tier =
      ((occurrences.find? fun o => tierOf? o.block.heading = some tier).map (·.block.body)).getD
        "" := by
  have some_block : (occurrences.map Occurrence.block).isEmpty = false := by simpa using nonempty
  have first : bodyOf tier (occurrences.map Occurrence.block) =
      ((occurrences.find? fun o => tierOf? o.block.heading = some tier).map (·.block.body)).getD
        "" := by
    rw [bodyOf, List.find?_map, Option.map_map]
    rfl
  rw [← first, ofText, recognises.cut_eq]
  simp only [some_block, Bool.false_eq_true, if_false]
  cases tier <;> rfl

end Recognises

/-- A text can be laid out as headings that open its lines, and then each tier is the text below the
    first heading that belongs to it. Only headings with an i of another kind in their first word
    belong to no tier. -/
theorem ofText_recognises (text : String) :
    (∃ before occurrences, Recognises text before occurrences) ∧
    ∀ before occurrences, Recognises text before occurrences →
      (occurrences = [] → ofText text = ⟨Text.strip text, "", ""⟩) ∧
      (∀ o ∈ occurrences, ∀ tier, tierOf? o.block.heading = some tier ↔ o.Belongs tier) ∧
      (∀ o ∈ occurrences, tierOf? o.block.heading = none ↔ dotted (firstWord o.heading) = true) ∧
      (∀ earlier o later tier, occurrences = earlier ++ o :: later → o.Belongs tier →
        (∀ e ∈ earlier, ¬e.Belongs tier) → (ofText text).body tier = o.block.body) ∧
      ∀ tier, occurrences ≠ [] → (∀ o ∈ occurrences, ¬o.Belongs tier) →
        (ofText text).body tier = "" := by
  constructor
  · obtain ⟨before, occurrences, whole, laid⟩ := exists_laid true (Text.strip text).toList
    exact ⟨before, occurrences, whole, laid⟩
  intro before occurrences recognises
  have tells : ∀ o ∈ occurrences, ∀ tier, tierOf? o.block.heading = some tier ↔ o.Belongs tier :=
    fun o inside tier => tierOf?_eq_some_iff (recognises.laid.spelt o inside)
  refine ⟨?_, tells, ?_, ?_, ?_⟩
  · rintro rfl
    simp [ofText, recognises.cut_eq]
  · intro o inside
    exact tierOf?_eq_none_iff (recognises.laid.spelt o inside)
  · rintro earlier o later tier rfl belongs first
    have here : (earlier ++ o :: later).find? (fun o => tierOf? o.block.heading = some tier) =
        some o := by
      apply List.find?_eq_some_iff_append.mpr
      refine ⟨by simpa using (tells o (by simp) tier).mpr belongs, earlier, later, rfl, ?_⟩
      intro e before
      simpa using mt (tells e (List.mem_append_left _ before) tier).mp (first e before)
    rw [recognises.body_eq (by simp), here]
    rfl
  · intro tier nonempty missing
    have none : occurrences.find? (fun o => tierOf? o.block.heading = some tier) = none := by
      apply List.find?_eq_none.mpr
      intro o inside
      simpa using mt (tells o inside tier).mp (missing o inside)
    rw [recognises.body_eq nonempty, none]
    rfl

/-- A heading in capitals with a dotted I is recognised and belongs to no tier, so what stands below it
    is lost. -/
theorem ofText_dotted :
    headingAt? "İNTERMEDIATE: x".toList = some ("İNTERMEDIATE".toList, ['x']) ∧
      tierOf? "İNTERMEDIATE" = none ∧ ofText "İNTERMEDIATE: x" = ⟨"", "", ""⟩ := by
  have found : headingAt? "İNTERMEDIATE: x".toList = some ("İNTERMEDIATE".toList, ['x']) := by
    decide
  have below : cut false ['x'] = (['x'], []) := by
    rw [cut_cons (by simp), cut]
  have untold : tierOf? "İNTERMEDIATE" = none := by decide
  have blocks : (cut true (Text.strip "İNTERMEDIATE: x").toList).2 =
      [{ heading := "İNTERMEDIATE", body := "x" }] := by
    rw [show Text.strip "İNTERMEDIATE: x" = "İNTERMEDIATE: x" by decide, cut_heading found, below]
    rfl
  refine ⟨found, untold, ?_⟩
  simp [ofText, blocks, bodyOf, untold]

end RepoAtlas.Explanation
