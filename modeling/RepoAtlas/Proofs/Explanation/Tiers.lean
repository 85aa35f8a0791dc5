import RepoAtlas.Explanation.Tiers
import RepoAtlas.Proofs.Explanation.Heading

/-! # Reading a written explanation

An explanation is written tier by tier, each behind its title: the body follows a colon on the same
line or stands on the lines below. Whatever marks decorate the titles and however many empty lines
stand between the tiers, reading gives back the bodies that were written, as long as no line of a body
is a heading itself.
-/

namespace RepoAtlas.Explanation

/-- The titles that a tier is written under. -/
def Tier.titles : Tier → List String
  | .simple => ["Explain it Like I'm 5", "ELI5"]
  | .intermediate => ["INTERMEDIATE"]
  | .technical => ["TECHNICAL"]

/-- Where a body stands. -/
inductive Placing where
  /-- On the line of its heading, behind a colon and a space. -/
  | behindColon
  /-- On the lines below its heading. -/
  | below
  deriving DecidableEq, Repr

/-- What stands between a heading and its body. -/
def Placing.text : Placing → List Char
  | .behindColon => [':', ' ']
  | .below => ['\n']

/-- What of it is read as a part of the body. -/
def Placing.kept : Placing → List Char
  | .behindColon => []
  | .below => ['\n']

theorem Placing.isBlank_of_kept (placing : Placing) : ∀ c ∈ placing.kept, Text.isBlank c = true := by
  cases placing with
  | behindColon => exact List.forall_mem_nil _
  | below => exact List.forall_mem_singleton.mpr (by decide)

/-- A tier as it is written: marks, a title, marks and the body. -/
structure Passage where
  tier : Tier
  lead : List Char
  heading : List Char
  trail : List Char
  placing : Placing
  body : String
  deriving DecidableEq, Repr

namespace Passage

/-- The text behind the heading. -/
def behind (p : Passage) : List Char := p.trail ++ (p.placing.text ++ p.body.toList)

def text (p : Passage) : List Char := p.lead ++ (p.heading ++ p.behind)

/-- The block that a passage is read as. -/
def block (p : Passage) : Block := { heading := String.ofList p.heading, body := p.body }

/-- What can be written as a passage. -/
structure Legible (p : Passage) : Prop where
  lead : ∀ c ∈ p.lead, c ∈ " \t#>*-.)".toList ∨ (Text.digit? c).isSome = true
  /-- Capital and small letters are mixed in any way. -/
  heading : ∃ title ∈ p.tier.titles, p.heading.map Char.toLower = title.toList.map Char.toLower
  trail : ∀ c ∈ p.trail, c ∈ " \t*#".toList
  bare : Text.strip p.body = p.body
  /-- No line inside the body is a heading. -/
  plain : ∀ after, '\n' :: after <:+ p.body.toList → headingAt? after = none
  /-- The first line of the body is the start of a line only below the heading. -/
  plainBelow : p.placing = .below → headingAt? p.body.toList = none
  /-- A star behind the colon would count as decoration. -/
  unstarred : p.placing = .behindColon → p.body.toList.head? ≠ some '*'

/-- Is no heading read behind a line feed of the text? -/
def plainLines : List Char → Bool
  | [] => true
  | c :: rest => (c ≠ '\n' || headingAt? rest = none) && plainLines rest

theorem plainLines_iff {cs : List Char} :
    plainLines cs = true ↔ ∀ after, '\n' :: after <:+ cs → headingAt? after = none := by
  induction cs with
  | nil => simp [plainLines]
  | cons c rest later =>
      simp only [plainLines, Bool.and_eq_true, Bool.or_eq_true, decide_eq_true_eq, later,
        List.suffix_cons_iff, List.cons.injEq]
      constructor
      · rintro ⟨first, others⟩ after (⟨rfl, rfl⟩ | inside)
        · exact first.resolve_left (absurd rfl)
        · exact others after inside
      · intro all
        refine ⟨?_, fun after inside => all after (.inr inside)⟩
        by_cases feed : c = '\n'
        · exact .inr (all rest (.inl ⟨feed.symm, rfl⟩))
        · exact .inl feed

theorem legible_iff (p : Passage) :
    p.Legible ↔ p.lead.all isLeadMark = true ∧
      (∃ title ∈ p.tier.titles, p.heading.map Char.toLower = title.toList.map Char.toLower) ∧
      p.trail.all isTrailMark = true ∧ Text.strip p.body = p.body ∧ plainLines p.body.toList = true ∧
      (p.placing = .below → headingAt? p.body.toList = none) ∧
      (p.placing = .behindColon → p.body.toList.head? ≠ some '*') := by
  simp only [List.all_eq_true, isLeadMark_iff, isTrailMark_iff, plainLines_iff]
  constructor
  · rintro ⟨lead, heading, trail, bare, plain, below, star⟩
    exact ⟨lead, heading, trail, bare, plain, below, star⟩
  · rintro ⟨lead, heading, trail, bare, plain, below, star⟩
    exact ⟨lead, heading, trail, bare, plain, below, star⟩

instance (p : Passage) : Decidable p.Legible := decidable_of_iff _ p.legible_iff.symm

end Passage

/-- The text of the passages behind the first one, each with one line feed at least in front of it. -/
def joined (more : List (Nat × Passage)) : List Char :=
  more.flatMap fun (breaks, p) => List.replicate (breaks + 1) '\n' ++ p.text

/-- The passages of an explanation. -/
def passages (first : Passage) (more : List (Nat × Passage)) : List Passage := first :: more.map (·.2)

/-- The text of passages. -/
def render (first : Passage) (more : List (Nat × Passage)) : List Char := first.text ++ joined more

/-! ## The tier of a title -/

theorem tierOf?_of_title {tier : Tier} {title : String} {heading : List Char}
    (titles : title ∈ tier.titles)
    (written : heading.map Char.toLower = title.toList.map Char.toLower) :
    tierOf? (String.ofList heading) = some tier := by
  have plain : (tier.titles.all fun title => (title.toList.map Char.toLower).all
      (·.toNat < 128)) = true := by
    cases tier <;> decide
  have name : Text.lower (String.ofList heading) =
      String.ofList (title.toList.map Char.toLower) :=
    Text.lower_of_letters (by rw [String.toList_ofList, written])
      (List.all_eq_true.mp plain title titles)
  rw [tierOf?, name]
  cases tier with
  | simple =>
      rcases List.mem_pair.mp titles with rfl | rfl
      · decide
      · decide
  | intermediate =>
      obtain rfl := List.mem_singleton.mp titles
      decide
  | technical =>
      obtain rfl := List.mem_singleton.mp titles
      decide

theorem written_of_title {tier : Tier} {title : String} {heading : List Char}
    (titles : title ∈ tier.titles)
    (written : heading.map Char.toLower = title.toList.map Char.toLower) :
    ∃ marks ∈ spellings, Written marks heading := by
  have spelled : (tier.titles.all fun title => spellings.any fun marks =>
      title.toList.map Char.toLower = marks.map Mark.plain) = true := by
    cases tier <;> decide
  obtain ⟨marks, member, same⟩ := List.any_eq_true.mp (List.all_eq_true.mp spelled title titles)
  exact ⟨marks, member, written.trans (of_decide_eq_true same)⟩

/-! ## The end of a heading -/

theorem isBodyMark_cases {c : Char} (mark : isBodyMark c = true) : Text.isBlank c = true ∨ c = '*' := by
  have inside : c ∈ " \t*".toList := List.contains_iff_mem.mp mark
  have among : (" \t*".toList.all fun c => Text.isBlank c || c = '*') = true := by decide
  simpa using List.all_eq_true.mp among c inside

section Closing

variable {trail : List Char} (trails : ∀ c ∈ trail, isTrailMark c = true)

include trails

theorem closed?_trail : closed? trail = some [] := by
  rw [closed?, List.dropWhile_eq_nil_iff.mpr trails]

theorem closed?_trail_colon (rest : List Char) :
    closed? (trail ++ ':' :: rest) = some (rest.dropWhile isBodyMark) := by
  rw [closed?, List.dropWhile_append_of_pos trails, List.dropWhile_cons_of_neg (by decide)]
  rfl

theorem closed?_trail_lineFeed (rest : List Char) :
    closed? (trail ++ '\n' :: rest) = some ('\n' :: rest) := by
  rw [closed?, List.dropWhile_append_of_pos trails, List.dropWhile_cons_of_neg (by decide)]
  rfl

end Closing

/-! ## Cutting -/

theorem cut_heading {cs heading after : List Char} (found : headingAt? cs = some (heading, after)) :
    cut true cs = ([], { heading := String.ofList heading,
                         body := Text.strip (String.ofList (cut false after).1) } ::
                       (cut false after).2) := by
  cases cs with
  | nil => exact absurd (length_of_headingAt? found) (Nat.not_lt_zero _)
  | cons c rest =>
      rw [cut]
      split
      case h_1 heading' after' found' =>
        rw [if_pos rfl, found] at found'
        obtain ⟨rfl, rfl⟩ := Prod.mk.inj (Option.some.inj found')
        rfl
      case h_2 none =>
        rw [if_pos rfl, found] at none
        exact absurd none (by simp)

theorem cut_cons {atStart : Bool} {c : Char} {rest : List Char}
    (none : atStart = true → headingAt? (c :: rest) = none) :
    cut atStart (c :: rest) = (c :: (cut (c = '\n') rest).1, (cut (c = '\n') rest).2) := by
  rw [cut]
  split
  case h_1 found =>
    cases atStart with
    | false => exact absurd found (by simp)
    | true =>
        rw [if_pos rfl, none rfl] at found
        exact absurd found (by simp)
  case h_2 => rfl

theorem cut_lineFeed (atStart : Bool) (rest : List Char) :
    cut atStart ('\n' :: rest) = ('\n' :: (cut true rest).1, (cut true rest).2) :=
  cut_cons fun _ => headingAt?_lineFeed rest

theorem cut_lineFeeds (breaks : Nat) (cs : List Char) (atStart : Bool) :
    cut atStart (List.replicate (breaks + 1) '\n' ++ cs) =
      (List.replicate (breaks + 1) '\n' ++ (cut true cs).1, (cut true cs).2) := by
  induction breaks generalizing atStart with
  | zero =>
      rw [List.replicate_one, List.singleton_append, cut_lineFeed]
      rfl
  | succ breaks later =>
      rw [List.replicate_succ, List.cons_append, cut_lineFeed, later]
      rfl

/-- A text without headings is passed over. -/
theorem cut_plain {cs rest tail : List Char} {blocks : List Block}
    (behind : ∀ atStart, cut atStart rest = (tail, blocks))
    (plain : ∀ after, '\n' :: after <:+ cs → headingAt? (after ++ rest) = none)
    (atStart : Bool) (first : atStart = true → headingAt? (cs ++ rest) = none) :
    cut atStart (cs ++ rest) = (cs ++ tail, blocks) := by
  induction cs generalizing atStart with
  | nil => exact behind atStart
  | cons c cs later =>
      have inner := later (fun after inside => plain after (inside.trans (List.suffix_cons c cs)))
        (c = '\n') fun feed => plain cs (of_decide_eq_true feed ▸ List.suffix_refl _)
      rw [List.cons_append] at first
      rw [List.cons_append, cut_cons first, inner, List.cons_append]

/-! ## Passages -/

namespace Passage.Legible

variable {p : Passage} (legible : p.Legible)

include legible

theorem leads : ∀ c ∈ p.lead, isLeadMark c = true :=
  fun c inside => isLeadMark_iff.mpr (legible.lead c inside)

theorem trails : ∀ c ∈ p.trail, isTrailMark c = true :=
  fun c inside => isTrailMark_iff.mpr (legible.trail c inside)

theorem written : ∃ marks ∈ spellings, Written marks p.heading := by
  obtain ⟨title, titles, same⟩ := legible.heading
  exact written_of_title titles same

theorem tierOf?_heading : tierOf? (String.ofList p.heading) = some p.tier := by
  obtain ⟨title, titles, same⟩ := legible.heading
  exact tierOf?_of_title titles same

theorem tight : Text.Tight p.body := Text.tight_of_strip legible.bare

/-- The body is kept whole by the end of the heading. -/
theorem closed?_behind (rest : List Char) (apart : rest.head?.all (!isBodyMark ·) = true) :
    closed? (p.behind ++ rest) = some (p.placing.kept ++ (p.body.toList ++ rest)) := by
  have placed : p.behind ++ rest = p.trail ++ (p.placing.text ++ (p.body.toList ++ rest)) := by
    simp only [behind, List.append_assoc]
  rw [placed]
  cases place : p.placing with
  | below => exact closed?_trail_lineFeed legible.trails _
  | behindColon =>
      have start : (p.body.toList ++ rest).dropWhile isBodyMark = p.body.toList ++ rest := by
        have solid := legible.tight.1
        have unstarred := legible.unstarred place
        cases letters : p.body.toList with
        | nil =>
            cases rest with
            | nil => rfl
            | cons c rest => exact List.dropWhile_cons_of_neg (by simpa using apart)
        | cons c more =>
            rw [letters] at solid unstarred
            refine List.dropWhile_cons_of_neg fun mark => ?_
            rcases isBodyMark_cases mark with blank | star
            · simp [blank] at solid
            · exact unstarred (congrArg some star)
      rw [Placing.text, List.cons_append, closed?_trail_colon legible.trails]
      rw [List.cons_append, List.dropWhile_cons_of_pos (by decide), List.nil_append, start]
      rfl

/-- The body is passed over up to the text behind it. -/
theorem cut_body {rest tail : List Char} {blocks : List Block}
    (behind : ∀ atStart, cut atStart rest = (tail, blocks)) (quiet : Quiet rest) :
    cut false (p.placing.kept ++ (p.body.toList ++ rest)) =
      (p.placing.kept ++ (p.body.toList ++ tail), blocks) := by
  have plain : ∀ after, '\n' :: after <:+ p.body.toList → headingAt? (after ++ rest) = none := by
    rintro after ⟨start, split⟩
    have whole := legible.tight.2
    rw [← split] at whole
    exact quiet after (Text.last_of_append ['\n'] (Text.last_of_append start whole))
      (legible.plain after ⟨start, split⟩)
  cases place : p.placing with
  | behindColon => exact cut_plain behind plain false (fun start => absurd start (by simp))
  | below =>
      have body := cut_plain behind plain true fun _ =>
        quiet p.body.toList legible.tight.2 (legible.plainBelow place)
      rw [Placing.kept, List.singleton_append, cut_lineFeed, body]
      rfl

/-- The last body is read although the blanks at the end of the text are stripped. -/
theorem closed?_stripRight : ∃ before, (∀ c ∈ before, Text.isBlank c = true) ∧
    closed? (Text.stripRight p.behind) = some (before ++ p.body.toList) ∧
    cut false (before ++ p.body.toList) = (before ++ p.body.toList, []) := by
  cases letters : p.body.toList with
  | cons c more =>
      have solid : p.behind.getLast?.all (!Text.isBlank ·) = true := by
        rw [behind, List.getLast?_append_of_ne_nil _ (by simp [letters]),
          List.getLast?_append_of_ne_nil _ (by simp [letters])]
        exact legible.tight.2
      have closed : closed? (p.behind ++ []) = _ := legible.closed?_behind [] rfl
      have passed : cut false (p.placing.kept ++ (p.body.toList ++ [])) = _ :=
        legible.cut_body (fun atStart => by rw [cut]) quiet_nil
      simp only [List.append_nil, letters] at closed passed
      refine ⟨p.placing.kept, p.placing.isBlank_of_kept, ?_, passed⟩
      rw [Text.stripRight_of_last solid, closed]
  | nil =>
      refine ⟨[], List.forall_mem_nil _, ?_, by rw [List.nil_append, cut]⟩
      rw [behind, letters, List.append_nil, List.nil_append]
      cases p.placing with
      | behindColon =>
          have solid : (p.trail ++ [':']).getLast?.all (!Text.isBlank ·) = true := by
            rw [List.getLast?_concat]
            decide
          rw [Placing.text, show [':', ' '] = [':'] ++ [' '] from rfl, ← List.append_assoc,
            Text.stripRight_append_blanks _ (List.forall_mem_singleton.mpr (by decide)),
            Text.stripRight_of_last solid,
            closed?_trail_colon legible.trails]
          rfl
      | below =>
          have trails : ∀ c ∈ Text.stripRight p.trail, isTrailMark c = true := fun c inside =>
            legible.trails c (List.mem_reverse.mp
              ((List.dropWhile_sublist _).subset (List.mem_reverse.mp inside)))
          rw [Placing.text, Text.stripRight_append_blanks _
            (List.forall_mem_singleton.mpr (by decide)), closed?_trail trails]

/-- The blanks at the end of a text with a heading stand behind the heading. -/
theorem stripRight_heading (before rest : List Char) :
    Text.stripRight (before ++ (p.heading ++ rest)) =
      before ++ (p.heading ++ Text.stripRight rest) := by
  obtain ⟨marks, member, written⟩ := legible.written
  have solid : (before ++ p.heading).getLast?.all (!Text.isBlank ·) = true := by
    obtain ⟨c, d, more, _, spelled, -⟩ := written.start member
    rw [List.getLast?_append_of_ne_nil _ (by simp [spelled])]
    exact written.last member
  rw [← List.append_assoc, Text.stripRight_append solid, List.append_assoc]

end Passage.Legible

/-- Passages are cut into their blocks. -/
theorem cut_joined {p : Passage} (legible : p.Legible) {more : List (Nat × Passage)}
    (others : ∀ next ∈ more, next.2.Legible) {lead : List Char}
    (leads : ∀ c ∈ lead, isLeadMark c = true) :
    cut true (lead ++ (p.heading ++ Text.stripRight (p.behind ++ joined more))) =
      ([], (passages p more).map Passage.block) := by
  -- The marks in front are left open: stripping may have taken blanks from the first ones.
  induction more generalizing p lead with
  | nil =>
      obtain ⟨marks, member, written⟩ := legible.written
      obtain ⟨before, blank, closed, passed⟩ := legible.closed?_stripRight
      have tidy := Text.strip_between legible.tight blank (List.forall_mem_nil _)
      rw [List.append_nil] at tidy
      rw [joined, List.flatMap_nil, List.append_nil,
        cut_heading (written.headingAt?_eq member leads closed), passed, tidy]
      rfl
  | cons head more later =>
      obtain ⟨breaks, next⟩ := head
      obtain ⟨marks, member, written⟩ := legible.written
      have legibleNext : next.Legible := others (breaks, next) List.mem_cons_self
      have rest := later legibleNext (fun q inside => others q (List.mem_cons_of_mem _ inside))
        legibleNext.leads
      obtain ⟨marksNext, memberNext, writtenNext⟩ := legibleNext.written
      have stripped : Text.stripRight (p.behind ++ joined ((breaks, next) :: more)) =
          p.behind ++ (List.replicate (breaks + 1) '\n' ++
            (next.lead ++ (next.heading ++ Text.stripRight (next.behind ++ joined more)))) := by
        have split := legibleNext.stripRight_heading
          (p.behind ++ (List.replicate (breaks + 1) '\n' ++ next.lead)) (next.behind ++ joined more)
        simpa only [joined, List.flatMap_cons, Passage.text, List.append_assoc] using split
      have quiet := quiet_heading memberNext writtenNext legibleNext.leads breaks
        (Text.stripRight (next.behind ++ joined more))
      generalize next.lead ++ (next.heading ++ Text.stripRight (next.behind ++ joined more)) =
        following at *
      have behind (atStart : Bool) : cut atStart (List.replicate (breaks + 1) '\n' ++ following) =
          (List.replicate (breaks + 1) '\n', (passages next more).map Passage.block) := by
        rw [cut_lineFeeds, rest, List.append_nil]
      have closed := legible.closed?_behind (List.replicate (breaks + 1) '\n' ++ following) rfl
      have feeds : ∀ c ∈ List.replicate (breaks + 1) '\n', Text.isBlank c = true :=
        fun c inside => List.eq_of_mem_replicate inside ▸ by decide
      have tidy := Text.strip_between legible.tight p.placing.isBlank_of_kept feeds
      rw [stripped, cut_heading (written.headingAt?_eq member leads closed),
        legible.cut_body behind quiet, tidy]
      rfl

/-- Stripping takes blanks from the marks in front of the first heading. -/
theorem strip_render {first : Passage} (legible : first.Legible) (more : List (Nat × Passage)) :
    (Text.strip (String.ofList (render first more))).toList =
      first.lead.dropWhile Text.isBlank ++
        (first.heading ++ Text.stripRight (first.behind ++ joined more)) := by
  obtain ⟨marks, member, written⟩ := legible.written
  have start := written.dropWhile_isBlank member first.lead (first.behind ++ joined more)
  rw [Text.strip, String.toList_ofList, String.toList_ofList, Text.stripped, Text.stripLeft, render,
    Passage.text, List.append_assoc, List.append_assoc, start, legible.stripRight_heading]

/-- The first passage of a tier gives its body. -/
theorem bodyOf_blocks {passages : List Passage} (legible : ∀ p ∈ passages, p.Legible) (tier : Tier) :
    bodyOf tier (passages.map Passage.block) =
      ((passages.find? (·.tier = tier)).map (·.body)).getD "" := by
  induction passages with
  | nil => rfl
  | cons p more later =>
      have rest := later fun q inside => legible q (List.mem_cons_of_mem p inside)
      have named : tierOf? p.block.heading = some p.tier := (legible p List.mem_cons_self).tierOf?_heading
      rw [bodyOf] at rest ⊢
      rw [List.map_cons, List.find?_cons, List.find?_cons, named]
      by_cases same : p.tier = tier
      · simp [same, Passage.block]
      · simpa [same] using rest

/-- The tiers of a written explanation are the bodies of its passages. -/
theorem body_ofText {first : Passage} {more : List (Nat × Passage)}
    (legible : ∀ p ∈ passages first more, p.Legible) (tier : Tier) :
    (ofText (String.ofList (render first more))).body tier =
      (((passages first more).find? (·.tier = tier)).map (·.body)).getD "" := by
  have legibleFirst : first.Legible := legible first List.mem_cons_self
  have others : ∀ next ∈ more, next.2.Legible := fun next inside =>
    legible next.2 (List.mem_cons_of_mem first (List.mem_map_of_mem inside))
  have leads : ∀ c ∈ first.lead.dropWhile Text.isBlank, isLeadMark c = true :=
    fun c inside => legibleFirst.leads c ((List.dropWhile_sublist _).subset inside)
  have blocks := cut_joined legibleFirst others leads
  rw [← strip_render legibleFirst] at blocks
  have some : ((passages first more).map Passage.block).isEmpty = false := rfl
  rw [← bodyOf_blocks legible tier, ofText, blocks]
  simp only [some, Bool.false_eq_true, if_false]
  cases tier with
  | simple => rw [body]
  | intermediate => rw [body]
  | technical => rw [body]

/-- The bodies of an explanation that is written in passages of different tiers are read back, and
    a tier that was left out is empty. -/
theorem ofText_render {first : Passage} {more : List (Nat × Passage)}
    (legible : ∀ p ∈ passages first more, p.Legible)
    (distinct : ((passages first more).map (·.tier)).Nodup) :
    (∀ p ∈ passages first more, (ofText (String.ofList (render first more))).body p.tier = p.body) ∧
      ∀ tier, tier ∉ (passages first more).map (·.tier) →
        (ofText (String.ofList (render first more))).body tier = "" := by
  constructor
  · intro p inside
    rw [body_ofText legible]
    cases found : (passages first more).find? (·.tier = p.tier) with
    | none => exact absurd (decide_eq_true rfl) (List.find?_eq_none.mp found p inside)
    | some q =>
        have same : q.tier = p.tier := by simpa using List.find?_some found
        rw [List.inj_on_of_nodup_map distinct (List.mem_of_find?_eq_some found) inside same]
        rfl
  · intro tier missing
    rw [body_ofText legible]
    have none : (passages first more).find? (·.tier = tier) = none :=
      List.find?_eq_none.mpr fun q inside same =>
        missing (List.mem_map.mpr ⟨q, inside, of_decide_eq_true same⟩)
    rw [none]
    rfl

/-- A decorated title in front of a body that starts a line with a word of it. -/
def numbered : Passage where
  tier := .technical
  lead := "2) **".toList
  heading := "Technical".toList
  trail := "**".toList
  placing := .behindColon
  body := "A cache.\nTechnical debt is low."

/-- An indented title, half in capitals, above a body that starts with the title of another tier. -/
def indented : Passage where
  tier := .simple
  lead := ['\t']
  heading := "eXPLAIN iT Like i'M 5".toList
  trail := " #".toList
  placing := .below
  body := "TECHNICAL terms, left out."

theorem ofText_render_decorated :
    let text := "2) **Technical**: A cache.\nTechnical debt is low.\n\n\n" ++
      "\teXPLAIN iT Like i'M 5 #\nTECHNICAL terms, left out."
    (∀ p ∈ passages numbered [(2, indented)], p.Legible) ∧
      ((passages numbered [(2, indented)]).map (·.tier)).Nodup ∧
      (ofText text).body .technical = "A cache.\nTechnical debt is low." ∧
      (ofText text).body .simple = "TECHNICAL terms, left out." ∧
      (ofText text).body .intermediate = "" := by
  have legible : ∀ p ∈ passages numbered [(2, indented)], p.Legible := by decide
  have distinct : ((passages numbered [(2, indented)]).map (·.tier)).Nodup := by decide
  have read := ofText_render legible distinct
  exact ⟨legible, distinct, read.1 numbered List.mem_cons_self,
    read.1 indented (List.mem_cons_of_mem numbered List.mem_cons_self),
    read.2 .intermediate (by decide)⟩

end RepoAtlas.Explanation
