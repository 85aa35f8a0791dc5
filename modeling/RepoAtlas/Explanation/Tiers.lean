import RepoAtlas.Explanation.Heading

/-! # The tiers of an explanation

A text is cut at its headings. What stands under the first heading of a tier is the body of that
tier; text before all headings belongs to none. A text without headings is one body, for a child.
-/

namespace RepoAtlas

/-- An explanation in three tiers; a tier that was not given is empty. -/
structure Explanation where
  simple : String
  intermediate : String
  technical : String
  deriving DecidableEq, Repr

namespace Explanation

/-- A heading and the text below it. -/
structure Block where
  heading : String
  body : String
  deriving DecidableEq, Repr

/-- The text up to the first heading and the blocks behind it. The flag tells whether a line starts
    here. -/
def cut (atStart : Bool) (cs : List Char) : List Char × List Block :=
  match cs with
  | [] => ([], [])
  | c :: rest =>
    match _found : if atStart then headingAt? (c :: rest) else none with
    | some (heading, after) =>
      let (body, more) := cut false after
      ([], { heading := String.ofList heading, body := Text.strip (String.ofList body) } :: more)
    | none =>
      let (lead, more) := cut (c = '\n') rest
      (c :: lead, more)
termination_by cs.length
decreasing_by
  · split at _found
    · exact length_of_headingAt? _found
    · simp at _found
  · simp

/-- The body under the first heading of a tier. -/
def bodyOf (tier : Tier) (blocks : List Block) : String :=
  ((blocks.find? fun block => tierOf? block.heading = some tier).map (·.body)).getD ""

/-- The tiers of a text. -/
def ofText (text : String) : Explanation :=
  let text := Text.strip text
  let (_, blocks) := cut true text.toList
  if blocks.isEmpty then { simple := text, intermediate := "", technical := "" }
  else
    { simple := bodyOf .simple blocks
      intermediate := bodyOf .intermediate blocks
      technical := bodyOf .technical blocks }

/-- The body of a tier. -/
def body (e : Explanation) : Tier → String
  | .simple => e.simple
  | .intermediate => e.intermediate
  | .technical => e.technical

/-- The title under which a tier is shown. -/
def Tier.title : Tier → String
  | .simple => "Explain it Like I'm 5"
  | .intermediate => "Intermediate"
  | .technical => "Technical"

/-- Titles and bodies in the order of the tiers. -/
def sections (e : Explanation) : List (String × String) :=
  [Tier.simple, .intermediate, .technical].map fun tier => (tier.title, e.body tier)

end Explanation

end RepoAtlas
