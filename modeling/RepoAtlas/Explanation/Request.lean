import RepoAtlas.Explanation.Tiers
import RepoAtlas.Leading
import RepoAtlas.Path
import RepoAtlas.Settings.Variable

/-! # Asking for an explanation

A language model is asked about the first characters of a file. Whatever happens, the answer is a
text that can be shown: without a key, after a failure and for an empty answer there are messages.
-/

namespace RepoAtlas.Explanation

/-- What a model makes of a prompt. -/
inductive Reply where
  | answered (text : Option String)
  | failed (reason : String)
  deriving DecidableEq, Repr

/-- The characters of a file that are sent when nothing else is set. -/
def usualBound : Int := 3000

/-- The prompt for a file, with so many characters of it at most. -/
def prompt (path : Path) (source : String) (bound : Int) : String :=
  "\n".intercalate
    [ "",
      "Explain the purpose and functionality of the file " ++ path.name ++
        " in three short paragraphs:",
      "1. Use a simple analogy understandable by a child.",
      "2. Provide a brief intermediate explanation of what the code does.",
      "3. Give a concise technical description for an expert.",
      "Keep each paragraph under 5 sentences and do not use markdown or formatting.",
      "",
      "Separate them with Explain it Like I'm 5, INTERMEDIATE, TECHNICAL as the titles of each " ++
        "paragraph.",
      "Code (first " ++ toString bound ++ " characters):",
      String.ofList (leading bound source.toList),
      "" ]

/-- The variable that holds the key. -/
def keyVariable : String := "GEMINI_API_KEY"

/-- The key that is given, or that of the variable; an empty key is none. -/
def keyOf? (given : Option String) (environment : Variables) : Option String :=
  (given.filter (· ≠ "")).or ((environment.lookup keyVariable).filter (· ≠ ""))

/-- The text that is shown for the reply to a prompt. -/
def Reply.text : Reply → String
  | .failed reason => "Gemini request failed: " ++ reason
  | .answered text =>
    let bare := Text.strip (text.getD "")
    if bare = "" then "No explanation generated." else bare

/-- The text that is shown for a file. -/
def explain (ask : String → Reply) (key : Option String) (bound : Int) (path : Path)
    (source : String) : String :=
  match key with
  | none => keyVariable ++ " missing."
  | some _ => (ask (prompt path source bound)).text

end RepoAtlas.Explanation
