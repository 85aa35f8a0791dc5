import RepoAtlas.Ignore.Glob
import RepoAtlas.Text.Blank
import RepoAtlas.Text.Quoted
import RepoAtlas.Text.Split

/-! # Ignore rules

Each line of an ignore file is one rule. Of all rules that match a path the last decides, and a rule
behind an exclamation mark takes the path back. A rule without an inner slash applies at any depth,
any other from the root on. A rule that names a directory applies to everything below it.
-/

namespace RepoAtlas.Ignore

/-- A rule. -/
structure Rule where
  /-- Does a match ignore the path, or take it back? -/
  ignores : Bool
  pieces : List Piece
  deriving DecidableEq, Repr

/-- Why a line is refused. -/
inductive RuleProblem where
  /-- Nothing is left of the rule, or a lone backslash is at its end. -/
  | invalid (line : String)
  /-- A range of characters ends before it starts. -/
  | badRange (line : String)
  deriving DecidableEq, Repr

/-- The message of a refused line; a bad range has none of its own. -/
def RuleProblem.message : RuleProblem → String
  | .invalid line => "Invalid git pattern: " ++ Text.quoted line
  | .badRange line => "Bad character range in " ++ Text.quoted line

/-- What a segment between slashes may turn out to be. -/
inductive SegmentProblem where
  | loneBackslash
  /-- A bracket is never closed, so the whole line says nothing. -/
  | unclosed

/-- The ranges of the characters between brackets. A hyphen at either end stands for itself. -/
def rangesOf : List Char → List (Char × Char)
  | a :: '-' :: b :: rest => (a, b) :: rangesOf rest
  | a :: rest => (a, a) :: rangesOf rest
  | [] => []

/-- What stands in brackets and what follows them. A bracket that closes at once is meant
    literally. -/
def splitBracket (cs : List Char) : Option (List Char × List Char) :=
  let (first, rest) :=
    match cs with
    | ']' :: rest => ([']'], rest)
    | cs => ([], cs)
  match rest.dropWhile (· != ']') with
  | _ :: after => some (first ++ rest.takeWhile (· != ']'), after)
  | [] => none

/-- Whether a set is negated, and its inside. -/
def splitNegation : List Char → Bool × List Char
  | '!' :: rest => (true, rest)
  | '^' :: rest => (true, rest)
  | cs => (false, cs)

/-- The pieces of one segment. The first argument bounds the number of pieces. -/
def segmentPieces : Nat → List Char → Except SegmentProblem (List Piece)
  | 0, _ => .ok []
  | _ + 1, [] => .ok []
  | fuel + 1, '*' :: rest => (segmentPieces fuel rest).map (.run :: ·)
  | fuel + 1, '?' :: rest => (segmentPieces fuel rest).map (.one :: ·)
  | _ + 1, ['\\'] => .error .loneBackslash
  | fuel + 1, '\\' :: c :: rest => (segmentPieces fuel rest).map (.char c :: ·)
  | fuel + 1, '[' :: rest =>
    let (negated, inside) := splitNegation rest
    match splitBracket inside with
    | none => .error .unclosed
    | some (body, after) =>
      (segmentPieces fuel after).map (.oneOf { negated, ranges := rangesOf body } :: ·)
  | fuel + 1, c :: rest => (segmentPieces fuel rest).map (.char c :: ·)

/-- The pieces of a segment that is no pair of stars. -/
def namePieces (segment : String) : Except SegmentProblem (List Piece) :=
  if segment = "*" then .ok [.one, .run]
  else segmentPieces (segment.length + 1) segment.toList

/-- Any number of folders. -/
def deep : String := "**"

/-- The pieces of the segments behind the first; `slash` tells whether a slash is due. -/
def tailPieces (slash : Bool) : List String → Except SegmentProblem (List Piece)
  | [] => .ok [.nameEnd]
  | segment :: rest =>
    if segment = deep then
      if rest.isEmpty then .ok [.char '/']
      else (tailPieces true rest).map (.foldersBetween :: ·)
    else
      match namePieces segment with
      | .error problem => .error problem
      | .ok name =>
        (tailPieces true rest).map fun pieces =>
          (if slash then [.char '/'] else []) ++ name ++ pieces

/-- The pieces of all segments. -/
def allPieces : List String → Except SegmentProblem (List Piece)
  | [] => .ok []
  | first :: rest =>
    if first = deep then (tailPieces false rest).map (.foldersBefore :: ·)
    else tailPieces false (first :: rest)

/-- Neighbouring pairs of stars are one. -/
def collapse : List String → List String
  | a :: b :: rest =>
    if a = deep && b = deep then collapse (b :: rest) else a :: collapse (b :: rest)
  | segments => segments

/-- The segments of a rule, brought into a form without empty segments: a slash in front ties the
    rule to the root, a single segment gets any folders in front, a slash at the end any rest
    behind. -/
def normalSegments (segments : List String) : List String :=
  let placed :=
    match segments with
    | "" :: rest => rest
    | [name] => if name = deep then [name] else [deep, name]
    | [name, ""] => if name = deep then [name, ""] else [deep, name, ""]
    | segments => segments
  collapse (if placed.getLast? = some "" then placed.dropLast ++ [deep] else placed)

/-- The pieces of a rule without its exclamation mark. -/
def rulePieces (text : String) : Except SegmentProblem (List Piece) :=
  let segments := Text.split '/' text
  let directories := segments.getLast? = some ""
  let normal := normalSegments segments
  if normal = [deep] then .ok [if directories then .anywhereSlash else .anything]
  else if normal = [deep, "*"] then .ok [.anything]
  else if normal = [deep, "*", deep] then .ok [.anywhereSlash]
  else allPieces normal

/-- A line without the blanks at its end, unless the last of them is escaped. -/
def trimLine (line : String) : String :=
  if Text.endsWith line "\\ " then line else String.ofList (Text.stripRight line.toList)

/-- The rule of a line; a blank line, a comment and a lone slash are none. -/
def Rule.ofLine (line : String) : Except RuleProblem (Option Rule) :=
  let text := trimLine line
  if text = "" || text = "/" || Text.startsWith text "#" then .ok none
  else
    let ignores := !Text.startsWith text "!"
    let body := if ignores then text else String.ofList (text.toList.drop 1)
    if body = "" then .error (.invalid line)
    else
      match rulePieces body with
      | .ok pieces =>
        if pieces.all Piece.isSound then .ok (some { ignores, pieces })
        else .error (.badRange line)
      | .error .unclosed => .ok none
      | .error .loneBackslash => .error (.invalid line)

/-- The rules of an ignore file, in the order of its lines. -/
abbrev Rules := List Rule

/-- The rules of lines. -/
def Rules.ofLines (lines : List String) : Except RuleProblem Rules :=
  (lines.mapM Rule.ofLine).map fun rules => rules.filterMap id

/-- A path as rules see it: without one slash or one dot and slash in front. -/
def probe (path : String) : List Char :=
  match path.toList with
  | '/' :: rest => rest
  | '.' :: '/' :: rest => rest
  | cs => cs

/-- Is the path ignored? The last rule that matches decides. -/
def Rules.ignores (rules : Rules) (path : String) : Bool :=
  rules.foldl (fun ignored rule =>
    if matchesFrom rule.pieces (probe path) then rule.ignores else ignored) false

/-- What turns the lines of an ignore file into a test for ignored paths, or refuses a line. -/
abbrev Compiler := List String → Except RuleProblem (String → Bool)

/-- The compiler to the rules above. -/
def compile : Compiler := fun lines => (Rules.ofLines lines).map Rules.ignores

end RepoAtlas.Ignore
