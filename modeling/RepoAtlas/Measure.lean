import RepoAtlas.Text.Word

/-! # Measuring a text

The lines of a text are the segments between line feeds, so there is at least one. The branching
score starts at one and counts a point for every branching keyword and every short-circuit
operator. Keywords count as whole words only; operators never share a character.
-/

namespace RepoAtlas

/-- What is measured of one file. -/
structure Metrics where
  loc : Int
  complexity : Int
  commits : Int
  deriving DecidableEq, Repr

namespace Metrics

/-- The keywords that open a branch. -/
def branchWords : List (List Char) :=
  ["if".toList, "for".toList, "while".toList, "case".toList, "catch".toList]

/-- Does a whole keyword stand here? The character before is known to be no word character. -/
def opensBranch (cs : List Char) : Bool :=
  branchWords.any fun word =>
    word.isPrefixOf cs && !((cs.drop word.length).head?.map Text.isWord).getD false

/-- The keywords in a text; `inWord` tells whether the character before is a word character. -/
def countKeywords (inWord : Bool) : List Char → Nat
  | [] => 0
  | c :: rest =>
    (if !inWord && opensBranch (c :: rest) then 1 else 0) + countKeywords (Text.isWord c) rest

/-- The short-circuit operators in a text. -/
def countOperators : List Char → Nat
  | '&' :: '&' :: rest => countOperators rest + 1
  | '|' :: '|' :: rest => countOperators rest + 1
  | _ :: rest => countOperators rest
  | [] => 0

/-- The number of lines. -/
def lineCount (cs : List Char) : Nat := cs.count '\n' + 1

/-- The branching score. -/
def branching (cs : List Char) : Nat := 1 + countKeywords false cs + countOperators cs

/-- The metrics of a text. A negative number of commits counts as none. -/
def ofText (text : String) (commits : Int) : Metrics :=
  { loc := lineCount text.toList
    complexity := branching text.toList
    commits := max 0 commits }

end Metrics

end RepoAtlas
