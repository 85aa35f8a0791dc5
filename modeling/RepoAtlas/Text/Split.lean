/-! # Splitting at a character

Splitting keeps empty pieces, so there is always one piece more than there are separators and
joining the pieces gives the text back.
-/

namespace RepoAtlas.Text

/-- The pieces between the separators. -/
def splitList (separator : Char) : List Char → List (List Char)
  | [] => [[]]
  | c :: rest =>
    if c = separator then [] :: splitList separator rest
    else
      match splitList separator rest with
      | piece :: more => (c :: piece) :: more
      | [] => [[c]]

/-- The pieces between the separators. -/
def split (separator : Char) (s : String) : List String :=
  (splitList separator s.toList).map String.ofList

/-- Does the first text begin with the second? -/
def startsWith (s start : String) : Bool := start.toList.isPrefixOf s.toList

/-- Does the first text end with the second? -/
def endsWith (s ending : String) : Bool := ending.toList.isSuffixOf s.toList

/-- The part of a text behind its last separator; the text itself if there is none. -/
def afterLast (separator : Char) (s : String) : String :=
  String.ofList (s.toList.reverse.takeWhile (· != separator)).reverse

end RepoAtlas.Text
