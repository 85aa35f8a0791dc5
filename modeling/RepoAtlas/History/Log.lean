import RepoAtlas.Index
import RepoAtlas.Text.Blank
import RepoAtlas.Text.Split

/-! # The log of a repository

The log is a sequence of tokens with a NUL behind each. A token that starts with the marker names a
commit, up to the end of its line; all other tokens are names of files, each touched by the latest
commit. Line feeds in front of a token belong to neither.
-/

namespace RepoAtlas.History

/-- What a commit starts with. -/
def commitMarker : String := "commit:"

/-- For every name of a file the commits that touch it, without repetition. Names and commits are in
    the order in which they first occur. -/
abbrev Touches := List (String × List String)

/-- Notes that a commit touches a name. -/
def Touches.add (name commit : String) : Touches → Touches
  | [] => [(name, [commit])]
  | (n, commits) :: rest =>
    if n = name then (n, if commits.contains commit then commits else commits ++ [commit]) :: rest
    else (n, commits) :: Touches.add name commit rest

/-- The latest commit and what was read so far. -/
structure LogState where
  commit : Option String
  touches : Touches

/-- Without the line feeds in front. -/
def dropLineFeeds (cs : List Char) : List Char := cs.dropWhile (· == '\n')

/-- The commit that the first line of a token names behind its marker, if the line names one, and
    the rest of the token. -/
def splitCommit (cs : List Char) : Option String × List Char :=
  let line := cs.takeWhile (· != '\n')
  let commit := Text.strip (String.ofList line)
  (if commit = "" then none else some commit, dropLineFeeds ((cs.dropWhile (· != '\n')).drop 1))

/-- Notes a name, if it is one and a commit is known. -/
def LogState.note (s : LogState) (name : List Char) : LogState :=
  match s.commit with
  | some commit =>
    if name.isEmpty then s else { s with touches := s.touches.add (String.ofList name) commit }
  | none => s

/-- Reads one token. -/
def LogState.read (s : LogState) (token : List Char) : LogState :=
  let token := dropLineFeeds token
  if commitMarker.toList.isPrefixOf token then
    let (commit, name) := splitCommit (token.drop commitMarker.length)
    { s with commit }.note name
  else s.note token

/-- What the commits of a log touch. -/
def ofLog (log : String) : Touches :=
  ((Text.splitList '\x00' log.toList).foldl LogState.read { commit := none, touches := [] }).touches

end RepoAtlas.History
