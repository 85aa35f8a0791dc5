import RepoAtlas.History.Session

/-! # Calls of a session

A session answers calls of four kinds, in any order and as often as is wished. A call that is
stopped leaves a session that can be called again.
-/

namespace RepoAtlas.History

/-- What a session may be asked for. -/
inductive Call where
  | toplevel
  | historyCounts (files : List Path)
  | perFileCounts (files : List Path)
  | fileCount (file : Path)

/-- What a call gives. -/
inductive Answer where
  | root (root : Option Path)
  | counts (counts : Counts)
  | count (count : Int)
  deriving DecidableEq

/-- What a call gives, and the session behind it. -/
def Session.answer (s : Session) : Call → Except Trouble Answer × Session
  | .toplevel => let (root, s) := s.toplevel; (root.map .root, s)
  | .historyCounts files => let (counts, s) := s.historyCounts files; (counts.map .counts, s)
  | .perFileCounts files => let (counts, s) := s.perFileCounts files; (counts.map .counts, s)
  | .fileCount file => let (count, s) := s.fileCount file; (count.map .count, s)

end RepoAtlas.History
