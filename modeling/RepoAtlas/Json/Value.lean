/-! # JSON values

Objects are lists of members, so their order is part of the value, as it is part of what is
written. Whole numbers and floats are different values: `16` and `16.0` are.
-/

namespace RepoAtlas

/-- A JSON value. -/
inductive Json where
  | null
  | bool (value : Bool)
  | int (value : Int)
  | float (value : Float)
  | str (value : String)
  | arr (items : List Json)
  | obj (members : List (String × Json))
  deriving Repr, Inhabited

namespace Json

/-- The last member of a name. -/
def get? (name : String) : Json → Option Json
  | .obj members => (members.reverse.find? (·.1 == name)).map (·.2)
  | _ => none

end Json

end RepoAtlas
