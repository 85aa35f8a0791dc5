import RepoAtlas.Index
import RepoAtlas.Settings.Value
import RepoAtlas.Toml.Failure

/-! # Nested tables and what may still be done to them

A key leads through tables, and through lists to their last table. Tables on the way are made as
needed. Marks remember which tables were declared, which may not be declared again, and which values
were given as a whole, which may not be changed any more.
-/

namespace RepoAtlas.Toml

/-- Changes the table at the end of a key. There is none if something else is in the way; whether
    lists may be entered is told by `lists`. -/
def changeAt (lists : Bool) (change : Table → Except Cause Table) :
    Key → Table → Except Cause Table
  | [], t => change t
  | k :: rest, t =>
    match t.lookup k with
    | none => (changeAt lists change rest []).map fun inner => putLast k (.table inner) t
    | some (.table inner) =>
      (changeAt lists change rest inner).map fun inner => putLast k (.table inner) t
    | some (.list items) =>
      match items.getLast? with
      | some (.table inner) =>
        if lists then
          (changeAt lists change rest inner).map fun inner =>
            putLast k (.list (items.dropLast ++ [.table inner])) t
        else .error .overwrites
      | _ => .error .overwrites
    | some _ => .error .overwrites

/-- Adds a value under a name that is new. -/
def addNew (name : String) (value : Value) (taken : Cause) (t : Table) : Except Cause Table :=
  if (t.lookup name).isSome then .error taken else .ok (t ++ [(name, value)])

/-- Adds an empty table to the list under a name. -/
def addToList (name : String) (t : Table) : Except Cause Table :=
  match t.lookup name with
  | none => .ok (t ++ [(name, .list [.table []])])
  | some (.list items) => .ok (putLast name (.list (items ++ [.table []])) t)
  | some _ => .error .overwrites

/-- What is known of a key. -/
inductive Mark where
  /-- The table was declared. -/
  | declared (key : Key)
  /-- The value and everything in it is fixed. -/
  | frozen (key : Key)
  deriving DecidableEq, Repr

/-- The key of a mark. -/
def Mark.key : Mark → Key
  | .declared key => key
  | .frozen key => key

/-- The marks of a document. -/
abbrev Marks := List Mark

namespace Marks

/-- Was the table declared? -/
def isDeclared (marks : Marks) (key : Key) : Bool := marks.contains (.declared key)

/-- Is the value of the key, or one that holds it, fixed? -/
def isFrozen (marks : Marks) (key : Key) : Bool :=
  marks.any fun
    | .frozen fixed => fixed.isPrefixOf key
    | .declared _ => false

/-- Without the marks of a key and of what is in it. -/
def forget (marks : Marks) (key : Key) : Marks := marks.filter fun mark => !key.isPrefixOf mark.key

end Marks

/-- Lists and tables are fixed once they are given. -/
def isWhole : Value → Bool
  | .list _ => true
  | .table _ => true
  | _ => false

end RepoAtlas.Toml
