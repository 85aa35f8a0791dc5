import RepoAtlas.Decimal.Notation
import RepoAtlas.Decimal.Read
import RepoAtlas.Settings.Moment
import RepoAtlas.Text.Quoted

/-! # Values of settings

What a document, a variable or a caller may give for a setting, before it is known whether it fits.
Every value has a text for messages; inside lists and tables texts are quoted. Whole numbers have any
size, but those of too many digits are not written.
-/

namespace RepoAtlas

/-- A value of unknown kind. -/
inductive Value where
  | none
  | bool (value : Bool)
  | int (value : Int)
  | float (value : Float)
  | text (value : String)
  | moment (value : Moment)
  | list (items : List Value)
  | table (members : List (String × Value))
  deriving Inhabited

/-- Named values in the order in which their names were first given. -/
abbrev Table := List (String × Value)

namespace Value

/-- The name of the kind of a value. -/
def kindName : Value → String
  | .none => "NoneType"
  | .bool _ => "bool"
  | .int _ => "int"
  | .float _ => "float"
  | .text _ => "str"
  | .moment m => m.kindName
  | .list _ => "list"
  | .table _ => "dict"

/-- Is no value given? -/
def isMissing : Value → Bool
  | .none => true
  | _ => false

/-- Is the value a list or a table? -/
def hasParts : Value → Bool
  | .list _ | .table _ => true
  | _ => false

/-- The text that a value is. -/
def text? : Value → Option String
  | .text s => some s
  | _ => Option.none

/-- Does the value count as yes? Only what is missing, false, zero or empty does not. -/
def isYes : Value → Bool
  | .none => false
  | .bool b => b
  | .int n => n ≠ 0
  | .float x => x != 0
  | .text s => s ≠ ""
  | .moment _ => true
  | .list items => !items.isEmpty
  | .table members => !members.isEmpty

mutual

/-- The text of a value inside a list or table. -/
def quoted : Value → String
  | .none => "None"
  | .bool true => "True"
  | .bool false => "False"
  | .int n => toString n
  | .float x => Decimal.write x
  | .text s => Text.quoted s
  | .moment m => m.call
  | .list items => "[" ++ ", ".intercalate (quotedItems items) ++ "]"
  | .table members => "\x7b" ++ ", ".intercalate (quotedMembers members) ++ "\x7d"

def quotedItems : List Value → List String
  | [] => []
  | item :: rest => item.quoted :: quotedItems rest

def quotedMembers : List (String × Value) → List String
  | [] => []
  | (name, value) :: rest => (Text.quoted name ++ ": " ++ value.quoted) :: quotedMembers rest

end

/-- The text of a value by itself. -/
def write : Value → String
  | .text s => s
  | .moment m => m.text
  | value => value.quoted

mutual

/-- Is the text of a value written? It is not if a whole number in it has too many digits. -/
def isWritable : Value → Bool
  | .int n => Decimal.isShort n
  | .list items => areWritable items
  | .table members => membersAreWritable members
  | _ => true

def areWritable : List Value → Bool
  | [] => true
  | item :: rest => item.isWritable && areWritable rest

def membersAreWritable : List (String × Value) → Bool
  | [] => true
  | (_, value) :: rest => value.isWritable && membersAreWritable rest

end

/-- The values that a value consists of: the characters of a text, the items of a list, the names
    of a table. -/
def parts? : Value → Option (List Value)
  | .text s => some (s.toList.map fun c => .text (String.singleton c))
  | .list items => some items
  | .table members => some (members.map fun (name, _) => .text name)
  | _ => Option.none

end Value

end RepoAtlas
