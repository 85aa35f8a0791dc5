import RepoAtlas.Toml.Nest
import RepoAtlas.Toml.Number
import RepoAtlas.Toml.Text

/-! # Reading documents

A document is a sequence of statements, one a line: a key with its value, the declaration of a table,
or one more table of a list. Keys behind a declaration belong to the table it declares.
-/

namespace RepoAtlas.Toml

/-- Gives a cause its place. -/
def placed {α : Type} (rest : List Char) : Except Cause α → Except Failure α
  | .ok a => .ok a
  | .error cause => failAt cause rest

/-- What an inline table holds so far. -/
structure Inline where
  table : Table
  marks : Marks

/-- Adds a member to an inline table. The place of a failure is behind the member. -/
def Inline.add (t : Inline) (key : Key) (value : Value) (rest : List Char) :
    Except Failure Inline :=
  if t.marks.isFrozen key then failAt (.frozen key) rest
  else
    let name := key.getLast?.getD ""
    (placed rest (changeAt false (addNew name value (.repeatedKey name)) key.dropLast t.table)).map
      fun table =>
        { table, marks := if isWhole value then .frozen key :: t.marks else t.marks }

mutual

/-- A value. The first argument bounds the depth and the number of items. -/
def value : Nat → List Char → Reading Value
  | 0, cs => failAt .badValue cs
  | fuel + 1, cs =>
    let text (r : Reading (List Char)) : Reading Value :=
      r.map fun (s, rest) => (.text (String.ofList s), rest)
    match cs with
    | '"' :: '"' :: '"' :: rest => text (longString rest)
    | '"' :: rest => text (plainString rest)
    | '\'' :: '\'' :: '\'' :: rest => text (longLiteral rest)
    | '\'' :: rest => text (literalString ['\''] false rest)
    | 't' :: 'r' :: 'u' :: 'e' :: rest => .ok (.bool true, rest)
    | 'f' :: 'a' :: 'l' :: 's' :: 'e' :: rest => .ok (.bool false, rest)
    | '[' :: rest =>
      match skipGaps (rest.length + 1) rest with
      | .error failure => .error failure
      | .ok (']' :: rest) => .ok (.list [], rest)
      | .ok rest => items fuel [] rest
    | '\x7b' :: rest =>
      match skipSpaces rest with
      | '\x7d' :: rest => .ok (.table [], rest)
      | rest => members fuel { table := [], marks := [] } rest
    | cs =>
      match simpleAt? cs with
      | some (.ok v, rest) => .ok (v, rest)
      | some (.error cause, _) => failAt cause cs
      | none => failAt .badValue cs

/-- The items of an array from here on; `read` holds those before, latest first. -/
def items : Nat → List Value → List Char → Reading Value
  | 0, _, cs => failAt .unclosedArray cs
  | fuel + 1, read, cs =>
    match value fuel cs with
    | .error failure => .error failure
    | .ok (v, rest) =>
      match skipGaps (rest.length + 1) rest with
      | .error failure => .error failure
      | .ok (']' :: rest) => .ok (.list (v :: read).reverse, rest)
      | .ok (',' :: rest) =>
        match skipGaps (rest.length + 1) rest with
        | .error failure => .error failure
        | .ok (']' :: rest) => .ok (.list (v :: read).reverse, rest)
        | .ok rest => items fuel (v :: read) rest
      | .ok rest => failAt .unclosedArray rest

/-- The members of an inline table from here on. -/
def members : Nat → Inline → List Char → Reading Value
  | 0, _, cs => failAt .unclosedTable cs
  | fuel + 1, t, cs =>
    match pair fuel cs with
    | .error failure => .error failure
    | .ok ((key, v), rest) =>
      match t.add key v rest with
      | .error failure => .error failure
      | .ok t =>
        match skipSpaces rest with
        | '\x7d' :: rest => .ok (.table t.table, rest)
        | ',' :: rest => members fuel t (skipSpaces rest)
        | rest => failAt .unclosedTable rest

/-- A key with its value. -/
def pair : Nat → List Char → Reading (Key × Value)
  | 0, cs => failAt .badValue cs
  | fuel + 1, cs =>
    match key cs with
    | .error failure => .error failure
    | .ok (key, '=' :: rest) =>
      match value fuel (skipSpaces rest) with
      | .error failure => .error failure
      | .ok (v, rest) => .ok ((key, v), rest)
    | .ok (_, rest) => failAt .missingEquals rest

end

/-- What was read of a document. -/
structure Progress where
  table : Table
  marks : Marks
  /-- Tables that dotted keys made since the latest declaration; a declaration marks them. -/
  pending : List Key
  /-- The declared table that keys belong to. -/
  header : Key

namespace Progress

/-- Nothing read. -/
def start : Progress := { table := [], marks := [], pending := [], header := [] }

/-- Marks the tables that dotted keys made. -/
def settle (p : Progress) : Progress :=
  { p with marks := p.pending.map Mark.declared ++ p.marks, pending := [] }

/-- The tables that a dotted key leads through, outermost first. -/
def onTheWay (header key : Key) : List Key :=
  (List.range (key.length - 1)).map fun i => header ++ key.take (i + 1)

/-- Adds a key with its value. -/
def add (p : Progress) (key : Key) (v : Value) : Except Cause Progress :=
  let way := onTheWay p.header key
  match way.find? p.marks.isDeclared with
  | some declared => .error (.redefined declared)
  | none =>
    let parent := p.header ++ key.dropLast
    if p.marks.isFrozen parent then .error (.frozen parent)
    else
      let name := key.getLast?.getD ""
      (changeAt true (addNew name v .overwrites) parent p.table).map fun table =>
        { p with
          table
          pending := p.pending ++ way
          marks := if isWhole v then .frozen (p.header ++ key) :: p.marks else p.marks }

/-- Declares a table. -/
def declare (p : Progress) (key : Key) : Except Cause Progress :=
  if p.marks.isDeclared key || p.marks.isFrozen key then .error (.declaredTwice key)
  else
    (changeAt true .ok key p.table).map fun table =>
      { p with table, marks := .declared key :: p.marks, header := key }

/-- Adds one more table to a list. -/
def declareItem (p : Progress) (key : Key) : Except Cause Progress :=
  if p.marks.isFrozen key then .error (.frozen key)
  else
    (changeAt true (addToList (key.getLast?.getD "")) key.dropLast p.table).map fun table =>
      { p with table, marks := .declared key :: p.marks.forget key, header := key }

end Progress

/-- One statement, from its first character on. -/
def statement (p : Progress) (cs : List Char) : Reading Progress :=
  match cs with
  | '[' :: '[' :: rest =>
    match key (skipSpaces rest) with
    | .error failure => .error failure
    | .ok (k, rest) =>
      match placed rest (p.settle.declareItem k) with
      | .error failure => .error failure
      | .ok p =>
        match rest with
        | ']' :: ']' :: rest => .ok (p, rest)
        | rest => failAt .missingBrackets rest
  | '[' :: rest =>
    match key (skipSpaces rest) with
    | .error failure => .error failure
    | .ok (k, rest) =>
      match placed rest (p.settle.declare k) with
      | .error failure => .error failure
      | .ok p =>
        match rest with
        | ']' :: rest => .ok (p, rest)
        | rest => failAt .missingBracket rest
  | '#' :: _ => .ok (p, cs)
  | c :: _ =>
    if isBareKey c || c = '"' || c = '\'' then
      match pair (2 * cs.length + 2) cs with
      | .error failure => .error failure
      | .ok ((k, v), rest) => (placed rest (p.add k v)).map fun p => (p, rest)
    else failAt .badStatement cs
  | [] => .ok (p, [])

/-- All statements. The first argument bounds their number. -/
def statements : Nat → Progress → List Char → Except Failure Table
  | 0, p, _ => .ok p.table
  | fuel + 1, p, cs =>
    match skipSpaces cs with
    | [] => .ok p.table
    | '\n' :: rest => statements fuel p rest
    | cs =>
      match statement p cs with
      | .error failure => .error failure
      | .ok (p, rest) =>
        match skipComment (skipSpaces rest) with
        | .error failure => .error failure
        | .ok [] => .ok p.table
        | .ok ('\n' :: rest) => statements fuel p rest
        | .ok rest => failAt .missingLineEnd rest

/-- Carriage returns before line feeds do not count. -/
def dropReturns : List Char → List Char
  | '\r' :: '\n' :: rest => '\n' :: dropReturns rest
  | c :: rest => c :: dropReturns rest
  | [] => []

/-- The table that a document is, or the message that tells why it is none. -/
def read (document : List Char) : Except String Table :=
  let cs := dropReturns document
  match statements (cs.length + 1) Progress.start cs with
  | .ok table => .ok table
  | .error failure => .error (failure.message cs)

end RepoAtlas.Toml
