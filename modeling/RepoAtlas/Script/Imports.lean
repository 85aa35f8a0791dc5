import RepoAtlas.Script.Grammar

/-! # What a script imports

The specifiers of a script are the strings of its import statements and the first arguments of its
calls of `require`, in the order of the text, each once. Escapes in a string are kept as written.
-/

namespace RepoAtlas.Script

/-- The text between matching quotes. -/
def unquoted? (text : String) : Option String :=
  match text.toList with
  | quote :: rest =>
    match rest.reverse with
    | last :: inner =>
      if (quote = '\'' || quote = '"') && last = quote then some (String.ofList inner.reverse)
      else none
    | [] => none
  | [] => none

/-- The specifier of a `require` call: its first argument, if that is a string. -/
def Call.specifier? (call : Call) : Option String :=
  if call.callee = "require" then
    match call.arguments with
    | first :: _ => first.stringText?.bind unquoted?
    | [] => none
  else none

/-- The call as written in the source. -/
def Call.text (call : Call) (source : String) : String :=
  String.Pos.Raw.extract source ⟨call.start⟩ ⟨call.stop⟩

/-- The occurrences of non-empty specifiers among sources and calls with their positions, sources
    before calls. -/
def occurrencesAmong (sources : List ImportSource) (calls : List Call) : List (Nat × String) :=
  let imports := sources.filterMap fun source =>
    (unquoted? source.text).map fun text => (source.start, text)
  let requires := calls.filterMap fun call =>
    call.specifier?.map fun text => (call.start, text)
  (imports ++ requires).filter fun occurrence => occurrence.2 ≠ ""

/-- The specifiers among sources and calls in the order of their positions, each at its first
    occurrence. -/
def specifiersAmong (sources : List ImportSource) (calls : List Call) : List String :=
  (((occurrencesAmong sources calls).mergeSort fun a b => a.1 ≤ b.1).map (·.2)).eraseDups

/-- What reads scripts: a parser, and two queries that collect the sources of import statements and the
    calls of plain names from a tree. -/
structure Reader where
  parse : Dialect → String → Option Tree
  sources : Tree → List ImportSource
  calls : Tree → List Call

namespace Reader

/-- The reader of the grammar above; its queries answer in the order of the text. -/
def ofGrammar : Reader :=
  { parse := Script.parse, sources := Tree.importSources, calls := Tree.calls }

/-- The specifiers of a tree. -/
def specifiers (reader : Reader) (tree : Tree) : List String :=
  specifiersAmong (reader.sources tree) (reader.calls tree)

/-- The specifiers of a script; none if it has no parse tree. -/
def importsOf (reader : Reader) (d : Dialect) (text : String) : List String :=
  match reader.parse d text with
  | some tree => reader.specifiers tree
  | none => []

end Reader

end RepoAtlas.Script
