/-! # Parse trees of scripts

A tree keeps what matters to a reader of imports: names, strings and comments as leaves, and
the import statements, calls and operands around them. Positions are byte offsets. Keywords and
punctuation leave no trace.

The views below say what a tree imports without saying how the answer is ordered:
`Tree.importSources` lists the strings that are the source of an import statement,
`Tree.calls` the calls whose callee is a plain name.
-/

namespace RepoAtlas.Script

/-- The kinds of leaves. `other` stands for every literal that nothing here asks about. -/
inductive LeafKind where
  | identifier
  | string
  | comment
  | other
  deriving DecidableEq, Repr

/-- The kinds of branches. The operand kinds that may stand to the left of an assignment are told
    apart; `other` stands for the rest. -/
inductive BranchKind where
  | importStatement
  | call
  | arguments
  | member
  | subscript
  | parenthesized
  | nonNull
  | other
  deriving DecidableEq, Repr

/-- A parse tree without errors. `start` and `stop` are byte offsets in the source. -/
inductive Tree where
  | leaf (kind : LeafKind) (start stop : Nat) (text : String)
  | branch (kind : BranchKind) (start stop : Nat) (children : List Tree)
  deriving Repr

namespace Tree

def start : Tree → Nat
  | .leaf _ start _ _ => start
  | .branch _ start _ _ => start

def stop : Tree → Nat
  | .leaf _ _ stop _ => stop
  | .branch _ _ stop _ => stop

/-- Is the tree a comment? -/
def isComment : Tree → Bool
  | .leaf .comment _ _ _ => true
  | _ => false

/-- The text of a string leaf, quotes included. -/
def stringText? : Tree → Option String
  | .leaf .string _ _ text => some text
  | _ => none

/-- The name that a leaf is, if it is a plain name. -/
def name? : Tree → Option String
  | .leaf .identifier _ _ text => some text
  | _ => none

/-- The arguments between the parentheses, if the tree is such a list. Comments are no arguments. -/
def argumentList? : Tree → Option (List Tree)
  | .branch .arguments _ _ children => some (children.filter (! ·.isComment))
  | _ => none

end Tree

/-- A string that is the source of an import statement; `start` is the string's own offset. -/
structure ImportSource where
  start : Nat
  /-- The string with its quotes. -/
  text : String
  deriving DecidableEq, Repr

/-- A call of a plain name. -/
structure Call where
  start : Nat
  stop : Nat
  callee : String
  arguments : List Tree
  deriving Repr

namespace Tree

/-- The source of an import statement: the string among its own parts. -/
def ownImportSources : Tree → List ImportSource
  | .branch .importStatement _ _ children =>
    children.filterMap fun child => child.stringText?.map fun text => { start := child.start, text }
  | _ => []

/-- The call that a tree is, if its callee is a plain name and it has an argument list. -/
def ownCalls : Tree → List Call
  | .branch .call start stop children =>
    match children.filter (! ·.isComment) with
    | callee :: rest =>
      match callee.name?, rest.findSome? argumentList? with
      | some name, some arguments => [{ start, stop, callee := name, arguments }]
      | _, _ => []
    | [] => []
  | _ => []

mutual

/-- All trees inside a tree, itself first, then its parts from left to right. -/
def subtrees : Tree → List Tree
  | .leaf kind start stop text => [.leaf kind start stop text]
  | .branch kind start stop children => .branch kind start stop children :: forestSubtrees children

/-- All trees inside the trees of a list. -/
def forestSubtrees : List Tree → List Tree
  | [] => []
  | tree :: rest => subtrees tree ++ forestSubtrees rest

end

/-- The sources of all import statements of a tree. -/
def importSources (tree : Tree) : List ImportSource :=
  tree.subtrees.flatMap ownImportSources

/-- All calls of plain names in a tree. -/
def calls (tree : Tree) : List Call :=
  tree.subtrees.flatMap ownCalls

end Tree

end RepoAtlas.Script
