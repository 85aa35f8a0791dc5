import RepoAtlas.Graph.Node

/-! # The graph store

Nodes and edges in the order in which they came. Adding what is already there changes nothing and
is told apart from adding something new; an edge between unknown nodes is refused. Cycles are
plain data.
-/

namespace RepoAtlas

/-- A graph as the nodes and edges added so far, oldest first. -/
structure Store where
  nodes : List Node
  edges : List Edge
  deriving Repr

/-- Why an edge was refused. -/
inductive EdgeProblem where
  /-- An end of the edge is no node. -/
  | missingEnd (id : String)
  deriving DecidableEq, Repr

def EdgeProblem.message : EdgeProblem → String
  | .missingEnd id => "Edge endpoint is not a node: " ++ id

namespace Store

/-- The store without nodes. -/
def empty : Store := { nodes := [], edges := [] }

/-- Is the id a node? -/
def hasNode (s : Store) (id : String) : Bool := s.nodes.any (·.id == id)

/-- Is there such an edge? -/
def hasEdge (s : Store) (source target : String) (kind : EdgeKind) : Bool :=
  s.edges.any (·.key == (source, target, kind))

/-- The node of an id. -/
def node? (s : Store) (id : String) : Option Node := s.nodes.find? (·.id == id)

/-- The number of nodes. -/
def size (s : Store) : Nat := s.nodes.length

def isEmpty (s : Store) : Bool := s.nodes.isEmpty

/-- The files, in the order of the nodes. -/
def files (s : Store) : List FileNode := s.nodes.filterMap Node.file?

/-- The folders, in the order of the nodes. -/
def folders (s : Store) : List FolderNode := s.nodes.filterMap Node.folder?

/-- The edges of a kind. -/
def edgesOf (s : Store) (kind : EdgeKind) : List Edge := s.edges.filter (·.kind == kind)

/-- The edges that leave a node, of one kind or of all. -/
def outEdges (s : Store) (id : String) (kind : Option EdgeKind) : List Edge :=
  s.edges.filter fun e => e.source == id && (kind.all (e.kind == ·))

/-- Adds a node unless its id is taken; tells whether it was added. -/
def addNode (s : Store) (node : Node) : Bool × Store :=
  if s.hasNode node.id then (false, s) else (true, { s with nodes := s.nodes ++ [node] })

/-- Adds an edge unless it is there; tells whether it was added. Both ends have to be nodes, and
    the source is looked at first. -/
def addEdge (s : Store) (edge : Edge) : Except EdgeProblem (Bool × Store) :=
  if s.hasEdge edge.source edge.target edge.kind then .ok (false, s)
  else if !s.hasNode edge.source then .error (.missingEnd edge.source)
  else if !s.hasNode edge.target then .error (.missingEnd edge.target)
  else .ok (true, { s with edges := s.edges ++ [edge] })

end Store

end RepoAtlas
