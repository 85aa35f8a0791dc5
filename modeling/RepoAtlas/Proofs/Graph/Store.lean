import RepoAtlas.Graph.Store
import RepoAtlas.Proofs.Distinct
import RepoAtlas.Proofs.Path

/-! # Two tiers of ids

Files are known by absolute paths and folders by joined components, so no id belongs to both tiers.
`TwoTiers` records which folders and files a store holds; looking up an id then says which of them
it is. An edge between held nodes is added unless it is there.
-/

namespace RepoAtlas

namespace Store

theorem hasNode_iff {s : Store} {id : String} : s.hasNode id = true ↔ id ∈ s.nodes.map Node.id := by
  simp [hasNode]

theorem hasEdge_iff {s : Store} {source target : String} {kind : EdgeKind} :
    s.hasEdge source target kind = true ↔ (source, target, kind) ∈ s.edges.map Edge.key := by
  simp [hasEdge]

theorem addNode_of_hasNode {s : Store} {node : Node} (known : s.hasNode node.id = true) :
    s.addNode node = (false, s) := by
  simp [addNode, known]

theorem addNode_of_not_hasNode {s : Store} {node : Node} (fresh : s.hasNode node.id = false) :
    s.addNode node = (true, { s with nodes := s.nodes ++ [node] }) := by
  simp [addNode, fresh]

/-- A held id is looked up as one of the nodes. -/
theorem node?_of_mem {s : Store} {id : String} (held : id ∈ s.nodes.map Node.id) :
    ∃ node ∈ s.nodes, node.id = id ∧ s.node? id = some node := by
  obtain ⟨other, member, same⟩ := List.mem_map.mp held
  have found : (s.node? id).isSome := List.find?_isSome.mpr ⟨other, member, by simp [same]⟩
  obtain ⟨node, hit⟩ := Option.isSome_iff_exists.mp found
  exact ⟨node, List.mem_of_find?_eq_some hit, by simpa using List.find?_some hit, hit⟩

theorem of_node? {s : Store} {id : String} {node : Node} (found : s.node? id = some node) :
    node ∈ s.nodes ∧ node.id = id :=
  ⟨List.mem_of_find?_eq_some found, by simpa using List.find?_some found⟩

/-- If ids are not used twice, each node is the one of its id. -/
theorem node?_eq_some_iff {s : Store} (distinct : (s.nodes.map Node.id).Nodup) {id : String}
    {node : Node} : s.node? id = some node ↔ node ∈ s.nodes ∧ node.id = id := by
  refine ⟨of_node?, ?_⟩
  rintro ⟨member, rfl⟩
  obtain ⟨other, member', same, found⟩ := node?_of_mem (List.mem_map_of_mem member)
  rw [found, List.inj_on_of_nodup_map distinct member' member same]

theorem mem_ids_of_node? {s : Store} {id : String} {node : Node} (found : s.node? id = some node) :
    id ∈ s.nodes.map Node.id := by
  obtain ⟨member, same⟩ := of_node? found
  exact List.mem_map.mpr ⟨node, member, same⟩

/-- The nodes are folders of these components and files of these paths, in this order. -/
structure TwoTiers (s : Store) (folders : List (List String)) (paths : List Path) : Prop where
  ids : s.nodes.map Node.id = folders.map Path.joined ++ paths.map Path.text
  nonempty : ∀ parts ∈ folders, parts ≠ []
  proper : ∀ parts ∈ folders, ∀ part ∈ parts, isComponent part = true
  absolute : ∀ p ∈ paths, p.isAbsolute = true

namespace TwoTiers

variable {s : Store} {folders : List (List String)} {paths : List Path}

theorem of_nodes {s' : Store} (tiers : s.TwoTiers folders paths) (same : s'.nodes = s.nodes) :
    s'.TwoTiers folders paths :=
  ⟨same ▸ tiers.ids, tiers.nonempty, tiers.proper, tiers.absolute⟩

theorem hasNode_text (tiers : s.TwoTiers folders paths) {p : Path} (absolute : p.isAbsolute = true) :
    s.hasNode p.text = true ↔ p ∈ paths := by
  rw [hasNode_iff, tiers.ids, List.mem_append, List.mem_map, List.mem_map]
  constructor
  · rintro (⟨parts, member, same⟩ | ⟨q, member, same⟩)
    · exact absurd same (Path.joined_ne_text (tiers.proper parts member) absolute)
    · exact Path.text_injective same ▸ member
  · exact fun member => .inr ⟨p, member, rfl⟩

theorem hasNode_joined (tiers : s.TwoTiers folders paths) {parts : List String}
    (proper : ∀ part ∈ parts, isComponent part = true) :
    s.hasNode (Path.joined parts) = true ↔ parts ∈ folders := by
  rw [hasNode_iff, tiers.ids, List.mem_append, List.mem_map, List.mem_map]
  constructor
  · rintro (⟨more, member, same⟩ | ⟨q, member, same⟩)
    · exact Path.joined_injective (tiers.proper more member) proper same ▸ member
    · exact absurd same.symm (Path.joined_ne_text proper (tiers.absolute q member))
  · exact fun member => .inl ⟨parts, member, rfl⟩

/-- The root cluster is a mark, not a node. -/
theorem hasNode_rootCluster (tiers : s.TwoTiers folders paths) : s.hasNode rootCluster = false := by
  rw [← Bool.not_eq_true, hasNode_iff, tiers.ids, List.mem_append, List.mem_map, List.mem_map]
  rintro (⟨parts, member, same⟩ | ⟨p, member, same⟩)
  · exact Path.joined_ne_dot (tiers.nonempty parts member) (tiers.proper parts member) same
  · exact Path.dot_ne_text (tiers.absolute p member) same.symm

end TwoTiers

end Store

end RepoAtlas
