import RepoAtlas.Proofs.Graph.Store

/-! # Calls on a store

`Step` lists everything that one call can do: a node or an edge is new, is known, or is an edge
without one of its ends. Every call is such a step, so what all reachable stores have in common is
kept by each case and then by any row of calls from the store without nodes. The views of a store
only sort its two lists and never lose or move an item.
-/

namespace RepoAtlas

/-- The lists hold all items of a list, each item once for each time and in the old order. -/
def Splits {α : Type} (whole : List α) (parts : List (List α)) : Prop :=
  (∀ part ∈ parts, part.Sublist whole) ∧ parts.flatten.Perm whole

namespace Store

inductive Call where
  | node (node : Node)
  | edge (edge : Edge)

/-- The answer to a call and the store behind it. A refused edge leaves the store as it was. -/
def answer (s : Store) : Call → Except EdgeProblem Bool × Store
  | .node node =>
    let (added, next) := s.addNode node
    (.ok added, next)
  | .edge edge =>
    match s.addEdge edge with
    | .ok (added, next) => (.ok added, next)
    | .error problem => (.error problem, s)

/-- The store behind a row of calls. -/
def after (s : Store) (calls : List Call) : Store :=
  calls.foldl (fun s call => (s.answer call).2) s

/-- One call, its answer and the store behind it. -/
inductive Step (s : Store) : Call → Except EdgeProblem Bool → Store → Prop where
  | knownNode {node : Node} (known : node.id ∈ s.nodes.map Node.id) :
      Step s (.node node) (.ok false) s
  | newNode {node : Node} (fresh : node.id ∉ s.nodes.map Node.id) :
      Step s (.node node) (.ok true) { s with nodes := s.nodes ++ [node] }
  | knownEdge {edge : Edge} (known : edge.key ∈ s.edges.map Edge.key) :
      Step s (.edge edge) (.ok false) s
  | noSource {edge : Edge} (fresh : edge.key ∉ s.edges.map Edge.key)
      (missing : edge.source ∉ s.nodes.map Node.id) :
      Step s (.edge edge) (.error (.missingEnd edge.source)) s
  | noTarget {edge : Edge} (fresh : edge.key ∉ s.edges.map Edge.key)
      (source : edge.source ∈ s.nodes.map Node.id) (missing : edge.target ∉ s.nodes.map Node.id) :
      Step s (.edge edge) (.error (.missingEnd edge.target)) s
  | newEdge {edge : Edge} (fresh : edge.key ∉ s.edges.map Edge.key)
      (source : edge.source ∈ s.nodes.map Node.id) (target : edge.target ∈ s.nodes.map Node.id) :
      Step s (.edge edge) (.ok true) { s with edges := s.edges ++ [edge] }

variable {s s' : Store} {call : Call} {reply : Except EdgeProblem Bool}

theorem step_node (s : Store) (node : Node) :
    s.Step (.node node) (s.answer (.node node)).1 (s.answer (.node node)).2 := by
  by_cases known : s.hasNode node.id = true
  · simp only [answer, addNode_of_hasNode known]
    exact .knownNode (hasNode_iff.mp known)
  · have fresh : node.id ∉ s.nodes.map Node.id := fun held => known (hasNode_iff.mpr held)
    rw [Bool.not_eq_true] at known
    simp only [answer, addNode_of_not_hasNode known]
    exact .newNode fresh

theorem step_edge (s : Store) (edge : Edge) :
    s.Step (.edge edge) (s.answer (.edge edge)).1 (s.answer (.edge edge)).2 := by
  simp only [answer, addEdge]
  -- The order of the questions: is the edge there, is there its source, is there its target?
  by_cases known : edge.key ∈ s.edges.map Edge.key
  · rw [if_pos (hasEdge_iff.mpr known)]
    exact .knownEdge known
  rw [if_neg (mt hasEdge_iff.mp known)]
  by_cases source : edge.source ∈ s.nodes.map Node.id
  · rw [if_neg (by simpa using hasNode_iff.mpr source)]
    by_cases target : edge.target ∈ s.nodes.map Node.id
    · rw [if_neg (by simpa using hasNode_iff.mpr target)]
      exact .newEdge known source target
    · rw [if_pos (by simpa using mt hasNode_iff.mp target)]
      exact .noTarget known source target
  · rw [if_pos (by simpa using mt hasNode_iff.mp source)]
    exact .noSource known source

theorem step_answer (s : Store) (call : Call) : s.Step call (s.answer call).1 (s.answer call).2 := by
  cases call with
  | node node => exact step_node s node
  | edge edge => exact step_edge s edge

/-! ## What a caller is told -/

def Call.Known (s : Store) : Call → Prop
  | .node n => n.id ∈ s.nodes.map Node.id
  | .edge e => e.key ∈ s.edges.map Edge.key

/-- The store behind a call is the one before it with one more item at its end. -/
def Call.Appends (s s' : Store) : Call → Prop
  | .node n => s' = { s with nodes := s.nodes ++ [n] }
  | .edge e => s' = { s with edges := s.edges ++ [e] }

/-- A new edge lacks an end; if it lacks both, the source is the one to blame. -/
def Call.Lacks (s : Store) (id : String) : Call → Prop
  | .node _ => False
  | .edge e => e.key ∉ s.edges.map Edge.key ∧
      (e.source ∉ s.nodes.map Node.id ∧ id = e.source ∨
        e.source ∈ s.nodes.map Node.id ∧ e.target ∉ s.nodes.map Node.id ∧ id = e.target)

/-- Each answer stands for one thing that happened, and all but one for nothing. -/
structure Tells (s : Store) (call : Call) (reply : Except EdgeProblem Bool) (s' : Store) :
    Prop where
  added : reply = .ok true ↔ call.Appends s s'
  known : reply = .ok false ↔ call.Known s
  refused : ∀ id, reply = .error (.missingEnd id) ↔ call.Lacks s id
  unchanged : reply ≠ .ok true → s' = s

theorem Call.not_appends_self (s : Store) (call : Call) : ¬call.Appends s s := by
  intro appends
  cases call with
  | node n =>
      have longer : s.nodes = s.nodes ++ [n] := congrArg nodes appends
      simp at longer
  | edge e =>
      have longer : s.edges = s.edges ++ [e] := congrArg edges appends
      simp at longer

theorem Step.tells (step : s.Step call reply s') : s.Tells call reply s' := by
  cases step with
  | knownNode known =>
      exact ⟨by simp [Call.not_appends_self], by simp [Call.Known, known], by simp [Call.Lacks],
        fun _ => rfl⟩
  | newNode fresh =>
      exact ⟨by simp [Call.Appends], by simp [Call.Known, fresh], by simp [Call.Lacks],
        fun other => absurd rfl other⟩
  | knownEdge known =>
      exact ⟨by simp [Call.not_appends_self], by simp [Call.Known, known],
        by simp [Call.Lacks, known], fun _ => rfl⟩
  | noSource fresh missing =>
      exact ⟨by simp [Call.not_appends_self], by simp [Call.Known, fresh],
        by simp [Call.Lacks, fresh, missing, eq_comm], fun _ => rfl⟩
  | noTarget fresh source missing =>
      exact ⟨by simp [Call.not_appends_self], by simp [Call.Known, fresh],
        by simp [Call.Lacks, fresh, source, missing, eq_comm], fun _ => rfl⟩
  | newEdge fresh source target =>
      exact ⟨by simp [Call.Appends], by simp [Call.Known, fresh],
        by simp [Call.Lacks, source, target], fun other => absurd rfl other⟩

/-! ## What every row of calls keeps -/

/-- No id and no triple is used twice, and edges join nodes. -/
structure Sound (s : Store) : Prop where
  ids : (s.nodes.map Node.id).Nodup
  keys : (s.edges.map Edge.key).Nodup
  ends : ∀ e ∈ s.edges, e.source ∈ s.nodes.map Node.id ∧ e.target ∈ s.nodes.map Node.id

theorem sound_empty : empty.Sound := ⟨by simp [empty], by simp [empty], by simp [empty]⟩

theorem Sound.step (sound : s.Sound) (step : s.Step call reply s') : s'.Sound := by
  cases step with
  | knownNode | knownEdge | noSource | noTarget => exact sound
  | @newNode node fresh =>
      refine ⟨?_, sound.keys, ?_⟩
      · rw [List.map_append, List.map_singleton]
        exact nodup_concat sound.ids fresh
      · -- No node goes away, so edges keep their ends.
        intro e member
        obtain ⟨source, target⟩ := sound.ends e member
        rw [List.map_append]
        exact ⟨List.mem_append_left _ source, List.mem_append_left _ target⟩
  | @newEdge edge fresh source target =>
      refine ⟨sound.ids, ?_, ?_⟩
      · rw [List.map_append, List.map_singleton]
        exact nodup_concat sound.keys fresh
      · intro e member
        rcases List.mem_append.mp member with old | new
        · exact sound.ends e old
        · rw [List.mem_singleton.mp new]
          exact ⟨source, target⟩

/-- A store goes on from another: the items of that one come first and in their order. -/
structure Extends (s s' : Store) : Prop where
  nodes : s.nodes <+: s'.nodes
  edges : s.edges <+: s'.edges

theorem Extends.refl (s : Store) : s.Extends s := ⟨List.prefix_rfl, List.prefix_rfl⟩

theorem Extends.trans {s'' : Store} (first : s.Extends s') (second : s'.Extends s'') :
    s.Extends s'' :=
  ⟨first.nodes.trans second.nodes, first.edges.trans second.edges⟩

theorem Step.extends (step : s.Step call reply s') : s.Extends s' := by
  cases step with
  | knownNode | knownEdge | noSource | noTarget => exact .refl s
  | newNode => exact ⟨List.prefix_append _ _, List.prefix_rfl⟩
  | newEdge => exact ⟨List.prefix_rfl, List.prefix_append _ _⟩

theorem Sound.after (sound : s.Sound) (calls : List Call) : (s.after calls).Sound := by
  induction calls generalizing s with
  | nil => exact sound
  | cons call rest ih => exact ih (sound.step (step_answer s call))

theorem extends_after (s : Store) (calls : List Call) : s.Extends (s.after calls) := by
  induction calls generalizing s with
  | nil => exact .refl s
  | cons call rest ih => exact (step_answer s call).extends.trans (ih _)

/-! ## Views -/

/-- Every view agrees with the two lists of the store. -/
structure Views (s : Store) : Prop where
  tiers : Splits s.nodes [s.files.map .file, s.folders.map .folder]
  kinds : Splits s.edges [s.edgesOf .imports, s.edgesOf .hierarchy, s.edgesOf .rollup]
  ofKind : ∀ kind e, e ∈ s.edgesOf kind ↔ e ∈ s.edges ∧ e.kind = kind
  leaving : ∀ id, s.outEdges id none = s.edges.filter fun e => e.source = id
  leavingOf : ∀ id kind,
    s.outEdges id (some kind) = s.edges.filter fun e => e.source = id ∧ e.kind = kind
  held : ∀ id, s.hasNode id = true ↔ id ∈ s.nodes.map Node.id
  linked : ∀ source target kind,
    s.hasEdge source target kind = true ↔ (source, target, kind) ∈ s.edges.map Edge.key
  found : ∀ id node, s.node? id = some node ↔ node ∈ s.nodes ∧ node.id = id

theorem splits_tiers (s : Store) : Splits s.nodes [s.files.map .file, s.folders.map .folder] := by
  obtain ⟨nodes, edges⟩ := s
  simp only [Splits, files, folders, List.forall_mem_cons, List.flatten_cons, List.flatten_nil,
    List.append_nil]
  induction nodes with
  | nil => simp
  | cons node rest ih =>
      obtain ⟨⟨filed, foldered, -⟩, together⟩ := ih
      cases node with
      | file f =>
          refine ⟨⟨filed.cons_cons _, foldered.cons _, by simp⟩, ?_⟩
          exact together.cons _
      | folder f =>
          refine ⟨⟨filed.cons _, foldered.cons_cons _, by simp⟩, ?_⟩
          exact List.perm_middle.trans (together.cons _)

theorem splits_kinds (s : Store) :
    Splits s.edges [s.edgesOf .imports, s.edgesOf .hierarchy, s.edgesOf .rollup] := by
  obtain ⟨nodes, edges⟩ := s
  simp only [Splits, edgesOf, List.flatten_cons, List.flatten_nil, List.append_nil]
  refine ⟨by simp, ?_⟩
  induction edges with
  | nil => simp
  | cons e rest ih =>
      cases kind : e.kind with
      | imports =>
          simp only [List.filter_cons, kind]
          exact ih.cons e
      | hierarchy =>
          simp only [List.filter_cons, kind]
          exact List.perm_middle.trans (ih.cons e)
      | rollup =>
          simp only [List.filter_cons, kind]
          rw [← List.append_assoc] at ih ⊢
          exact List.perm_middle.trans (ih.cons e)

theorem Sound.views (sound : s.Sound) : s.Views where
  tiers := splits_tiers s
  kinds := splits_kinds s
  ofKind := by simp [edgesOf]
  leaving := by
    intro id
    simp only [outEdges, Option.all_none, Bool.and_true]
    rfl
  leavingOf := by
    intro id kind
    apply List.filter_congr
    intro e member
    rw [Bool.eq_iff_iff]
    simp
  held := fun _ => hasNode_iff
  linked := fun _ _ _ => hasEdge_iff
  found := fun _ _ => node?_eq_some_iff sound.ids

/-- Whatever is called on a store without nodes, the store stays sound, each further call tells what
    it does, nothing that is in goes away or moves, and the views follow. -/
theorem after_empty_consistent (calls : List Call) :
    (empty.after calls).Sound ∧ (empty.after calls).Views ∧
      (∀ call, (empty.after calls).Tells call ((empty.after calls).answer call).1
        ((empty.after calls).answer call).2) ∧
      ∀ more, (empty.after calls).Extends (empty.after (calls ++ more)) := by
  have sound : (empty.after calls).Sound := sound_empty.after calls
  refine ⟨sound, sound.views, ?_, ?_⟩
  · intro call
    exact (step_answer _ call).tells
  · intro more
    have onward : empty.after (calls ++ more) = (empty.after calls).after more := by
      simp only [after, List.foldl_append]
    rw [onward]
    exact extends_after _ more

end Store

end RepoAtlas
