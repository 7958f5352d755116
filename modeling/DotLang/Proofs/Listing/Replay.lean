import DotLang.Proofs.Listing.Document

/-!
# The effect of a listing

What the statements of a listing do to a graph on the way. A line of a node says
that the node is there and what it has beyond the defaults, a line of an edge that
both ends are there and that there is an edge; in a subgraph the nodes and edges are
noted as well. So the effect of lines is told by three lists: what is said about
nodes, the edges and the subgraphs.

* `Scope.extend`, `Scope.addSubgraphs`, `Scope.inside`: the three effects, which
  commute;
* `run_nodeStmts`, `run_edgeStmts`, `run_subgraphStmts`: the effect of the lines of
  nodes, of edges and of subgraphs;
* `Graph.toGraph_document`: the graph of a listing.
-/

namespace DotLang

open Attributes

/-! ### Effects -/

/-- What a line says about a node: that it is there, and perhaps what it has beyond the
    defaults. -/
abbrev Mention := String × Option (Attributes .node)

/-- Takes note of a node. -/
def NodeMap.mention (template : Attributes .node) (m : NodeMap) : Mention → NodeMap
  | (id, none) => m.declare id template
  | (id, some attrs) => (m.declare id template).modify id (·.merge attrs)

/-- The ends of an edge. -/
def Edge.ends (e : Edge) : List String := [e.tail, e.head]

/-- What a line of an edge says about nodes. -/
def Edge.mentions (e : Edge) : List Mention := e.ends.map (·, none)

/-- The edge on top of the defaults of a graph. -/
def Edge.over (defaults : Attributes .edge) (e : Edge) : Edge :=
  { e with attrs := defaults.merge e.attrs }

/-- What a line of a node says about it. -/
def Graph.nodeMention (g : Graph) (n : Node) : Mention :=
  (n.id, some ((∅ : Attributes .node).assignAll
    (withoutDefaults n.attrs.entries g.nodeDefaults.entries)))

/-- Takes note of nodes and adds edges. -/
def Graph.extend (g : Graph) (ms : List Mention) (es : List Edge) : Graph :=
  { g with
    nodeMap := ms.foldl (NodeMap.mention g.nodeDefaults) g.nodeMap
    edges := g.edges ++ es.toArray }

namespace Subgraph

/-- Declares nodes. -/
def registerAll (s : Subgraph) (ids : List String) : Subgraph :=
  { s with nodeIds := ids.foldl addMember s.nodeIds }

/-- Notes so many edges from a place on. -/
def recordFrom (s : Subgraph) (start count : Nat) : Subgraph :=
  { s with edgeIndices := s.edgeIndices ++ (List.range' start count).toArray }

end Subgraph

namespace Scope

/-- Takes note of nodes and adds edges. -/
def extend (s : Scope) (ms : List Mention) (es : List Edge) : Scope :=
  { s with graph := s.graph.extend ms es }

/-- Changes the innermost open subgraph, if there is one. -/
def inside (s : Scope) (f : Subgraph → Subgraph) : Scope :=
  { s with opened := s.opened.modifyHead f }

/-- Adds finished subgraphs to the innermost open one or to the graph. -/
def addSubgraphs (s : Scope) (subs : List Subgraph) : Scope :=
  match s.opened with
  | [] => { s with graph.subgraphs := s.graph.subgraphs ++ subs }
  | sub :: outer => { s with opened := { sub with children := sub.children ++ subs } :: outer }

end Scope

/-! ### How effects combine -/

theorem NodeMap.keys_declare (m : NodeMap) (id : String) (template : Attributes .node) :
    (m.declare id template).keys = Subgraph.addMember m.keys id :=
  m.byName.keys_insertIfNew id _

theorem NodeMap.keys_mention (template : Attributes .node) (m : NodeMap) (x : Mention) :
    (m.mention template x).keys = Subgraph.addMember m.keys x.1 := by
  obtain ⟨id, attrs⟩ := x
  cases attrs with
  | none => exact m.keys_declare id template
  | some attrs => rw [mention, keys_modify, keys_declare]

/-- The keys are those that have been mentioned, each once. -/
theorem NodeMap.keys_foldl_mention (template : Attributes .node) (ms : List Mention)
    (m : NodeMap) :
    (ms.foldl (mention template) m).keys =
      (ms.map Prod.fst).foldl Subgraph.addMember m.keys := by
  induction ms generalizing m with
  | nil => rfl
  | cons x ms ih => rw [List.foldl_cons, ih, keys_mention, List.map_cons, List.foldl_cons]

/-- Adding members keeps those that are there. -/
theorem Subgraph.mem_foldl_addMember {ids : List String} {members : Array String} {id : String} :
    id ∈ ids.foldl addMember members ↔ id ∈ members ∨ id ∈ ids := by
  induction ids generalizing members with
  | nil => simp
  | cons a ids ih =>
    rw [List.foldl_cons, ih, mem_addMember, List.mem_cons, or_assoc]

theorem NodeMap.contains_mention {template : Attributes .node} {m : NodeMap} {x : Mention}
    {id : String} :
    (m.mention template x).contains id = true ↔ id = x.1 ∨ m.contains id = true := by
  obtain ⟨id', attrs⟩ := x
  cases attrs with
  | none => exact contains_declare
  | some attrs =>
    rw [mention, contains_modify]
    exact contains_declare

theorem NodeMap.contains_foldl_mention {template : Attributes .node} {ms : List Mention}
    {m : NodeMap} {id : String} :
    (ms.foldl (mention template) m).contains id = true ↔
      m.contains id = true ∨ id ∈ ms.map Prod.fst := by
  induction ms generalizing m with
  | nil => simp
  | cons x ms ih =>
    rw [List.foldl_cons, ih, contains_mention, List.map_cons, List.mem_cons, ← or_assoc,
      or_comm (b := m.contains id = true)]

theorem Graph.extend_extend (g : Graph) (ms ms' : List Mention) (es es' : List Edge) :
    (g.extend ms es).extend ms' es' = g.extend (ms ++ ms') (es ++ es') := by
  simp only [extend, List.foldl_append, Array.append_assoc, List.append_toArray]

@[simp] theorem Graph.numEdges_extend (g : Graph) (ms : List Mention) (es : List Edge) :
    (g.extend ms es).numEdges = g.numEdges + es.length := by
  simp [numEdges, extend]

namespace Subgraph

@[simp] theorem registerAll_nil (s : Subgraph) : s.registerAll [] = s := by
  cases s
  rfl

@[simp] theorem recordFrom_zero (s : Subgraph) (start : Nat) : s.recordFrom start 0 = s := by
  cases s
  simp [recordFrom]

theorem register_eq (s : Subgraph) (id : String) : s.register id = s.registerAll [id] := by
  cases s
  simp only [registerAll, List.foldl_cons, List.foldl_nil, addMember, register]
  split <;> rfl

theorem recordEdge_eq (s : Subgraph) (index : Nat) : s.recordEdge index = s.recordFrom index 1 := by
  simp [recordEdge, recordFrom]

theorem registerAll_registerAll (s : Subgraph) (ids ids' : List String) :
    (s.registerAll ids).registerAll ids' = s.registerAll (ids ++ ids') := by
  simp only [registerAll, List.foldl_append]

theorem registerAll_recordFrom (s : Subgraph) (start count : Nat) (ids : List String) :
    (s.recordFrom start count).registerAll ids = (s.registerAll ids).recordFrom start count :=
  rfl

theorem recordFrom_recordFrom (s : Subgraph) (start m n : Nat) :
    (s.recordFrom start m).recordFrom (start + m) n = s.recordFrom start (m + n) := by
  simp only [recordFrom, Array.append_assoc, List.append_toArray, List.range'_append_1]

end Subgraph

namespace Scope

variable (s : Scope) (ms ms' : List Mention) (es es' : List Edge) (subs subs' : List Subgraph)
  (f f' : Subgraph → Subgraph)

theorem extend_extend : (s.extend ms es).extend ms' es' = s.extend (ms ++ ms') (es ++ es') := by
  rw [extend, extend, Graph.extend_extend]
  rfl

@[simp] theorem extend_nil : s.extend [] [] = s := by
  simp [extend, Graph.extend]

theorem inside_inside : (s.inside f).inside f' = s.inside fun sub => f' (f sub) := by
  simp only [inside, List.modifyHead_modifyHead]
  rfl

theorem inside_eq_self (h : ∀ sub, f sub = sub) : s.inside f = s := by
  obtain ⟨g, opened⟩ := s
  cases opened with
  | nil => rfl
  | cons sub outer => rw [inside, List.modifyHead_cons, h]

theorem extend_inside : (s.inside f).extend ms es = (s.extend ms es).inside f := rfl

theorem extend_addSubgraphs :
    (s.addSubgraphs subs).extend ms es = (s.extend ms es).addSubgraphs subs := by
  obtain ⟨g, opened⟩ := s
  cases opened <;> rfl

theorem addSubgraphs_addSubgraphs :
    (s.addSubgraphs subs).addSubgraphs subs' = s.addSubgraphs (subs ++ subs') := by
  obtain ⟨g, opened⟩ := s
  cases opened <;> simp [addSubgraphs]

@[simp] theorem addSubgraphs_nil : s.addSubgraphs [] = s := by
  obtain ⟨g, opened⟩ := s
  cases opened with
  | nil => simp [addSubgraphs]
  | cons sub outer =>
    cases sub
    simp [addSubgraphs]

variable {s}

/-- The attributes for nodes and edges to come are those of a graph. -/
structure HasDefaults (s : Scope) (g : Graph) : Prop where
  nodes : s.graph.nodeDefaults = g.nodeDefaults
  edges : s.graph.edgeDefaults = g.edgeDefaults

variable {g : Graph}

theorem HasDefaults.addSubgraphs (h : s.HasDefaults g) (subs : List Subgraph) :
    (s.addSubgraphs subs).HasDefaults g := by
  obtain ⟨G, opened⟩ := s
  cases opened <;> exact ⟨h.nodes, h.edges⟩

theorem numEdges_addSubgraphs : (s.addSubgraphs subs).graph.numEdges = s.graph.numEdges := by
  obtain ⟨G, opened⟩ := s
  cases opened <;> rfl

end Scope

/-! ### Lines of nodes and edges -/

theorem Scope.declare_eq (s : Scope) (id : String) :
    s.declare id = (s.extend [(id, none)] []).inside (·.registerAll [id]) := by
  obtain ⟨G, opened⟩ := s
  cases opened with
  | nil =>
    simp [declare, act, extend, inside, Graph.extend, Graph.declareNode, NodeMap.mention]
  | cons sub outer =>
    simp [declare, act, extend, inside, Graph.extend, Graph.declareNode, NodeMap.mention,
      Builder.declareNode, Subgraph.register_eq]

theorem runAll_append (body tail : List Stmt) (s : Scope) :
    runAll (body ++ tail) s = runAll tail (runAll body s) := by
  induction body generalizing s with
  | nil => rw [List.nil_append, runAll]
  | cons stmt body ih => rw [List.cons_append, runAll, runAll, ih]

theorem run_nodeStmt (g : Graph) (n : Node) (s : Scope) :
    (g.nodeStmt n).run s = (s.extend [g.nodeMention n] []).inside (·.registerAll [n.id]) := by
  rw [Graph.nodeStmt, Stmt.run, Scope.declare_eq]
  rfl

theorem run_nodeStmts (g : Graph) (ns : List Node) (s : Scope) :
    runAll (ns.map g.nodeStmt) s =
      (s.extend (ns.map g.nodeMention) []).inside (·.registerAll (ns.map Node.id)) := by
  induction ns generalizing s with
  | nil =>
    rw [List.map_nil, runAll, List.map_nil, List.map_nil, Scope.extend_nil,
      Scope.inside_eq_self _ _ Subgraph.registerAll_nil]
  | cons n ns ih =>
    rw [List.map_cons, runAll, run_nodeStmt, ih, Scope.extend_inside, Scope.inside_inside,
      Scope.extend_extend]
    simp only [Subgraph.registerAll_registerAll, List.map_cons, List.singleton_append,
      List.nil_append]

/-- An edge whose ends are there, in the graph and in the innermost open subgraph, is
    only added and noted. -/
theorem Scope.connect_eq {s : Scope} {tail head : String} (ht : s.graph.hasNode tail = true)
    (hh : s.graph.hasNode head = true)
    (hs : ∀ sub ∈ s.opened.head?, sub.containsNode tail = true ∧ sub.containsNode head = true)
    (templates : List (Attributes .edge)) :
    s.connect tail head templates =
      (s.extend [] [⟨tail, head, s.graph.newEdgeAttrs templates⟩]).inside
        (·.recordFrom s.graph.numEdges 1) := by
  -- Neither are the ends declared again nor does the subgraph adopt them.
  have hg : s.graph.addEdge tail head templates =
      s.graph.extend [] [⟨tail, head, s.graph.newEdgeAttrs templates⟩] := by
    have tail_there : s.graph.declareNode tail ∅ = s.graph := by
      rw [Graph.declareNode, NodeMap.declare_eq_self ht]
    have head_there : s.graph.declareNode head ∅ = s.graph := by
      rw [Graph.declareNode, NodeMap.declare_eq_self hh]
    rw [Graph.addEdge, tail_there, head_there]
    simp [Graph.extend]
  obtain ⟨G, opened⟩ := s
  cases opened with
  | nil => exact congrArg (Scope.mk · []) hg
  | cons sub outer =>
    obtain ⟨hst, hsh⟩ := hs sub rfl
    have adopted : Builder.adopt (Builder.adopt sub tail) head = sub := by
      rw [Builder.adopt, Builder.adopt, if_pos hst, if_pos hsh]
    show Scope.mk (G.addEdge tail head templates)
      ((Builder.adopt (Builder.adopt sub tail) head).recordEdge G.numEdges :: outer) = _
    rw [adopted, Subgraph.recordEdge_eq]
    exact congrArg (Scope.mk · _) hg

namespace Scope

/-- Declaring the two ends of an edge. -/
theorem declare_ends (s : Scope) (e : Edge) : (s.declare e.tail).declare e.head =
    (s.extend e.mentions []).inside (·.registerAll e.ends) := by
  rw [declare_eq, declare_eq, extend_inside, inside_inside, extend_extend]
  rfl

/-- The ends that are declared are nodes. -/
theorem hasNode_declare_ends (s : Scope) {e : Edge} {id : String} (hid : id ∈ e.ends) :
    ((s.declare e.tail).declare e.head).graph.hasNode id = true := by
  rw [declare_ends]
  refine NodeMap.contains_foldl_mention.2 (.inr ?_)
  rw [Edge.mentions, List.map_map]
  exact List.mem_map.2 ⟨id, hid, rfl⟩

/-- The ends that are declared are in the innermost open subgraph. -/
theorem containsNode_declare_ends (s : Scope) {e : Edge} {id : String} (hid : id ∈ e.ends) :
    ∀ sub ∈ ((s.declare e.tail).declare e.head).opened.head?, sub.containsNode id = true := by
  rw [declare_ends]
  obtain ⟨G, opened⟩ := s
  intro sub hsub
  cases opened with
  | nil => cases hsub
  | cons parent outer =>
    cases hsub
    exact Subgraph.containsNode_of_mem (Subgraph.mem_foldl_addMember.2 (.inr hid))

end Scope

/-- The line of an edge declares its ends before it adds the edge. -/
theorem run_edgeStmt {g : Graph} (hd : g.edgeDefaults.Proper) {e : Edge} (he : e.attrs.Proper)
    {s : Scope} (hs : s.HasDefaults g) :
    (g.edgeStmt e).run s = (s.extend e.mentions [e.over g.edgeDefaults]).inside fun sub =>
      (sub.registerAll e.ends).recordFrom s.graph.numEdges 1 := by
  have attrs : (s.graph.extend e.mentions []).newEdgeAttrs
      [Scope.portAttrs (.node ⟨e.tail, none⟩) (.node ⟨e.head, none⟩),
        (∅ : Attributes .edge).assignAll
          (withoutDefaults e.attrs.entries g.edgeDefaults.entries)] =
      g.edgeDefaults.merge e.attrs := by
    show (s.graph.edgeDefaults.merge ∅).merge _ = _
    rw [merge_empty, hs.edges, merge_assignAll_withoutDefaults hd he]
  have ht : e.tail ∈ e.ends := List.mem_cons_self
  have hh : e.head ∈ e.ends := List.mem_cons_of_mem _ List.mem_cons_self
  have run : (g.edgeStmt e).run s = ((s.declare e.tail).declare e.head).connect e.tail e.head
      [Scope.portAttrs (.node ⟨e.tail, none⟩) (.node ⟨e.head, none⟩),
        (∅ : Attributes .edge).assignAll
          (withoutDefaults e.attrs.entries g.edgeDefaults.entries)] := by
    rw [Graph.edgeStmt, Stmt.run, runEnds, runEnds, runEnds, Endpoint.run, Endpoint.run]
    rfl
  have inside : ∀ sub ∈ ((s.declare e.tail).declare e.head).opened.head?,
      sub.containsNode e.tail = true ∧ sub.containsNode e.head = true := fun sub hsub =>
    ⟨s.containsNode_declare_ends ht sub hsub, s.containsNode_declare_ends hh sub hsub⟩
  rw [run, Scope.connect_eq (s.hasNode_declare_ends ht) (s.hasNode_declare_ends hh) inside,
    Scope.declare_ends, Scope.extend_inside, Scope.inside_inside, Scope.extend_extend,
    List.append_nil, List.nil_append]
  -- The edge is made on top of the defaults, and noted behind those that are there.
  show Scope.inside (s.extend e.mentions
    [⟨e.tail, e.head, (s.graph.extend e.mentions []).newEdgeAttrs _⟩]) _ = _
  rw [attrs]
  show Scope.inside _ (fun sub => (sub.registerAll e.ends).recordFrom
    (s.graph.extend e.mentions []).numEdges 1) = _
  rw [Graph.numEdges_extend]
  rfl

theorem run_edgeStmts {g : Graph} (hd : g.edgeDefaults.Proper) {es : List Edge}
    (hes : ∀ e ∈ es, e.attrs.Proper) {s : Scope} (hs : s.HasDefaults g) :
    runAll (es.map g.edgeStmt) s =
      (s.extend (es.flatMap Edge.mentions) (es.map (Edge.over g.edgeDefaults))).inside fun sub =>
        (sub.registerAll (es.flatMap Edge.ends)).recordFrom s.graph.numEdges es.length := by
  induction es generalizing s with
  | nil =>
    rw [List.map_nil, runAll, List.flatMap_nil, List.flatMap_nil, List.map_nil, Scope.extend_nil,
      Scope.inside_eq_self]
    intro sub
    rw [Subgraph.registerAll_nil, List.length_nil, Subgraph.recordFrom_zero]
  | cons e es ih =>
    let next := (s.extend e.mentions [e.over g.edgeDefaults]).inside fun sub =>
      (sub.registerAll e.ends).recordFrom s.graph.numEdges 1
    have defaults : next.HasDefaults g := ⟨hs.nodes, hs.edges⟩
    have numEdges : next.graph.numEdges = s.graph.numEdges + 1 := Graph.numEdges_extend _ _ _
    -- The later edges are noted from the next place on.
    have later := ih (fun e' he' => hes e' (List.mem_cons_of_mem _ he')) defaults
    rw [List.map_cons, runAll, run_edgeStmt hd (hes e List.mem_cons_self) hs, later, numEdges,
      Scope.extend_inside, Scope.inside_inside, Scope.extend_extend]
    simp only [Subgraph.registerAll_recordFrom, Subgraph.registerAll_registerAll,
      Subgraph.recordFrom_recordFrom, List.length_cons, Nat.add_comm 1]
    rfl

/-! ### Lines of subgraphs -/

namespace Graph

/-- The edges of subgraphs, in the order in which they are written. -/
def forestEdges (g : Graph) (subs : List Subgraph) : List Edge :=
  (Subgraph.recorded subs).filterMap (g.edges[·]?)

mutual

/-- What the lines of a subgraph say about nodes. -/
def subgraphMentions (g : Graph) : Subgraph → List Mention
  | ⟨name, attrs, nodeIds, edgeIndices, children⟩ =>
    let s : Subgraph := ⟨name, attrs, nodeIds, edgeIndices, children⟩
    (g.subgraphNodes s).map g.nodeMention ++ subgraphsMentions g children
      ++ (g.subgraphEdges s).flatMap Edge.mentions

/-- What the lines of subgraphs say about nodes. -/
def subgraphsMentions (g : Graph) : List Subgraph → List Mention
  | [] => []
  | s :: subs => subgraphMentions g s ++ subgraphsMentions g subs

end

mutual

/-- The subgraph that the lines of a subgraph are read as, if there are already so many
    edges. Its nodes are those that have lines, and then the ends of its edges. -/
def rereadSubgraph (g : Graph) (start : Nat) : Subgraph → Subgraph
  | ⟨name, attrs, nodeIds, edgeIndices, children⟩ =>
    let s : Subgraph := ⟨name, attrs, nodeIds, edgeIndices, children⟩
    let read : Subgraph :=
      { name := name, attrs := attrs, children := rereadSubgraphs g start children }
    (read.registerAll ((g.subgraphNodes s).map Node.id ++ (g.subgraphEdges s).flatMap Edge.ends))
      |>.recordFrom (start + (g.forestEdges children).length) (g.subgraphEdges s).length

/-- The subgraphs that the lines of subgraphs are read as, if there are already so many
    edges. -/
def rereadSubgraphs (g : Graph) (start : Nat) : List Subgraph → List Subgraph
  | [] => []
  | s :: subs =>
    rereadSubgraph g start s :: rereadSubgraphs g (start + (g.forestEdges [s]).length) subs

end

variable (g : Graph)

theorem forestEdges_cons (s : Subgraph) (subs : List Subgraph) :
    g.forestEdges (s :: subs) =
      g.forestEdges s.children ++ g.subgraphEdges s ++ g.forestEdges subs := by
  rw [forestEdges, Subgraph.recorded_cons, List.filterMap_append, List.filterMap_append]
  rfl

@[simp] theorem forestEdges_nil : g.forestEdges [] = [] := by
  rw [forestEdges, Subgraph.recorded_nil, List.filterMap_nil]

theorem forestEdges_singleton (s : Subgraph) :
    g.forestEdges [s] = g.forestEdges s.children ++ g.subgraphEdges s := by
  rw [forestEdges_cons, forestEdges_nil, List.append_nil]

end Graph

theorem run_assignStmts (entries : List (String × String)) (g : Graph) (sub : Subgraph)
    (outer : List Subgraph) :
    runAll (assignStmts entries) ⟨g, sub :: outer⟩ =
      ⟨g, { sub with attrs := sub.attrs.assignAll entries } :: outer⟩ := by
  induction entries generalizing sub with
  | nil =>
    cases sub
    rw [assignStmts, List.map_nil, runAll]
    rfl
  | cons e entries ih =>
    show runAll (assignStmts entries) (Stmt.run (.attributes .scope [e]) ⟨g, sub :: outer⟩) = _
    rw [Stmt.run]
    exact ih _

theorem Scope.leave_eq (g : Graph) (sub : Subgraph) (opened : List Subgraph) :
    (⟨g, sub :: opened⟩ : Scope).leave = (⟨g, opened⟩ : Scope).addSubgraphs [sub] := by
  cases opened <;> rfl

mutual

theorem run_subgraphStmt {g : Graph} (h : g.Proper) : (t : Subgraph) →
    (∀ u ∈ t.tree, u.attrs.Proper) → (s : Scope) → s.HasDefaults g →
    (g.subgraphStmt t).run s =
      (s.extend (g.subgraphMentions t)
        ((g.forestEdges [t]).map (Edge.over g.edgeDefaults))).addSubgraphs
          [g.rereadSubgraph s.graph.numEdges t]
  | ⟨name, attrs, nodeIds, edgeIndices, children⟩, ht, s, hs => by
    rw [Subgraph.forall_tree] at ht
    let t : Subgraph := ⟨name, attrs, nodeIds, edgeIndices, children⟩
    let ids := (g.subgraphNodes t).map Node.id
    let named : Subgraph := { name := name, attrs := attrs }
    let G₁ := s.graph.extend ((g.subgraphNodes t).map g.nodeMention) []
    let G₂ := G₁.extend (g.subgraphsMentions children)
      ((g.forestEdges children).map (Edge.over g.edgeDefaults))
    let inner : Subgraph :=
      { named.registerAll ids with children := g.rereadSubgraphs s.graph.numEdges children }
    -- The lines inside, in the order in which they are written.
    have assigns : runAll (assignStmts attrs.entries) (s.enter name) =
        ⟨s.graph, named :: s.opened⟩ := by
      rw [Scope.enter, run_assignStmts, Proper.assignAll_entries ht.2]
    have nodes : runAll ((g.subgraphNodes t).map g.nodeStmt) ⟨s.graph, named :: s.opened⟩ =
        ⟨G₁, named.registerAll ids :: s.opened⟩ := run_nodeStmts g _ _
    have numEdges₁ : G₁.numEdges = s.graph.numEdges := Graph.numEdges_extend _ _ _
    have subs : runAll (g.subgraphsStmts children) ⟨G₁, named.registerAll ids :: s.opened⟩ =
        ⟨G₂, inner :: s.opened⟩ := by
      rw [run_subgraphsStmts h children ht.1 ⟨G₁, named.registerAll ids :: s.opened⟩
        ⟨hs.nodes, hs.edges⟩]
      show Scope.addSubgraphs ⟨G₂, _⟩ (g.rereadSubgraphs G₁.numEdges children) = _
      rw [numEdges₁]
      rfl
    have numEdges₂ : G₂.numEdges = s.graph.numEdges + (g.forestEdges children).length := by
      rw [Graph.numEdges_extend, numEdges₁, List.length_map]
    have proper : ∀ e ∈ g.subgraphEdges t, e.attrs.Proper :=
      fun e he => h.edges e (Graph.mem_edges_of_mem_subgraphEdges he)
    have edges := run_edgeStmts h.edgeDefaults proper (s := ⟨G₂, inner :: s.opened⟩)
      ⟨hs.nodes, hs.edges⟩
    rw [Graph.subgraphStmt_eq, Stmt.run, runAll_append, runAll_append, runAll_append, assigns,
      nodes, subs, edges]
    show Scope.leave ⟨G₂.extend _ _, _ :: s.opened⟩ =
      Scope.addSubgraphs ⟨s.graph.extend _ _, s.opened⟩ _
    rw [Scope.leave_eq, Graph.extend_extend, Graph.extend_extend, Graph.subgraphMentions,
      Graph.forestEdges_singleton, List.map_append, Graph.rereadSubgraph,
      ← Subgraph.registerAll_registerAll, List.nil_append, List.append_assoc]
    show Scope.addSubgraphs _ [Subgraph.recordFrom _ G₂.numEdges _] = _
    rw [numEdges₂]
    rfl

theorem run_subgraphsStmts {g : Graph} (h : g.Proper) : (subs : List Subgraph) →
    (∀ u ∈ Subgraph.forest subs, u.attrs.Proper) → (s : Scope) → s.HasDefaults g →
    runAll (g.subgraphsStmts subs) s =
      (s.extend (g.subgraphsMentions subs)
        ((g.forestEdges subs).map (Edge.over g.edgeDefaults))).addSubgraphs
        (g.rereadSubgraphs s.graph.numEdges subs)
  | [], _, s, _ => by
    rw [Graph.subgraphsStmts, runAll, Graph.subgraphsMentions, Graph.forestEdges_nil, List.map_nil,
      Scope.extend_nil, Graph.rereadSubgraphs, Scope.addSubgraphs_nil]
  | t :: subs, ht, s, hs => by
    rw [Subgraph.forall_forest_cons] at ht
    let extended := s.extend (g.subgraphMentions t)
      ((g.forestEdges [t]).map (Edge.over g.edgeDefaults))
    let next := extended.addSubgraphs [g.rereadSubgraph s.graph.numEdges t]
    have defaults : next.HasDefaults g :=
      Scope.HasDefaults.addSubgraphs (s := extended) ⟨hs.nodes, hs.edges⟩ _
    have numEdges : next.graph.numEdges = s.graph.numEdges + (g.forestEdges [t]).length := by
      rw [Scope.numEdges_addSubgraphs]
      exact (Graph.numEdges_extend _ _ _).trans (by rw [List.length_map])
    -- The later subgraphs count their edges from those of the first on.
    have later := run_subgraphsStmts h subs ht.2 next defaults
    rw [Graph.subgraphsStmts, runAll, run_subgraphStmt h t ht.1 s hs, later, numEdges,
      Scope.extend_addSubgraphs, Scope.addSubgraphs_addSubgraphs, Scope.extend_extend,
      ← List.map_append, Graph.forestEdges_singleton, ← Graph.forestEdges_cons,
      Graph.subgraphsMentions, Graph.rereadSubgraphs, Graph.forestEdges_singleton]
    rfl

end

/-! ### The whole listing -/

namespace Graph

/-- What the lines of a graph say about nodes. -/
def mentions (g : Graph) : List Mention :=
  g.subgraphsMentions g.subgraphs ++ g.looseNodes.map g.nodeMention
    ++ g.looseEdges.flatMap Edge.mentions

/-- The edges in the order in which they are written. -/
def listedEdges (g : Graph) : List Edge := g.forestEdges g.subgraphs ++ g.looseEdges

/-- A graph without nodes, edges and subgraphs. -/
def frame (g : Graph) : Graph :=
  { g with nodeMap := ∅, edges := #[], subgraphs := [] }

/-- The graph that the text of a graph is read as. -/
def reread (g : Graph) : Graph :=
  { g.frame.extend g.mentions (g.listedEdges.map (Edge.over g.edgeDefaults)) with
    subgraphs := g.rereadSubgraphs 0 g.subgraphs }

end Graph

theorem run_graphAssignStmts (entries : List (String × String)) (g : Graph) :
    runAll (assignStmts entries) { graph := g } =
      { graph := { g with attrs := g.attrs.assignAll entries } } := by
  induction entries generalizing g with
  | nil =>
    rw [assignStmts, List.map_nil, runAll]
    rfl
  | cons e entries ih =>
    show runAll (assignStmts entries) (Stmt.run (.attributes .scope [e]) { graph := g }) = _
    rw [Stmt.run]
    exact ih _

theorem run_defaultsStmts (target : Target) (entries : List (String × String)) (s : Scope)
    (h : s.assign [] target = s) :
    runAll (defaultsStmts target entries) s = s.assign entries target := by
  rw [defaultsStmts]
  split
  · next hempty => rw [runAll, List.isEmpty_iff.1 hempty, h]
  · rw [runAll, runAll, Stmt.run]

/-- The lines of attributes alone make the frame of a graph. -/
theorem run_frame {g : Graph} (h : g.Proper) :
    runAll (assignStmts g.attrs.entries ++ defaultsStmts .nodes g.nodeDefaults.entries
      ++ defaultsStmts .edges g.edgeDefaults.entries)
      { graph := { directed := g.directed, strict := g.strict, name := g.name } } =
      { graph := g.frame } := by
  rw [runAll_append, runAll_append, run_graphAssignStmts, run_defaultsStmts _ _ _ rfl,
    run_defaultsStmts _ _ _ rfl]
  simp only [Scope.assign]
  rw [h.attrs.assignAll_entries, h.nodeDefaults.assignAll_entries, h.edgeDefaults.assignAll_entries]
  rfl

/-- The graph of a listing. -/
theorem Graph.toGraph_document {g : Graph} (h : g.Proper) : g.document.toGraph = g.reread := by
  let filled := Edge.over g.edgeDefaults
  let s₁ := (Scope.extend ⟨g.frame, []⟩ (g.subgraphsMentions g.subgraphs)
    ((g.forestEdges g.subgraphs).map filled)).addSubgraphs (g.rereadSubgraphs 0 g.subgraphs)
  let s₂ := s₁.extend (g.looseNodes.map g.nodeMention) []
  have subs : runAll (g.subgraphsStmts g.subgraphs) { graph := g.frame } = s₁ :=
    run_subgraphsStmts h g.subgraphs h.subgraphs _ ⟨rfl, rfl⟩
  have nodes : runAll (g.looseNodes.map g.nodeStmt) s₁ = s₂ := run_nodeStmts g _ _
  have loose : ∀ e ∈ g.looseEdges, e.attrs.Proper :=
    fun e he => h.edges e (mem_edges_of_mem_looseEdges he)
  have edges : runAll (g.looseEdges.map g.edgeStmt) s₂ =
      s₂.extend (g.looseEdges.flatMap Edge.mentions) (g.looseEdges.map filled) :=
    run_edgeStmts h.edgeDefaults loose ⟨rfl, rfl⟩
  have run : runAll g.document.body { graph := g.document.header.toGraph } =
      s₂.extend (g.looseEdges.flatMap Edge.mentions) (g.looseEdges.map filled) := by
    rw [document, runAll_append, runAll_append, runAll_append, Header.toGraph, run_frame h, subs,
      nodes, edges]
  rw [Document.toGraph, run, Scope.extend_extend, Scope.extend_addSubgraphs, Scope.extend_extend,
    List.nil_append, ← List.append_assoc, ← List.map_append]
  rfl

/-- Reading the text of a graph gives the graph again as far as its text tells it, if
    the keys are words and the sets proper. -/
theorem Graph.ofText_text {g : Graph} (hk : g.KeysReadable) (h : g.Proper) :
    Graph.ofText g.text = .ok g.reread := by
  rw [ofText_text_eq hk h, toGraph_document h]

end DotLang
