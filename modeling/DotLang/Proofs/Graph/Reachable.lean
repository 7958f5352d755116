import DotLang.Proofs.Attribute.Texts
import DotLang.Proofs.Graph.Invariant

/-!
# Graphs that can be reached

How graphs come about: by reading a document, statement by statement, or by
building, where subgraphs are built inside of subgraphs. What is true of an empty
graph and kept by every operation is true of all of them.

* `Scope.Kept.runAll`: what the operations keep, the statements of a document keep;
* `Graph.Reachable.wellFormed`: all graphs are well formed;
* `Graph.proper_of_ofText`: the attributes that reading makes are proper.
-/

namespace DotLang

/-! ### Reading -/

namespace Scope

/-- A property that every operation of a document keeps. -/
structure Kept (P : Scope → Prop) : Prop where
  declare {s : Scope} (id : String) : P s → P (s.declare id)
  mergeNode {s : Scope} (id : String) (pairs : Assignments) : P s →
    P { s with graph := s.graph.modifyNode id (·.merge ((∅ : Attributes .node).assignAll pairs)) }
  connect {s : Scope} (tail head : String) (l r : Endpoint) (pairs : Assignments) : P s →
    P (s.connect tail head [portAttrs l r, (∅ : Attributes .edge).assignAll pairs])
  assign {s : Scope} (pairs : Assignments) (target : Target) : P s → P (s.assign pairs target)
  enter {s : Scope} (name : String) : P s → P (s.enter name)
  leave {s : Scope} : P s → P s.leave

namespace Kept

variable {P : Scope → Prop}

theorem foldl {α : Type} {f : Scope → α → Scope} (hf : ∀ s a, P s → P (f s a)) (l : List α)
    {s : Scope} (h : P s) : P (l.foldl f s) := by
  induction l generalizing s with
  | nil => exact h
  | cons a l ih => exact ih (hf s a h)

theorem connectPair (hk : Kept P) (pairs : Assignments) (l r : Endpoint) {s : Scope} (h : P s) :
    P (s.connectPair ((∅ : Attributes .edge).assignAll pairs) l r) :=
  foldl (fun _ tail h => foldl (fun _ head h => hk.connect tail head l r pairs h) r.ids h) l.ids h

theorem connectChain (hk : Kept P) (ends : List Endpoint) (pairs : Assignments) {s : Scope}
    (h : P s) : P (s.connectChain ends pairs) :=
  foldl (fun _ (l, r) h => hk.connectPair pairs l r h) (Endpoint.pairs ends) h

mutual

theorem endpoint (hk : Kept P) : (e : Endpoint) → (s : Scope) → P s → P (e.run s)
  | .node ref, s, h => by
    rw [Endpoint.run]
    exact hk.declare ref.id h
  | .subgraph name body, s, h => by
    rw [Endpoint.run]
    exact hk.leave (runAll hk body (s.enter name) (hk.enter name h))

theorem stmt (hk : Kept P) : (stmt : Stmt) → (s : Scope) → P s → P (stmt.run s)
  | .attributes target pairs, s, h => by
    rw [Stmt.run]
    exact hk.assign pairs target h
  | .node ref pairs, s, h => by
    rw [Stmt.run]
    exact hk.mergeNode ref.id pairs (hk.declare ref.id h)
  | .subgraph name body, s, h => by
    rw [Stmt.run]
    exact hk.leave (runAll hk body (s.enter name) (hk.enter name h))
  | .edge ends pairs, s, h => by
    rw [Stmt.run]
    exact hk.connectChain ends pairs (runEnds hk ends s h)

/-- What every operation keeps, statements keep. -/
theorem runAll (hk : Kept P) : (body : List Stmt) → (s : Scope) → P s → P (DotLang.runAll body s)
  | [], s, h => by
    rw [DotLang.runAll]
    exact h
  | s' :: body, s, h => by
    rw [DotLang.runAll]
    exact runAll hk body (s'.run s) (stmt hk s' s h)

theorem runEnds (hk : Kept P) :
    (ends : List Endpoint) → (s : Scope) → P s → P (DotLang.runEnds ends s)
  | [], s, h => by
    rw [DotLang.runEnds]
    exact h
  | e :: ends, s, h => by
    rw [DotLang.runEnds]
    exact runEnds hk ends (e.run s) (endpoint hk e s h)

end

/-- What every operation keeps is true at the end of a document. -/
theorem toGraph (hk : Kept P) (d : Document) (h : P { graph := d.header.toGraph }) :
    ∃ opened, P ⟨d.toGraph, opened⟩ :=
  ⟨_, hk.runAll d.body _ h⟩

end Kept

theorem kept_wellFormed : Kept WellFormed where
  declare id h := h.declare id
  mergeNode id pairs h := h.changeNodes (fun _ hn => by rwa [Graph.hasNode_modifyNode]) rfl rfl
  connect tail head _ _ _ h := h.connect tail head _
  assign pairs target h := h.assign pairs target
  enter name h := h.enter name
  leave h := h.leave

/-- A graph without nodes and subgraphs is well formed. -/
theorem wellFormed_empty {g : Graph} (edges : g.edges = #[]) (subgraphs : g.subgraphs = []) :
    WellFormed ⟨g, []⟩ where
  ends e he := by
    rw [edges] at he
    exact absurd he (Array.not_mem_empty e)
  valid t ht := by
    rw [show (⟨g, []⟩ : Scope).graph.subgraphs = [] from subgraphs] at ht
    simp at ht
  nodup := by
    rw [show (⟨g, []⟩ : Scope).graph.subgraphs = [] from subgraphs]
    exact List.nodup_nil

end Scope

/-- The graph is well formed, no subgraph being open. -/
def Graph.WellFormed (g : Graph) : Prop := Scope.WellFormed ⟨g, []⟩

theorem Document.toGraph_wellFormed (d : Document) : d.toGraph.WellFormed := by
  obtain ⟨opened, h⟩ := Scope.kept_wellFormed.toGraph d (Scope.wellFormed_empty rfl rfl)
  exact h.close

/-- The graph of a text is that of a document. -/
theorem Graph.exists_toGraph_eq {text : String} {g : Graph} (h : Graph.ofText text = .ok g) :
    ∃ d : Document, d.toGraph = g := by
  obtain ⟨d, -, hd⟩ := exists_document h
  exact ⟨d, hd⟩

/-! ### Building -/

/-- What can be made of a builder. Subgraphs inside are built in the same way. -/
inductive Builder.Builds : Builder → Builder → Prop
  | refl (b : Builder) : Builds b b
  | addNode {b c : Builder} (n : Node) : Builds b c → Builds b (c.addNode n)
  | addEdge {b c : Builder} (tail head : String) (templates : List (Attributes .edge)) :
      Builds b c → Builds b (c.addEdge tail head templates)
  | modifyAttrs {b c : Builder} (f : Attributes .subgraph → Attributes .subgraph) :
      Builds b c → Builds b (c.modifyAttrs f)
  | modifyNode {b c : Builder} (id : String) (f : Attributes .node → Attributes .node) :
      Builds b c → Builds b { c with graph := c.graph.modifyNode id f }
  | modifyEdge {b c : Builder} (index : Nat) (f : Attributes .edge → Attributes .edge) :
      Builds b c → Builds b { c with graph := c.graph.modifyEdge index f }
  | subgraph {b c : Builder} (name : String) (build : Builder → Builder) : Builds b c →
      Builds (.start c.graph name) (build (.start c.graph name)) → Builds b (c.subgraph name build)

/-- The graphs that come about by reading and by building. -/
inductive Graph.Reachable : Graph → Prop
  | new (directed : Bool) : Reachable { directed := directed }
  | ofText {text : String} {g : Graph} : Graph.ofText text = .ok g → Reachable g
  | setHeader {g : Graph} (directed strict : Bool) (name : Option String) : Reachable g →
      Reachable { g with directed := directed, strict := strict, name := name }
  | setAttrs {g : Graph} (attrs : Attributes .graph) : Reachable g →
      Reachable { g with attrs := attrs }
  | setNodeDefaults {g : Graph} (attrs : Attributes .node) : Reachable g →
      Reachable { g with nodeDefaults := attrs }
  | setEdgeDefaults {g : Graph} (attrs : Attributes .edge) : Reachable g →
      Reachable { g with edgeDefaults := attrs }
  | addNode {g : Graph} (n : Node) : Reachable g → Reachable (g.addNode n)
  | addEdge {g : Graph} (tail head : String) (templates : List (Attributes .edge)) :
      Reachable g → Reachable (g.addEdge tail head templates)
  | modifyNode {g : Graph} (id : String) (f : Attributes .node → Attributes .node) :
      Reachable g → Reachable (g.modifyNode id f)
  | modifyEdge {g : Graph} (index : Nat) (f : Attributes .edge → Attributes .edge) :
      Reachable g → Reachable (g.modifyEdge index f)
  | subgraph {g : Graph} (name : String) (build : Builder → Builder) : Reachable g →
      Builder.Builds (.start g name) (build (.start g name)) → Reachable (g.subgraph name build)

namespace Scope.WellFormed

/-- Building a subgraph keeps the graph well formed, whatever subgraphs it is in. -/
theorem builds {b c : Builder} (h : b.Builds c) {outer : List Subgraph}
    (hb : WellFormed ⟨b.graph, b.sub :: outer⟩) : WellFormed ⟨c.graph, c.sub :: outer⟩ := by
  induction h generalizing outer with
  | refl b => exact hb
  | @addNode b c n _ ih =>
    have hg : WellFormed ⟨c.graph.addNode n, c.sub :: outer⟩ :=
      (ih hb).changeNodes (fun _ hn => Graph.hasNode_addNode.2 (.inr hn)) rfl rfl
    have hid : (c.graph.addNode n).hasNode n.id = true := Graph.hasNode_addNode.2 (.inl rfl)
    exact hg.changeSub (hg.head_valid.register hid) Subgraph.children_register
      Subgraph.edgeIndices_register
  | addEdge tail head templates _ ih => exact (ih hb).connect tail head templates
  | modifyAttrs f _ ih => exact (ih hb).changeSub ((ih hb).head_valid.changeAttrs _) rfl rfl
  | modifyNode id f _ ih =>
    exact (ih hb).changeNodes (fun _ hn => by rwa [Graph.hasNode_modifyNode]) rfl rfl
  | modifyEdge index f _ ih =>
    exact (ih hb).changeGraph Graph.grows_modifyEdge rfl
      (Graph.EndsAreNodes.modifyEdge (ih hb).ends index f)
  | subgraph name build _ _ ih ihInner =>
    -- The subgraph inside is open while it is built.
    exact (ihInner ((ih hb).enter name)).leave

end Scope.WellFormed

/-- Every graph that comes about is well formed. -/
theorem Graph.Reachable.wellFormed {g : Graph} (h : g.Reachable) : g.WellFormed := by
  induction h with
  | new directed => exact Scope.wellFormed_empty rfl rfl
  | ofText h =>
    obtain ⟨d, rfl⟩ := Graph.exists_toGraph_eq h
    exact d.toGraph_wellFormed
  | setHeader _ _ _ _ ih => exact ih.changeNodes (fun _ => id) rfl rfl
  | setAttrs _ _ ih => exact ih.changeNodes (fun _ => id) rfl rfl
  | setNodeDefaults _ _ ih => exact ih.changeNodes (fun _ => id) rfl rfl
  | setEdgeDefaults _ _ ih => exact ih.changeNodes (fun _ => id) rfl rfl
  | addNode n _ ih =>
    exact ih.changeNodes (fun _ hn => Graph.hasNode_addNode.2 (.inr hn)) rfl rfl
  | addEdge tail head templates _ ih =>
    exact ih.changeGraph Graph.grows_addEdge rfl (Graph.EndsAreNodes.addEdge ih.ends)
  | modifyNode id f _ ih =>
    exact ih.changeNodes (fun _ hn => by rwa [Graph.hasNode_modifyNode]) rfl rfl
  | modifyEdge index f _ ih =>
    exact ih.changeGraph Graph.grows_modifyEdge rfl (Graph.EndsAreNodes.modifyEdge ih.ends index f)
  | subgraph name build _ hbuild ih => exact (Scope.WellFormed.builds hbuild (ih.enter name)).leave

/-! ### Attributes -/

/-- All sets of attributes in a graph have a property. -/
structure Graph.Every (P : (o : Owner) → Attributes o → Prop) (g : Graph) : Prop where
  attrs : P .graph g.attrs
  nodeDefaults : P .node g.nodeDefaults
  edgeDefaults : P .edge g.edgeDefaults
  nodes : ∀ n ∈ g.nodes, P .node n.attrs
  edges : ∀ e ∈ g.edges, P .edge e.attrs
  subgraphs : ∀ s ∈ Subgraph.forest g.subgraphs, P .subgraph s.attrs

namespace Graph

variable {g : Graph} {id : String} {n : Node}

theorem mem_nodes : n ∈ g.nodes ↔ g.nodeMap.attrs? n.id = some n.attrs := by
  rw [nodes, NodeMap.mem_toList, NodeMap.get?_eq_some_iff]
  exact and_iff_right rfl

theorem map_id_nodes (g : Graph) : g.nodes.map Node.id = g.nodeMap.keys.toList :=
  g.nodeMap.map_id_toList

/-- A name finds the node that has it. -/
theorem node?_eq_some_iff : g.node? id = some n ↔ n ∈ g.nodes ∧ n.id = id := by
  rw [node?, NodeMap.get?_eq_some_iff, mem_nodes]
  constructor
  · rintro ⟨rfl, hattrs⟩
    exact ⟨hattrs, rfl⟩
  · rintro ⟨hattrs, rfl⟩
    exact ⟨rfl, hattrs⟩

theorem hasNode_iff : g.hasNode id = true ↔ id ∈ g.nodes.map Node.id := by
  rw [map_id_nodes, hasNode, NodeMap.contains_iff, Array.mem_toList_iff]

theorem exists_node?_of_hasNode (h : g.hasNode id = true) : ∃ n, g.node? id = some n := by
  obtain ⟨n, hn, hid⟩ := List.mem_map.1 (hasNode_iff.1 h)
  exact ⟨n, node?_eq_some_iff.2 ⟨hn, hid⟩⟩

end Graph

namespace Graph.Every

variable {P : (o : Owner) → Attributes o → Prop} {g : Graph}

/-- A property of all sets of attributes is one of those of the nodes and edges that there
    are. -/
theorem iff_forall : g.Every P ↔ P .graph g.attrs ∧ P .node g.nodeDefaults ∧
    P .edge g.edgeDefaults ∧ (∀ n ∈ g.nodes, P .node n.attrs) ∧
    (∀ e ∈ g.edges.toList, P .edge e.attrs) ∧
    ∀ s ∈ Subgraph.forest g.subgraphs, P .subgraph s.attrs := by
  constructor
  · intro h
    exact ⟨h.attrs, h.nodeDefaults, h.edgeDefaults, h.nodes,
      fun e he => h.edges e (by simpa using he), h.subgraphs⟩
  · rintro ⟨hattrs, hnode, hedge, hnodes, hedges, hsubs⟩
    exact ⟨hattrs, hnode, hedge, hnodes, fun e he => hedges e (by simpa using he), hsubs⟩

instance [∀ o a, Decidable (P o a)] : Decidable (g.Every P) := decidable_of_iff _ iff_forall.symm

theorem attrs_of_attrs? (h : g.Every P) {id : String} {a : Attributes .node}
    (ha : g.nodeMap.attrs? id = some a) : P .node a :=
  h.nodes ⟨id, a⟩ (mem_nodes.2 ha)

theorem declareNode (h : g.Every P) (id : String) {template : Attributes .node}
    (ht : P .node template) : (g.declareNode id template).Every P where
  attrs := h.attrs
  nodeDefaults := h.nodeDefaults
  edgeDefaults := h.edgeDefaults
  nodes := NodeMap.forall_toList.2 <|
    OrderedMap.forall_insertIfNew (NodeMap.forall_toList.1 h.nodes) ht
  edges := h.edges
  subgraphs := h.subgraphs

theorem modifyNode (h : g.Every P) (id : String) {f : Attributes .node → Attributes .node}
    (hf : ∀ a, P .node a → P .node (f a)) : (g.modifyNode id f).Every P where
  attrs := h.attrs
  nodeDefaults := h.nodeDefaults
  edgeDefaults := h.edgeDefaults
  nodes := NodeMap.forall_toList.2 <|
    OrderedMap.forall_modify (NodeMap.forall_toList.1 h.nodes) fun n => hf n.attrs
  edges := h.edges
  subgraphs := h.subgraphs

theorem addEdge (h : g.Every P) (empty : P .node ∅)
    (merge : ∀ a b : Attributes .edge, P .edge a → P .edge b → P .edge (a.merge b))
    (tail head : String) {templates : List (Attributes .edge)} (ht : ∀ a ∈ templates, P .edge a) :
    (g.addEdge tail head templates).Every P := by
  have hg : ((g.declareNode tail ∅).declareNode head ∅).Every P :=
    (h.declareNode tail empty).declareNode head empty
  have hnew : ∀ d, P .edge d → P .edge (templates.foldl Attributes.merge d) := by
    induction templates with
    | nil => exact fun _ => id
    | cons a templates ih =>
      intro d hd
      exact ih (fun b hb => ht b (List.mem_cons_of_mem _ hb)) _
        (merge d a hd (ht a List.mem_cons_self))
  refine ⟨hg.attrs, hg.nodeDefaults, hg.edgeDefaults, hg.nodes, ?_, hg.subgraphs⟩
  intro e he
  rw [edges_addEdge, Array.mem_push] at he
  rcases he with he | rfl
  · exact h.edges e he
  · exact hnew _ h.edgeDefaults

end Graph.Every

/-- A property of sets of attributes that reading a document keeps. -/
structure Attributes.Kept (P : (o : Owner) → Attributes o → Prop) : Prop where
  empty (o : Owner) : P o ∅
  assign {o : Owner} {a : Attributes o} (key text : String) : P o a → P o (a.assign key text)
  merge {o : Owner} {a b : Attributes o} : P o a → P o b → P o (a.merge b)
  ports (l r : Endpoint) : P .edge (Scope.portAttrs l r)

namespace Attributes.Kept

variable {P : (o : Owner) → Attributes o → Prop}

theorem assignAll (hP : Kept P) {o : Owner} {a : Attributes o} (h : P o a) (pairs : Assignments) :
    P o (a.assignAll pairs) := by
  induction pairs generalizing a with
  | nil => exact h
  | cons e pairs ih => exact ih (hP.assign e.1 e.2 h)

end Attributes.Kept

/-- All sets of attributes in a graph and in the open subgraphs have a property. -/
def Scope.Every (P : (o : Owner) → Attributes o → Prop) (s : Scope) : Prop :=
  s.graph.Every P ∧ ∀ t ∈ Subgraph.forest s.opened, P .subgraph t.attrs

namespace Scope.Every

variable {P : (o : Owner) → Attributes o → Prop} {g g' : Graph} {sub sub' parent : Subgraph}
  {outer : List Subgraph}

/-- The innermost open subgraph may change in its nodes and edges. -/
theorem changeHead (h : Every P ⟨g, sub :: outer⟩) (hg : g'.Every P)
    (hc : sub'.children = sub.children) (ha : sub'.attrs = sub.attrs) :
    Every P ⟨g', sub' :: outer⟩ := by
  obtain ⟨htree, houter⟩ := Subgraph.forall_forest_cons.1 h.2
  obtain ⟨hchildren, hsub⟩ := Subgraph.forall_tree.1 htree
  refine ⟨hg, Subgraph.forall_forest_cons.2 ⟨Subgraph.forall_tree.2 ⟨?_, ?_⟩, houter⟩⟩
  · rwa [hc]
  · rwa [ha]

theorem declare {s : Scope} (h : s.Every P) (id : String) : (s.declare id).Every P := by
  obtain ⟨g, opened⟩ := s
  have hg := h.1.declareNode id h.1.nodeDefaults
  cases opened with
  | nil => exact ⟨hg, h.2⟩
  | cons sub outer => exact h.changeHead hg Subgraph.children_register Subgraph.attrs_register

theorem connect (hP : Attributes.Kept P) {s : Scope} (h : s.Every P) (tail head : String)
    {templates : List (Attributes .edge)} (ht : ∀ a ∈ templates, P .edge a) :
    (s.connect tail head templates).Every P := by
  obtain ⟨g, opened⟩ := s
  have hg : (g.addEdge tail head templates).Every P :=
    h.1.addEdge (hP.empty _) (fun _ _ => hP.merge) tail head ht
  cases opened with
  | nil => exact ⟨hg, h.2⟩
  | cons sub outer =>
    have attrs_adopt : ∀ s id, (Builder.adopt s id).attrs = s.attrs := by
      intro s id
      rw [Builder.adopt]
      split
      · rfl
      · exact Subgraph.attrs_register
    refine h.changeHead hg ?_ ?_
    · show (Builder.adopt (Builder.adopt sub tail) head).children = _
      rw [Builder.children_adopt, Builder.children_adopt]
    · show (Builder.adopt (Builder.adopt sub tail) head).attrs = _
      rw [attrs_adopt, attrs_adopt]

theorem assign (hP : Attributes.Kept P) {s : Scope} (h : s.Every P) (pairs : Assignments)
    (target : Target) : (s.assign pairs target).Every P := by
  obtain ⟨g, opened⟩ := s
  cases target with
  | nodes => exact ⟨{ h.1 with nodeDefaults := hP.assignAll h.1.nodeDefaults pairs }, h.2⟩
  | edges => exact ⟨{ h.1 with edgeDefaults := hP.assignAll h.1.edgeDefaults pairs }, h.2⟩
  | scope =>
    cases opened with
    | nil => exact ⟨{ h.1 with attrs := hP.assignAll h.1.attrs pairs }, h.2⟩
    | cons sub outer =>
      obtain ⟨htree, houter⟩ := Subgraph.forall_forest_cons.1 h.2
      obtain ⟨hchildren, hsub⟩ := Subgraph.forall_tree.1 htree
      exact ⟨h.1, Subgraph.forall_forest_cons.2
        ⟨Subgraph.forall_tree.2 ⟨hchildren, hP.assignAll hsub pairs⟩, houter⟩⟩

theorem enter (hP : Attributes.Kept P) {s : Scope} (h : s.Every P) (name : String) :
    (s.enter name).Every P :=
  ⟨h.1, Subgraph.forall_forest_cons.2
    ⟨Subgraph.forall_tree.2 ⟨Subgraph.forall_forest_nil, hP.empty _⟩, h.2⟩⟩

/-- A subgraph that is left goes into the graph or into the one around it. -/
theorem leave {s : Scope} (h : s.Every P) : s.leave.Every P := by
  obtain ⟨g, opened⟩ := s
  match opened with
  | [] => exact h
  | [sub] =>
    have subgraphs : ∀ t ∈ Subgraph.forest (g.subgraphs ++ [sub]), P .subgraph t.attrs := by
      rw [Subgraph.forest_append, List.forall_mem_append]
      exact ⟨h.1.subgraphs, h.2⟩
    exact ⟨{ h.1 with subgraphs := subgraphs }, Subgraph.forall_forest_nil⟩
  | sub :: parent :: outer =>
    obtain ⟨hsub, hopened⟩ := Subgraph.forall_forest_cons.1 h.2
    obtain ⟨hparent, houter⟩ := Subgraph.forall_forest_cons.1 hopened
    obtain ⟨hchildren, hattrs⟩ := Subgraph.forall_tree.1 hparent
    have children : ∀ t ∈ Subgraph.forest (parent.children ++ [sub]), P .subgraph t.attrs := by
      rw [Subgraph.forest_append, List.forall_mem_append]
      exact ⟨hchildren, Subgraph.forall_forest_cons.2 ⟨hsub, Subgraph.forall_forest_nil⟩⟩
    exact ⟨h.1, Subgraph.forall_forest_cons.2
      ⟨Subgraph.forall_tree.2 ⟨children, hattrs⟩, houter⟩⟩

end Scope.Every

namespace Attributes.Kept

variable {P : (o : Owner) → Attributes o → Prop}

/-- What reading keeps of sets of attributes, every operation keeps of all of them. -/
theorem scope (hP : Kept P) : Scope.Kept (Scope.Every P) where
  declare id h := h.declare id
  mergeNode id pairs h :=
    ⟨h.1.modifyNode id fun _ ha => hP.merge ha (hP.assignAll (hP.empty _) pairs), h.2⟩
  connect tail head l r pairs h :=
    h.connect hP tail head (List.forall_mem_cons.2
      ⟨hP.ports l r, List.forall_mem_singleton.2 (hP.assignAll (hP.empty _) pairs)⟩)
  assign pairs target h := h.assign hP pairs target
  enter name h := h.enter hP name
  leave h := h.leave

/-- What reading keeps is true of all attributes of a graph that has been read. -/
theorem every_of_ofText (hP : Kept P) {text : String} {g : Graph}
    (h : Graph.ofText text = .ok g) : g.Every P := by
  obtain ⟨d, rfl⟩ := Graph.exists_toGraph_eq h
  have start : d.header.toGraph.Every P := by
    exact ⟨hP.empty _, hP.empty _, hP.empty _, fun n hn => absurd hn List.not_mem_nil,
      fun e he => absurd he (Array.not_mem_empty e), Subgraph.forall_forest_nil⟩
  obtain ⟨opened, hd⟩ := hP.scope.toGraph d ⟨start, Subgraph.forall_forest_nil⟩
  exact hd.1

theorem proper : Kept fun _ a => a.Proper where
  empty _ := proper_empty
  assign key text h := h.assign key text
  merge h h' := h.merge h'
  ports l r := by
    have port : ∀ (e : Endpoint) {a : Attributes .edge} (key : String), a.Proper →
        Owner.edge.typeOf? key = none → (e.port.elim a (a.putCustom key)).Proper := by
      intro e a key ha ht
      cases e.port with
      | none => exact ha
      | some text => exact ha.putCustom ht text
    exact port r _ (port l _ proper_empty (by decide)) (by decide)

end Attributes.Kept

/-- All sets of attributes in a graph are proper. -/
def Graph.Proper (g : Graph) : Prop := g.Every fun _ a => a.Proper

/-- The attributes that reading makes are proper. -/
theorem Graph.proper_of_ofText {text : String} {g : Graph} (h : Graph.ofText text = .ok g) :
    g.Proper :=
  Attributes.Kept.proper.every_of_ofText h

end DotLang
