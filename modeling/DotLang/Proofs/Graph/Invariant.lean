import DotLang.Graph.OfText
import DotLang.Proofs.Graph.Forest

/-!
# Well-formed graphs

A graph that has come about by reading or by building is well formed: the ends of
its edges are nodes, its subgraphs name nodes and edges that there are, the ends
of an edge are in the subgraph that it was made in, and no edge was made in two
subgraphs.

The subgraphs that are open count as well. So this is said of a graph on the way,
and every operation keeps it.

* `Scope.WellFormed`: the invariant;
* `Scope.Kept.runAll`: what the operations keep, a document keeps;
* `Graph.Reachable.wellFormed`: every graph is well formed that is reached by
  reading and by building.
-/

namespace DotLang

/-! ### What stays in a graph -/

namespace Graph

variable {g g' : Graph} {id other tail head : String} {templates : List (Attributes .edge)}

theorem hasNode_declareNode {template : Attributes .node} :
    (g.declareNode id template).hasNode other = true ↔ other = id ∨ g.hasNode other = true :=
  NodeMap.contains_declare

@[simp] theorem hasNode_modifyNode {f : Attributes .node → Attributes .node} :
    (g.modifyNode id f).hasNode other = g.hasNode other :=
  g.nodeMap.contains_modify id other f

theorem hasNode_addNode {n : Node} :
    (g.addNode n).hasNode other = true ↔ other = n.id ∨ g.hasNode other = true :=
  NodeMap.contains_insert

theorem hasNode_addEdge : (g.addEdge tail head templates).hasNode other = true ↔
    other = head ∨ other = tail ∨ g.hasNode other = true := by
  show ((g.declareNode tail ∅).declareNode head ∅).hasNode other = true ↔ _
  rw [hasNode_declareNode, hasNode_declareNode]

theorem edges_addEdge : (g.addEdge tail head templates).edges =
    g.edges.push ⟨tail, head, g.newEdgeAttrs templates⟩ :=
  rfl

/-- The nodes of a graph are nodes of another, and its edges have the same ends
    there. -/
structure Grows (g g' : Graph) : Prop where
  nodes : ∀ id, g.hasNode id = true → g'.hasNode id = true
  edges : ∀ (i : Nat) (e : Edge), g.edges[i]? = some e →
    ∃ e' : Edge, g'.edges[i]? = some e' ∧ e'.tail = e.tail ∧ e'.head = e.head

/-- A graph with the same edges grows if it has the same nodes, or more. -/
theorem Grows.of_edges_eq (nodes : ∀ id, g.hasNode id = true → g'.hasNode id = true)
    (edges : g'.edges = g.edges) : g.Grows g' where
  nodes := nodes
  edges i e he := ⟨e, by rw [edges, he], rfl, rfl⟩

theorem grows_addEdge : g.Grows (g.addEdge tail head templates) where
  nodes id h := hasNode_addEdge.2 (.inr (.inr h))
  edges i e he := by
    refine ⟨e, ?_, rfl, rfl⟩
    obtain ⟨hi, -⟩ := Array.getElem?_eq_some_iff.1 he
    rw [edges_addEdge, Array.getElem?_push_lt (by omega)]
    rw [Array.getElem?_eq_getElem hi] at he
    exact he

theorem grows_modifyEdge {index : Nat} {f : Attributes .edge → Attributes .edge} :
    g.Grows (g.modifyEdge index f) where
  nodes id h := h
  edges i e he := by
    show ∃ e', (g.edges.modify index _)[i]? = some e' ∧ _
    rw [Array.getElem?_modify, he]
    split
    · exact ⟨_, rfl, rfl, rfl⟩
    · exact ⟨e, rfl, rfl, rfl⟩

/-- The ends of every edge are nodes. -/
def EndsAreNodes (g : Graph) : Prop :=
  ∀ e ∈ g.edges, g.hasNode e.tail = true ∧ g.hasNode e.head = true

theorem EndsAreNodes.addEdge (h : g.EndsAreNodes) :
    (g.addEdge tail head templates).EndsAreNodes := by
  intro e he
  rw [edges_addEdge, Array.mem_push] at he
  rcases he with he | rfl
  · obtain ⟨ht, hh⟩ := h e he
    exact ⟨hasNode_addEdge.2 (.inr (.inr ht)), hasNode_addEdge.2 (.inr (.inr hh))⟩
  · exact ⟨hasNode_addEdge.2 (.inr (.inl rfl)), hasNode_addEdge.2 (.inl rfl)⟩

theorem EndsAreNodes.modifyEdge (h : g.EndsAreNodes) (index : Nat)
    (f : Attributes .edge → Attributes .edge) : (g.modifyEdge index f).EndsAreNodes := by
  intro e he
  obtain ⟨i, hi⟩ := Array.mem_iff_getElem?.1 he
  have hi : (g.edges.modify index fun e => { e with attrs := f e.attrs })[i]? = some e := hi
  rw [Array.getElem?_modify] at hi
  split at hi
  · obtain ⟨e', he', rfl⟩ := Option.map_eq_some_iff.1 hi
    exact h e' (Array.mem_of_getElem? he')
  · exact h e (Array.mem_of_getElem? hi)

end Graph

/-! ### Subgraphs of a graph -/

namespace Subgraph

variable {g g' : Graph} {s s' : Subgraph} {id other : String}

/-- What a subgraph says about a graph is so: its nodes are nodes, none of them
    declared twice, and its edges are edges, both ends of which are in it. -/
structure Valid (g : Graph) (s : Subgraph) : Prop where
  nodup : s.nodeIds.toList.Nodup
  nodes : ∀ id ∈ s.nodeIds, g.hasNode id = true
  edges : ∀ i ∈ s.edgeIndices, ∃ e, g.edges[i]? = some e ∧
    s.containsNode e.tail = true ∧ s.containsNode e.head = true

theorem Valid.mono (h : s.Valid g) (hg : g.Grows g') : s.Valid g' where
  nodup := h.nodup
  nodes id hid := hg.nodes id (h.nodes id hid)
  edges i hi := by
    obtain ⟨e, he, htail, hhead⟩ := h.edges i hi
    obtain ⟨e', he', ht, hh⟩ := hg.edges i e he
    exact ⟨e', he', by rwa [ht], by rwa [hh]⟩

theorem containsNode_mono (hc : ∀ t ∈ forest s.children, t ∈ forest s'.children)
    (hn : ∀ id ∈ s.nodeIds, id ∈ s'.nodeIds) (h : s.containsNode id = true) :
    s'.containsNode id = true := by
  obtain ⟨t, ht, hid⟩ := (containsNode_iff id s).1 h
  refine (containsNode_iff id s').2 ?_
  rcases mem_tree.1 ht with ht | rfl
  · exact ⟨t, mem_tree.2 (.inl (hc t ht)), hid⟩
  · exact ⟨s', mem_tree_self s', hn id hid⟩

theorem containsNode_of_mem (h : id ∈ s.nodeIds) : s.containsNode id = true :=
  (containsNode_iff id s).2 ⟨s, mem_tree_self s, h⟩

theorem mem_addMember {members : Array String} :
    other ∈ addMember members id ↔ other ∈ members ∨ other = id := by
  rw [addMember]
  split
  · next h =>
    rw [Array.contains_iff_mem] at h
    constructor
    · exact .inl
    · rintro (h' | rfl)
      · exact h'
      · exact h
  · exact Array.mem_push

/-- No member is added twice. -/
theorem nodup_addMember {members : Array String} (h : members.toList.Nodup) :
    (addMember members id).toList.Nodup := by
  rw [addMember]
  split
  · exact h
  · next hn =>
    rw [Array.contains_iff_mem] at hn
    rw [Array.toList_push]
    refine List.nodup_append.2 ⟨h, List.pairwise_singleton _ id, ?_⟩
    intro a ha b hb hab
    rw [List.mem_singleton.1 hb] at hab
    exact hn (by simpa [hab] using ha)

theorem nodeIds_register : (s.register id).nodeIds = addMember s.nodeIds id := by
  rw [register, addMember]
  split <;> rfl

theorem mem_nodeIds_register :
    other ∈ (s.register id).nodeIds ↔ other ∈ s.nodeIds ∨ other = id := by
  rw [nodeIds_register]
  exact mem_addMember

@[simp] theorem children_register : (s.register id).children = s.children := by
  rw [register]
  split <;> rfl

@[simp] theorem attrs_register : (s.register id).attrs = s.attrs := by
  rw [register]
  split <;> rfl

@[simp] theorem edgeIndices_register : (s.register id).edgeIndices = s.edgeIndices := by
  rw [register]
  split <;> rfl

theorem Valid.register (h : s.Valid g) (hid : g.hasNode id = true) :
    (s.register id).Valid g where
  nodup := by
    rw [nodeIds_register]
    exact nodup_addMember h.nodup
  nodes other ho := by
    rcases mem_nodeIds_register.1 ho with ho | rfl
    · exact h.nodes other ho
    · exact hid
  edges i hi := by
    rw [edgeIndices_register] at hi
    obtain ⟨e, he, ht, hh⟩ := h.edges i hi
    have mono : ∀ x, s.containsNode x = true → (s.register id).containsNode x = true := fun x =>
      containsNode_mono (by simp) fun y hy => mem_nodeIds_register.2 (.inl hy)
    exact ⟨e, he, mono _ ht, mono _ hh⟩

theorem Valid.changeAttrs (h : s.Valid g) (attrs : Attributes .subgraph) :
    ({ s with attrs := attrs } : Subgraph).Valid g where
  nodup := h.nodup
  nodes := h.nodes
  edges i hi := by
    obtain ⟨e, he, ht, hh⟩ := h.edges i hi
    have mono : ∀ x, s.containsNode x = true →
        ({ s with attrs := attrs } : Subgraph).containsNode x = true := fun x =>
      containsNode_mono (fun _ => id) fun _ => id
    exact ⟨e, he, mono _ ht, mono _ hh⟩

theorem Valid.recordEdge (h : s.Valid g) {index : Nat} {e : Edge}
    (he : g.edges[index]? = some e) (ht : s.containsNode e.tail = true)
    (hh : s.containsNode e.head = true) : (s.recordEdge index).Valid g where
  nodup := h.nodup
  nodes := h.nodes
  edges i hi := by
    have mono : ∀ x, s.containsNode x = true → (s.recordEdge index).containsNode x = true :=
      fun x => containsNode_mono (fun _ => id) fun _ => id
    rcases Array.mem_push.1 hi with hi | rfl
    · obtain ⟨e', he', ht', hh'⟩ := h.edges i hi
      exact ⟨e', he', mono _ ht', mono _ hh'⟩
    · exact ⟨e, he, mono _ ht, mono _ hh⟩

theorem Valid.addChild (h : s.Valid g) (child : Subgraph) : (s.addChild child).Valid g where
  nodup := h.nodup
  nodes := h.nodes
  edges i hi := by
    have mono : ∀ x, s.containsNode x = true → (s.addChild child).containsNode x = true := by
      refine fun x => containsNode_mono (fun t ht => ?_) fun _ => id
      show t ∈ forest (s.children ++ [child])
      rw [forest_append]
      exact List.mem_append_left _ ht
    obtain ⟨e, he, ht, hh⟩ := h.edges i hi
    exact ⟨e, he, mono _ ht, mono _ hh⟩

end Subgraph

namespace Builder

open Subgraph

variable {g : Graph} {s : Subgraph} {id other : String}

@[simp] theorem children_adopt : (adopt s id).children = s.children := by
  rw [adopt]
  split
  · rfl
  · exact children_register

@[simp] theorem edgeIndices_adopt : (adopt s id).edgeIndices = s.edgeIndices := by
  rw [adopt]
  split
  · rfl
  · exact edgeIndices_register

theorem mem_nodeIds_adopt (h : other ∈ s.nodeIds) : other ∈ (adopt s id).nodeIds := by
  rw [adopt]
  split
  · exact h
  · exact mem_nodeIds_register.2 (.inl h)

/-- What is adopted is in the subgraph. -/
theorem containsNode_adopt_self : (adopt s id).containsNode id = true := by
  rw [adopt]
  split
  · next h => exact h
  · exact containsNode_of_mem (mem_nodeIds_register.2 (.inr rfl))

theorem containsNode_adopt (h : s.containsNode other = true) :
    (adopt s id).containsNode other = true :=
  containsNode_mono (by simp) (fun _ => mem_nodeIds_adopt) h

theorem valid_adopt (h : s.Valid g) (hid : g.hasNode id = true) : (adopt s id).Valid g := by
  rw [adopt]
  split
  · exact h
  · exact h.register hid

end Builder

/-! ### The invariant -/

namespace Scope

open Subgraph

/-- A graph on the way and its open subgraphs are well formed. -/
structure WellFormed (s : Scope) : Prop where
  ends : s.graph.EndsAreNodes
  valid : ∀ t ∈ forest (s.graph.subgraphs ++ s.opened), t.Valid s.graph
  nodup : (recorded (s.graph.subgraphs ++ s.opened)).Nodup

namespace WellFormed

variable {g g' : Graph} {sub sub' : Subgraph} {opened outer : List Subgraph}

/-- The graph may change as long as its nodes and edges stay. -/
theorem changeGraph (h : WellFormed ⟨g, opened⟩) (hg : g.Grows g')
    (hs : g'.subgraphs = g.subgraphs) (ends : g'.EndsAreNodes) : WellFormed ⟨g', opened⟩ where
  ends := ends
  valid t ht := by
    refine (h.valid t ?_).mono hg
    show t ∈ forest (g.subgraphs ++ opened)
    rwa [← hs]
  nodup := by
    show (recorded (g'.subgraphs ++ opened)).Nodup
    rw [hs]
    exact h.nodup

/-- A graph with the same edges is well formed if it has the same nodes, or more. -/
theorem changeNodes (h : WellFormed ⟨g, opened⟩)
    (nodes : ∀ id, g.hasNode id = true → g'.hasNode id = true) (edges : g'.edges = g.edges)
    (hs : g'.subgraphs = g.subgraphs) : WellFormed ⟨g', opened⟩ := by
  refine h.changeGraph (.of_edges_eq nodes edges) hs fun e he => ?_
  rw [edges] at he
  obtain ⟨ht, hh⟩ := h.ends e he
  exact ⟨nodes _ ht, nodes _ hh⟩

/-- The innermost open subgraph may change, and record edges that no subgraph has
    recorded. -/
theorem changeHead (h : WellFormed ⟨g, sub :: outer⟩) (new : List Nat) (hv : sub'.Valid g)
    (hc : sub'.children = sub.children)
    (he : sub'.edgeIndices.toList = sub.edgeIndices.toList ++ new) (hn : new.Nodup)
    (fresh : ∀ i ∈ new, i ∉ recorded (g.subgraphs ++ sub :: outer)) :
    WellFormed ⟨g, sub' :: outer⟩ where
  ends := h.ends
  valid := forall_forest_change h.valid hc hv
  nodup := by
    -- What is new has been put behind the edges of one subgraph, between others.
    have perm : (recorded (g.subgraphs ++ sub' :: outer)).Perm
        (new ++ recorded (g.subgraphs ++ sub :: outer)) := by
      simpa only [recorded_append, recorded_cons, hc, he, List.append_assoc] using
        List.perm_append_comm_assoc
          (recorded g.subgraphs ++ (recorded sub.children ++ sub.edgeIndices.toList)) new
          (recorded outer)
    refine perm.nodup_iff.2 (List.nodup_append.2 ⟨hn, h.nodup, ?_⟩)
    rintro i hi j hj rfl
    exact fresh i hi hj

/-- The innermost open subgraph may change and record nothing new. -/
theorem changeSub (h : WellFormed ⟨g, sub :: outer⟩) (hv : sub'.Valid g)
    (hc : sub'.children = sub.children) (he : sub'.edgeIndices = sub.edgeIndices) :
    WellFormed ⟨g, sub' :: outer⟩ :=
  h.changeHead [] hv hc (by rw [he, List.append_nil]) List.nodup_nil nofun

theorem head_valid (h : WellFormed ⟨g, sub :: outer⟩) : sub.Valid g := by
  refine h.valid sub ?_
  rw [forest_append, forest_cons]
  exact List.mem_append_right _ (List.mem_append_left _ (mem_tree_self sub))

/-- An edge that is not there yet is recorded nowhere. -/
theorem not_recorded (h : WellFormed ⟨g, opened⟩) :
    g.numEdges ∉ recorded (g.subgraphs ++ opened) := by
  intro hi
  obtain ⟨t, ht, hi⟩ := mem_recorded.1 hi
  obtain ⟨e, he, -⟩ := (h.valid t ht).edges _ hi
  obtain ⟨hlt, -⟩ := Array.getElem?_eq_some_iff.1 he
  exact Nat.lt_irrefl _ hlt

theorem declare {s : Scope} (h : s.WellFormed) (id : String) : (s.declare id).WellFormed := by
  obtain ⟨g, opened⟩ := s
  have hg : WellFormed ⟨g.declareNode id g.nodeDefaults, opened⟩ :=
    h.changeNodes (fun _ hn => Graph.hasNode_declareNode.2 (.inr hn)) rfl rfl
  cases opened with
  | nil => exact hg
  | cons sub outer =>
    have hid : (g.declareNode id g.nodeDefaults).hasNode id = true :=
      Graph.hasNode_declareNode.2 (.inl rfl)
    exact hg.changeSub (hg.head_valid.register hid) children_register edgeIndices_register

theorem connect {s : Scope} (h : s.WellFormed) (tail head : String)
    (templates : List (Attributes .edge)) : (s.connect tail head templates).WellFormed := by
  obtain ⟨g, opened⟩ := s
  have hg : WellFormed ⟨g.addEdge tail head templates, opened⟩ :=
    h.changeGraph Graph.grows_addEdge rfl (Graph.EndsAreNodes.addEdge h.ends)
  cases opened with
  | nil => exact hg
  | cons sub outer =>
    -- The ends are adopted, so that the new edge can be recorded.
    have ht : (g.addEdge tail head templates).hasNode tail = true :=
      Graph.hasNode_addEdge.2 (.inr (.inl rfl))
    have hh : (g.addEdge tail head templates).hasNode head = true :=
      Graph.hasNode_addEdge.2 (.inl rfl)
    have hv := Builder.valid_adopt (Builder.valid_adopt hg.head_valid ht) hh
    have he : (g.addEdge tail head templates).edges[g.numEdges]? =
        some ⟨tail, head, g.newEdgeAttrs templates⟩ := by
      rw [Graph.edges_addEdge]
      exact Array.getElem?_push_size
    refine hg.changeHead [g.numEdges]
      (hv.recordEdge he (Builder.containsNode_adopt Builder.containsNode_adopt_self)
        Builder.containsNode_adopt_self) ?_ ?_ (List.pairwise_singleton _ _) ?_
    · show (Builder.adopt (Builder.adopt sub tail) head).children = _
      rw [Builder.children_adopt, Builder.children_adopt]
    · show ((Builder.adopt (Builder.adopt sub tail) head).edgeIndices.push g.numEdges).toList = _
      rw [Builder.edgeIndices_adopt, Builder.edgeIndices_adopt, Array.toList_push]
    · intro i hi
      rw [List.mem_singleton.1 hi]
      exact h.not_recorded

theorem assign {s : Scope} (h : s.WellFormed) (pairs : Assignments) (target : Target) :
    (s.assign pairs target).WellFormed := by
  obtain ⟨g, opened⟩ := s
  cases target with
  | nodes => exact h.changeNodes (fun _ => id) rfl rfl
  | edges => exact h.changeNodes (fun _ => id) rfl rfl
  | scope =>
    cases opened with
    | nil => exact h.changeNodes (fun _ => id) rfl rfl
    | cons sub outer => exact h.changeSub (h.head_valid.changeAttrs _) rfl rfl

theorem enter {s : Scope} (h : s.WellFormed) (name : String) : (s.enter name).WellFormed where
  ends := h.ends
  valid := forall_forest_insert h.valid rfl ⟨List.nodup_nil, by simp, by simp⟩
  nodup := by
    have h := h.nodup
    rw [recorded_append] at h
    show (recorded (s.graph.subgraphs ++ { name := name } :: s.opened)).Nodup
    rw [recorded_append, recorded_cons, recorded_nil]
    exact h

theorem leave {s : Scope} (h : s.WellFormed) : s.leave.WellFormed := by
  obtain ⟨g, opened⟩ := s
  match opened with
  | [] => exact h
  | [sub] =>
    refine ⟨h.ends, ?_, ?_⟩
    · intro t ht
      have ht : t ∈ forest (g.subgraphs ++ [sub] ++ []) := ht
      rw [List.append_nil] at ht
      have hv := h.valid t ht
      exact ⟨hv.nodup, hv.nodes, hv.edges⟩
    · show (recorded (g.subgraphs ++ [sub] ++ [])).Nodup
      rw [List.append_nil]
      exact h.nodup
  | sub :: parent :: outer =>
    have parent_valid : parent.Valid g := by
      refine h.valid parent ?_
      simp [forest_append, mem_tree_self]
    refine ⟨h.ends, forall_forest_addChild h.valid (parent_valid.addChild sub), ?_⟩
    -- The subgraph has moved behind those that are in its parent already.
    have hc : (parent.addChild sub).children = parent.children ++ [sub] := rfl
    have he : (parent.addChild sub).edgeIndices = parent.edgeIndices := rfl
    have perm : (recorded (g.subgraphs ++ parent.addChild sub :: outer)).Perm
        (recorded (g.subgraphs ++ sub :: parent :: outer)) := by
      simp only [recorded_append, recorded_cons, hc, he, recorded_nil, List.append_nil,
        List.append_assoc]
      refine List.Perm.append_left _ ?_
      simpa only [List.append_assoc] using List.perm_append_comm_assoc (recorded parent.children)
        (recorded sub.children ++ sub.edgeIndices.toList)
        (parent.edgeIndices.toList ++ recorded outer)
    exact perm.nodup_iff.2 h.nodup

/-- Subgraphs that are still open may be left out. -/
theorem close {s : Scope} (h : s.WellFormed) : WellFormed ⟨s.graph, []⟩ where
  ends := h.ends
  valid t ht := by
    refine h.valid t ?_
    rw [forest_append] at ht ⊢
    exact List.mem_append_left _ (by simpa using ht)
  nodup := by
    have h := h.nodup
    rw [recorded_append] at h
    show (recorded (s.graph.subgraphs ++ [])).Nodup
    rw [List.append_nil]
    exact (List.nodup_append.1 h).1

end WellFormed

end Scope

end DotLang
