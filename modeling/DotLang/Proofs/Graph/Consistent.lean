import DotLang.Proofs.Graph.Steps
import DotLang.Proofs.Listing.Reread

/-!
# Consistent graphs

A graph holds its nodes by name, its edges in a list, and a tree of subgraphs that
name nodes and count edges. However a graph has come about, these say the same: names
are nodes, counted edges are edges with both ends in the subgraph that counts them, and
no edge is counted twice. While a subgraph is built or its braces are read, this is
already so of all that is open.

* `Graph.Consistent`: what the parts of a graph say of each other;
* `Scope.Increasing.step`: every step keeps the places of edges in their order;
* `Graph.Reachable.consistent`: every graph that can be reached is consistent.
-/

namespace DotLang

open Subgraph

/-! ### The order of edges -/

/-- The places of the edges of a subgraph stand in their order, and all of them are
    places of so many edges. -/
def Subgraph.Increasing (n : Nat) (s : Subgraph) : Prop :=
  (s.edgeIndices.toList ++ [n]).Pairwise (· < ·)

namespace Subgraph.Increasing

variable {m n : Nat} {s s' : Subgraph}

theorem iff_lt : s.Increasing n ↔
    s.edgeIndices.toList.Pairwise (· < ·) ∧ ∀ i ∈ s.edgeIndices, i < n := by
  simp [Increasing, List.pairwise_append]

/-- A subgraph may change in everything but its edges. -/
theorem congr (h : s.Increasing n) (he : s'.edgeIndices = s.edgeIndices) : s'.Increasing n := by
  rwa [Increasing, he]

/-- There may be more edges than before. -/
theorem mono (h : s.Increasing n) (hle : n ≤ m) : s.Increasing m := by
  obtain ⟨sorted, below⟩ := iff_lt.1 h
  exact iff_lt.2 ⟨sorted, fun i hi => Nat.lt_of_lt_of_le (below i hi) hle⟩

/-- The next edge comes behind those that have been noted. -/
theorem push (h : s.Increasing n) (he : s'.edgeIndices = s.edgeIndices.push n) :
    s'.Increasing (n + 1) := by
  rw [iff_lt, he, Array.toList_push]
  refine ⟨h, fun i hi => ?_⟩
  rcases Array.mem_push.1 hi with hi | rfl
  · exact Nat.lt_succ_of_lt ((iff_lt.1 h).2 i hi)
  · exact Nat.lt_succ_self i

end Subgraph.Increasing

/-- The places of edges stand in their order, in all subgraphs of a graph on the way and
    in those that are open. -/
def Scope.Increasing (s : Scope) : Prop :=
  ∀ t ∈ forest (s.graph.subgraphs ++ s.opened), t.Increasing s.graph.numEdges

namespace Scope.Increasing

variable {g g' : Graph} {sub sub' : Subgraph} {opened outer : List Subgraph} {s s' : Scope}

/-- The graph may change in everything but its subgraphs, and get more edges. -/
theorem changeGraph (h : Increasing ⟨g, opened⟩) (edges : g.numEdges ≤ g'.numEdges)
    (subgraphs : g'.subgraphs = g.subgraphs) : Increasing ⟨g', opened⟩ := by
  intro t ht
  have ht : t ∈ forest (g'.subgraphs ++ opened) := ht
  rw [subgraphs] at ht
  exact (h t ht).mono edges

theorem head (h : Increasing ⟨g, sub :: outer⟩) : sub.Increasing g.numEdges := by
  refine h sub ?_
  rw [forest_append, forest_cons]
  exact List.mem_append_right _ (List.mem_append_left _ (mem_tree_self sub))

/-- The innermost open subgraph may change in itself. -/
theorem changeHead (h : Increasing ⟨g, sub :: outer⟩) (hc : sub'.children = sub.children)
    (hsub : sub'.Increasing g.numEdges) : Increasing ⟨g, sub' :: outer⟩ :=
  forall_forest_change h hc hsub

theorem declare (h : s.Increasing) (id : String) : (s.declare id).Increasing := by
  obtain ⟨g, opened⟩ := s
  have hg : Increasing ⟨g.declareNode id g.nodeDefaults, opened⟩ :=
    h.changeGraph (Nat.le_refl _) rfl
  cases opened with
  | nil => exact hg
  | cons sub outer =>
    exact hg.changeHead children_register (hg.head.congr edgeIndices_register)

theorem addNode (h : s.Increasing) (n : Node) :
    (s.act (·.addNode n) (·.addNode n)).Increasing := by
  obtain ⟨g, opened⟩ := s
  have hg : Increasing ⟨g.addNode n, opened⟩ := h.changeGraph (Nat.le_refl _) rfl
  cases opened with
  | nil => exact hg
  | cons sub outer =>
    exact hg.changeHead children_register (hg.head.congr edgeIndices_register)

theorem connect (h : s.Increasing) (tail head : String) (templates : List (Attributes .edge)) :
    (s.connect tail head templates).Increasing := by
  obtain ⟨g, opened⟩ := s
  have more : (g.addEdge tail head templates).numEdges = g.numEdges + 1 := Array.size_push _
  have hg : Increasing ⟨g.addEdge tail head templates, opened⟩ :=
    h.changeGraph (by rw [more]; exact Nat.le_succ _) rfl
  cases opened with
  | nil => exact hg
  | cons sub outer =>
    let adopted := Builder.adopt (Builder.adopt sub tail) head
    have children : (adopted.recordEdge g.numEdges).children = sub.children :=
      Builder.children_adopt.trans Builder.children_adopt
    -- The subgraph notes the place that was the next one.
    have noted : (adopted.recordEdge g.numEdges).edgeIndices = sub.edgeIndices.push g.numEdges :=
      congrArg (·.push g.numEdges) (Builder.edgeIndices_adopt.trans Builder.edgeIndices_adopt)
    exact hg.changeHead children (more ▸ h.head.push noted)

theorem enter (h : s.Increasing) (name : String) : (s.enter name).Increasing :=
  forall_forest_insert h rfl (.iff_lt.2 ⟨.nil, by simp⟩)

theorem leave (h : s.Increasing) : s.leave.Increasing := by
  obtain ⟨g, opened⟩ := s
  match opened with
  | [] => exact h
  | [sub] =>
    show ∀ t ∈ forest (g.subgraphs ++ [sub] ++ []), t.Increasing g.numEdges
    rw [List.append_nil]
    exact h
  | sub :: parent :: outer =>
    have parent_increasing : parent.Increasing g.numEdges := by
      refine h parent ?_
      simp [forest_append, mem_tree_self]
    exact forall_forest_addChild h (parent_increasing.congr rfl)

/-- Every step keeps the places of edges in their order. -/
theorem step (h : s.Increasing) (hs : Step s s') : s'.Increasing := by
  cases hs with
  | settings opened _ edges subgraphs =>
    exact h.changeGraph (Nat.le_of_eq (congrArg Array.size edges).symm) subgraphs
  | addNode _ n => exact h.addNode n
  | declare _ id => exact h.declare id
  | connect _ tail head templates => exact h.connect tail head templates
  | modifyNode _ id f => exact h.changeGraph (Nat.le_refl _) rfl
  | modifyEdge _ index f =>
    exact h.changeGraph (Nat.le_of_eq Array.size_modify.symm) rfl
  | modifyAttrs g sub outer attrs => exact h.changeHead rfl (h.head.congr rfl)
  | enter _ name => exact h.enter name
  | leave _ => exact h.leave

end Scope.Increasing

/-! ### Consistent graphs -/

/-- What a subgraph says of a graph is so. -/
structure Subgraph.Consistent (g : Graph) (s : Subgraph) : Prop where
  /-- No node is declared twice. -/
  ids_nodup : s.nodeIds.toList.Nodup
  /-- What is declared are nodes of the graph. -/
  ids : ∀ id ∈ s.nodeIds, id ∈ g.nodes.map Node.id
  /-- The places of the edges stand in their order. -/
  sorted : s.edgeIndices.toList.Pairwise (· < ·)
  /-- All of them are places of edges. -/
  lt_numEdges : ∀ i ∈ s.edgeIndices, i < g.numEdges
  /-- The nodes of the subgraph are all that are declared, in their order. -/
  nodes : (g.subgraphNodes s).map Node.id = s.nodeIds.toList
  /-- The edges of the subgraph are those at all the places, in their order. -/
  edges : (g.subgraphEdges s).map some = s.edgeIndices.toList.map (g.edges[·]?)
  /-- Both ends of an edge are in the subgraph or in one inside of it. -/
  ends : ∀ e ∈ g.subgraphEdges s,
    s.containsNode e.tail = true ∧ s.containsNode e.head = true

/-- The parts of a graph say the same. -/
structure Graph.Consistent (g : Graph) : Prop where
  /-- No two nodes have the same name. -/
  ids_nodup : (g.nodes.map Node.id).Nodup
  /-- They are counted. -/
  numNodes_eq : g.numNodes = g.nodes.length
  /-- A node is found under its name, and nothing else is. -/
  node?_iff : ∀ id n, g.node? id = some n ↔ n ∈ g.nodes ∧ n.id = id
  /-- Both ends of an edge are nodes. -/
  ends : ∀ e ∈ g.edges, e.tail ∈ g.nodes.map Node.id ∧ e.head ∈ g.nodes.map Node.id
  /-- What subgraphs say is so, at every depth. -/
  subgraphs : ∀ s ∈ forest g.subgraphs, s.Consistent g
  /-- No place of an edge is noted twice, in whatever subgraphs. -/
  recorded_nodup : (recorded g.subgraphs).Nodup

namespace Graph

variable {g : Graph}

/-- No edge of a subgraph is left out if all of its places are places of edges. -/
theorem map_some_subgraphEdges {s : Subgraph} (h : ∀ i ∈ s.edgeIndices, i < g.numEdges) :
    (g.subgraphEdges s).map some = s.edgeIndices.toList.map (g.edges[·]?) := by
  have found : ∀ i ∈ s.edgeIndices.toList, (g.edges[i]?).map some = some (g.edges[i]?) := by
    intro i hi
    have hlt : i < g.edges.size := h i (by simpa using hi)
    rw [Array.getElem?_eq_getElem hlt]
    rfl
  rw [subgraphEdges, List.map_filterMap, OrderedMap.filterMap_congr_of_mem found]
  exact congrFun List.filterMap_eq_map _

/-- Well-formed subgraphs whose edges are in order are consistent. -/
theorem WellFormed.consistent_of_increasing (h : g.WellFormed)
    (increasing : Scope.Increasing { graph := g }) :
    g.Consistent where
  ids_nodup := by
    rw [map_id_nodes]
    exact g.nodeMap.byName.nodup
  numNodes_eq := g.nodeMap.length_toList.symm
  node?_iff id n := node?_eq_some_iff
  ends e he := by
    obtain ⟨ht, hh⟩ := h.ends e he
    exact ⟨hasNode_iff.1 ht, hasNode_iff.1 hh⟩
  subgraphs s hs := by
    have mem : s ∈ forest (g.subgraphs ++ []) := by rwa [List.append_nil]
    have valid : s.Valid g := h.valid s mem
    obtain ⟨sorted, below⟩ := Increasing.iff_lt.1 (increasing s mem)
    exact {
      ids_nodup := valid.nodup
      ids := fun id hid => hasNode_iff.1 (valid.nodes id hid)
      sorted := sorted
      lt_numEdges := below
      nodes := map_id_subgraphNodes valid
      edges := map_some_subgraphEdges below
      ends := fun e he => by
        obtain ⟨i, hi, hie⟩ := List.mem_filterMap.1 he
        obtain ⟨e', he', ends⟩ := valid.edges i (by simpa using hi)
        rw [he'] at hie
        obtain rfl := Option.some.inj hie
        exact ends }
  recorded_nodup := by
    have nodup := h.nodup
    rwa [show recorded (g.subgraphs ++ []) = recorded g.subgraphs by rw [List.append_nil]] at nodup

/-- Every graph that can be reached is consistent. -/
theorem Reachable.consistent (h : g.Reachable) : g.Consistent := by
  refine h.wellFormed.consistent_of_increasing ?_
  have empty : Scope.Increasing { graph := {} } := forall_forest_nil
  exact h.steps.keeps (fun _ _ => Scope.Increasing.step) empty

/-- An edge of the outer subgraph ends in a node of the inner one, which has an edge of its
    own. -/
theorem nested_consistent : ∃ g : Graph, g.Reachable ∧
    (forest g.subgraphs).map (fun s => (s.nodeIds, s.edgeIndices)) =
      [(#["c", "d"], #[1]), (#["e"], #[2])] ∧ g.Consistent := by
  let g : Graph := (({} : Graph).addEdge "a" "b" []).subgraph "outer" fun b =>
    (b.subgraph "inner" fun c => c.addEdge "c" "d" []).addEdge "c" "e" []
  have reachable : g.Reachable :=
    .subgraph _ _ (.addEdge _ _ _ (.new false))
      (.addEdge _ _ _ (.subgraph _ _ (.refl _) (.addEdge _ _ _ (.refl _))))
  exact ⟨g, reachable, by decide +kernel, reachable.consistent⟩

end Graph

end DotLang
