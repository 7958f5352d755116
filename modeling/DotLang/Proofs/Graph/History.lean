import DotLang.Proofs.Graph.Consistent
import DotLang.Proofs.Graph.Nodes

/-!
# The history of a graph

Subgraphs count edges by their places, and other subgraphs are built while more edges
are made. This works because a graph is only ever added to: nodes, edges and the
subgraphs that are inside of no other stay where they are, and what is new comes behind
them. A node may be replaced, but in its place, and of an edge or a finished subgraph
nothing changes but its attributes.

* `Scope.Operation`, `Scope.Operations`: what is done to a graph, or to a subgraph that is
  on the way, and any number of such operations;
* `Graph.Appends`: one graph goes on where another ends;
* `Scope.Step.appends`, `Scope.Operations.appends`: what is done adds to the graph;
* `Graph.Reachable.appendOnly`: so the places of edges mean the same edges for good.
-/

namespace DotLang

open Subgraph

/-! ### Operations -/

namespace Scope

/-- What is done to a graph on the way: an operation of its interface, on the graph or on
    the innermost subgraph that is being built, or a statement that is read where the
    braces of some subgraphs are open. -/
inductive Operation : Scope → Scope → Prop
  /-- A single step, with which the building or reading of a subgraph may start or end. -/
  | step {s s' : Scope} : Step s s' → Operation s s'
  /-- A whole subgraph is built, with those inside of it. -/
  | subgraph (s : Scope) (name : String) (build : Builder → Builder) :
      Builder.Builds (.start s.graph name) (build (.start s.graph name)) →
        Operation s (s.act (·.subgraph name build) (·.subgraph name build))
  /-- The attributes of the subgraph that was built last change. -/
  | modifyBuilt {g : Graph} {subs : List Subgraph} {sub : Subgraph}
      (attrs : Attributes .subgraph) : g.subgraphs = subs ++ [sub] →
        Operation ⟨g, []⟩ ⟨{ g with subgraphs := subs ++ [{ sub with attrs }] }, []⟩
  /-- The same, while a subgraph around it is being built. -/
  | modifyBuiltInside {g : Graph} {parent sub : Subgraph} {subs outer : List Subgraph}
      (attrs : Attributes .subgraph) : parent.children = subs ++ [sub] →
        Operation ⟨g, parent :: outer⟩
          ⟨g, { parent with children := subs ++ [{ sub with attrs }] } :: outer⟩
  /-- A statement is read, with those inside of it. -/
  | statement (s : Scope) (stmt : Stmt) : Operation s (stmt.run s)

/-- Any number of operations. -/
def Operations : Scope → Scope → Prop := Relation.ReflTransGen Operation

/-- Building a whole subgraph takes steps: it is opened, filled and closed. -/
theorem steps_subgraph {s : Scope} {name : String} {build : Builder → Builder}
    (h : Builder.Builds (.start s.graph name) (build (.start s.graph name))) :
    Steps s (s.act (·.subgraph name build) (·.subgraph name build)) := by
  have filled := (Step.enter s name).steps.trans (h.steps s.opened)
  obtain ⟨g, opened⟩ := s
  cases opened with
  | nil => exact filled.tail (.leave _)
  | cons parent outer => exact filled.tail (.leave _)

/-- Reading a statement takes steps. -/
theorem steps_statement (s : Scope) (stmt : Stmt) : Steps s (stmt.run s) :=
  (kept_steps s).stmt stmt s (.refl s)

end Scope

/-! ### Graphs that are added to -/

/-- A finished subgraph without its attributes. -/
def Subgraph.bare (s : Subgraph) : Subgraph := { s with attrs := ∅ }

/-- A graph goes on where another ends. -/
structure Graph.Appends (g g' : Graph) : Prop where
  /-- The nodes stand in the same order, and new ones behind them. -/
  ids : g.nodes.map Node.id <+: g'.nodes.map Node.id
  /-- So do the edges, with the same ends. -/
  ends : g.edges.toList.map Edge.ends <+: g'.edges.toList.map Edge.ends
  /-- So do the subgraphs that are inside of no other, with the same names, nodes, edges and
      subgraphs inside. -/
  subgraphs : g.subgraphs.map bare <+: g'.subgraphs.map bare

namespace Graph.Appends

variable {g g' g'' : Graph}

theorem refl (g : Graph) : g.Appends g :=
  ⟨List.prefix_refl _, List.prefix_refl _, List.prefix_refl _⟩

theorem trans (h : g.Appends g') (h' : g'.Appends g'') : g.Appends g'' :=
  ⟨h.ids.trans h'.ids, h.ends.trans h'.ends, h.subgraphs.trans h'.subgraphs⟩

/-- A graph may change in everything but its nodes, edges and subgraphs. -/
theorem of_eq (nodes : g'.nodeMap.keys = g.nodeMap.keys)
    (edges : g'.edges.toList.map Edge.ends = g.edges.toList.map Edge.ends)
    (subgraphs : g'.subgraphs.map bare = g.subgraphs.map bare) : g.Appends g' where
  ids := ⟨[], by rw [List.append_nil, map_id_nodes, map_id_nodes, nodes]⟩
  ends := ⟨[], by rw [List.append_nil, edges]⟩
  subgraphs := ⟨[], by rw [List.append_nil, subgraphs]⟩

/-- The place of an edge is that of an edge with the same ends later on. -/
theorem edge (h : g.Appends g') {i : Nat} (hi : i < g.numEdges) :
    ∃ e e', g.edges[i]? = some e ∧ g'.edges[i]? = some e' ∧ e'.ends = e.ends := by
  have hi : i < g.edges.size := hi
  have later := List.prefix_iff_getElem?.1 h.ends i (by simpa using hi)
  rw [List.getElem?_map, Array.getElem?_toList, List.getElem_map, Array.getElem_toList] at later
  obtain ⟨e', he', hends⟩ := Option.map_eq_some_iff.1 later
  exact ⟨g.edges[i], e', Array.getElem?_eq_getElem hi, he', hends⟩

end Graph.Appends

/-! ### What is done adds to the graph -/

namespace Subgraph

variable {members : Array String}

theorem toList_addMember (members : Array String) (id : String) :
    (addMember members id).toList =
      members.toList ++ if members.contains id then [] else [id] := by
  rw [addMember]
  split
  · rw [List.append_nil]
  · rw [Array.toList_push]

end Subgraph

namespace Graph

variable (g : Graph) (id tail head : String)

theorem keys_declareNode (template : Attributes .node) :
    (g.declareNode id template).nodeMap.keys = addMember g.nodeMap.keys id :=
  g.nodeMap.keys_declare id template

theorem appends_declareNode (template : Attributes .node) :
    g.Appends (g.declareNode id template) where
  ids := by
    rw [map_id_nodes, map_id_nodes, keys_declareNode, toList_addMember]
    exact List.prefix_append _ _
  ends := List.prefix_refl _
  subgraphs := List.prefix_refl _

/-- A node that takes the place of another stands where the other one stood. -/
theorem appends_addNode (n : Node) : g.Appends (g.addNode n) :=
  (g.appends_declareNode n.id n.attrs).trans (.of_eq (g.nodeMap.keys_insert n) rfl rfl)

theorem appends_addEdge (templates : List (Attributes .edge)) :
    g.Appends (g.addEdge tail head templates) := by
  have ends : (g.declareNode tail ∅).Appends ((g.declareNode tail ∅).declareNode head ∅) :=
    appends_declareNode _ head ∅
  have nodes := (g.appends_declareNode tail ∅).trans ends
  refine ⟨nodes.ids, ?_, nodes.subgraphs⟩
  rw [edges_addEdge, Array.toList_push, List.map_append]
  exact List.prefix_append _ _

theorem appends_modifyEdge (index : Nat) (f : Attributes .edge → Attributes .edge) :
    g.Appends (g.modifyEdge index f) := by
  refine .of_eq rfl ?_ rfl
  refine List.ext_getElem? fun i => ?_
  rw [List.getElem?_map, List.getElem?_map, Array.getElem?_toList, Array.getElem?_toList]
  show ((g.edges.modify index _)[i]?).map _ = _
  rw [Array.getElem?_modify]
  split
  · cases g.edges[i]? <;> rfl
  · rfl

theorem appends_attach (s : Subgraph) : g.Appends (g.attach s) where
  ids := List.prefix_refl _
  ends := List.prefix_refl _
  subgraphs := by
    rw [attach, List.map_append]
    exact List.prefix_append _ _

end Graph

namespace Scope

variable {s s' : Scope}

/-- A step adds to the graph, if it changes the graph at all. -/
theorem Step.appends (h : Step s s') : s.graph.Appends s'.graph := by
  cases h with
  | settings opened nodes edges subgraphs =>
    exact .of_eq (by rw [nodes]) (by rw [edges]) (by rw [subgraphs])
  | addNode _ n =>
    obtain ⟨g, opened⟩ := s
    cases opened <;> exact g.appends_addNode n
  | declare _ id =>
    obtain ⟨g, opened⟩ := s
    cases opened <;> exact g.appends_declareNode id _
  | connect _ tail head templates =>
    obtain ⟨g, opened⟩ := s
    cases opened <;> exact g.appends_addEdge tail head templates
  | modifyNode _ id f => exact .of_eq (NodeMap.keys_modify _ _ _) rfl rfl
  | modifyEdge _ index f => exact s.graph.appends_modifyEdge index f
  | modifyAttrs g => exact .refl g
  | enter => exact .refl s.graph
  | leave =>
    obtain ⟨g, opened⟩ := s
    match opened with
    | [] => exact .refl g
    | [sub] => exact g.appends_attach sub
    | sub :: parent :: outer => exact .refl g

theorem Steps.appends (h : Steps s s') : s.graph.Appends s'.graph :=
  h.keeps (P := fun later => s.graph.Appends later.graph)
    (fun _ _ before step => before.trans step.appends) (.refl _)

/-- An operation adds to the graph, if it changes the graph at all. -/
theorem Operation.appends (h : s.Operation s') : s.graph.Appends s'.graph := by
  cases h with
  | step h => exact h.appends
  | subgraph _ name build h => exact (steps_subgraph h).appends
  | modifyBuilt attrs hsubs =>
    refine .of_eq rfl rfl ?_
    rw [hsubs, List.map_append, List.map_append]
    rfl
  | modifyBuiltInside attrs hsubs => exact .refl _
  | statement _ stmt => exact (steps_statement s stmt).appends

theorem Operations.appends (h : s.Operations s') : s.graph.Appends s'.graph := by
  induction h with
  | refl => exact .refl _
  | tail _ op ih => exact ih.trans op.appends

/-! ### Places of edges -/

/-- The places of edges stay below the number of edges. -/
theorem Operation.increasing (h : s.Operation s') (hs : s.Increasing) : s'.Increasing := by
  cases h with
  | step h => exact hs.step h
  | subgraph _ name build h => exact (steps_subgraph h).keeps (fun _ _ => Increasing.step) hs
  | @modifyBuilt g subs sub attrs hsubs =>
    have hs : ∀ t ∈ forest (g.subgraphs ++ []), t.Increasing g.numEdges := hs
    rw [List.append_nil, hsubs] at hs
    show ∀ t ∈ forest (subs ++ [{ sub with attrs }] ++ []), t.Increasing g.numEdges
    rw [List.append_nil]
    have built : sub.Increasing g.numEdges := hs sub (by simp [mem_tree_self])
    exact forall_forest_change hs rfl (built.congr rfl)
  | @modifyBuiltInside g parent sub subs outer attrs hsubs =>
    -- The subgraph stands among the children of the innermost open one.
    have hparent : ∀ t ∈ parent.tree, t.Increasing g.numEdges := fun t ht =>
      hs t (by simp [ht])
    rw [forall_tree, hsubs] at hparent
    obtain ⟨inside, hparent⟩ := hparent
    have built : sub.Increasing g.numEdges := inside sub (by simp [mem_tree_self])
    have children : ∀ t ∈ forest (subs ++ [{ sub with attrs }]), t.Increasing g.numEdges :=
      forall_forest_change inside rfl (built.congr rfl)
    have hs : ∀ t ∈ forest (g.subgraphs ++ parent :: outer), t.Increasing g.numEdges := hs
    show ∀ t ∈ forest (g.subgraphs ++ { parent with children := _ } :: outer),
      t.Increasing g.numEdges
    rw [forest_append, List.forall_mem_append, forall_forest_cons] at hs ⊢
    exact ⟨hs.1, forall_tree.2 ⟨children, hparent.congr rfl⟩, hs.2.2⟩
  | statement _ stmt => exact (steps_statement s stmt).keeps (fun _ _ => Increasing.step) hs

theorem Operations.increasing (h : s.Operations s') (hs : s.Increasing) : s'.Increasing := by
  induction h with
  | refl => exact hs
  | tail _ op ih => exact op.increasing ih

end Scope

/-- Making an edge adds this one edge to a graph, and those of its ends that are not there
    yet, the tail before the head. -/
structure Graph.AddsEdge (g g' : Graph) (tail head : String) : Prop where
  edges : ∃ attrs, g'.edges = g.edges.push ⟨tail, head, attrs⟩
  ids : g'.nodes.map Node.id = g.nodes.map Node.id ++
    ([tail, head].filter fun id => !(g.nodes.map Node.id).contains id).eraseDups
  subgraphs : g'.subgraphs = g.subgraphs

/-- Of two names the second is left out also if it is the first once more. -/
theorem eraseDups_filter_pair (p : String → Bool) (a b : String) :
    ([a, b].filter fun id => !p id).eraseDups =
      (if p a then [] else [a]) ++ if p b || b == a then [] else [b] := by
  by_cases heq : b = a
  · subst heq
    cases hb : p b <;> simp [hb, List.eraseDups_cons]
  · cases ha : p a <;> cases hb : p b <;> simp [ha, hb, heq, List.eraseDups_cons]

namespace Graph

theorem addsEdge (g : Graph) (tail head : String) (templates : List (Attributes .edge)) :
    g.AddsEdge (g.addEdge tail head templates) tail head where
  edges := ⟨_, edges_addEdge⟩
  ids := by
    have keys : (g.addEdge tail head templates).nodeMap.keys =
        addMember (addMember g.nodeMap.keys tail) head := by
      show ((g.declareNode tail ∅).declareNode head ∅).nodeMap.keys = _
      rw [keys_declareNode, keys_declareNode]
    rw [map_id_nodes, map_id_nodes, keys, toList_addMember, toList_addMember, List.append_assoc]
    -- The head is new unless it was there or has just come as the tail.
    have head_new : (addMember g.nodeMap.keys tail).contains head =
        (g.nodeMap.keys.contains head || head == tail) := by
      rw [Bool.eq_iff_iff, Bool.or_eq_true, Array.contains_iff_mem, Array.contains_iff_mem,
        mem_addMember, beq_iff_eq]
    rw [head_new, eraseDups_filter_pair, Array.contains_toList, Array.contains_toList]
  subgraphs := rfl

end Graph

/-! ### Graphs are only added to -/

/-- From here on the graph is only added to. -/
structure Scope.OnlyAddedTo (s : Scope) : Prop where
  /-- After an operation the graph goes on where it ended before. -/
  appends : ∀ s', s.Operation s' → s.graph.Appends s'.graph
  /-- The place of an edge that a subgraph has noted, be it finished or on the way, is that of
      an edge with the same ends after any number of operations. -/
  places : ∀ s', s.Operations s' → ∀ t ∈ forest (s.graph.subgraphs ++ s.opened),
    ∀ i ∈ t.edgeIndices, ∃ e e', s.graph.edges[i]? = some e ∧
      s'.graph.edges[i]? = some e' ∧ e'.ends = e.ends
  /-- Making an edge, in whatever subgraph, adds it and what is missing of its ends. -/
  addsEdge : ∀ tail head templates,
    s.graph.AddsEdge (s.connect tail head templates).graph tail head

namespace Graph

/-- Whatever has been done to a graph that can be reached, and whatever subgraphs of it are
    on the way: it is only added to. -/
theorem Reachable.appendOnly {g : Graph} (h : g.Reachable) {s : Scope}
    (hs : Scope.Operations { graph := g } s) : s.OnlyAddedTo where
  appends _ op := op.appends
  places s' later t ht i hi := by
    have empty : Scope.Increasing { graph := {} } := forall_forest_nil
    have start : Scope.Increasing { graph := g } :=
      h.steps.keeps (fun _ _ => Scope.Increasing.step) empty
    have below := (Increasing.iff_lt.1 (hs.increasing start t ht)).2 i hi
    exact later.appends.edge below
  addsEdge tail head templates := by
    obtain ⟨g, opened⟩ := s
    cases opened <;> exact g.addsEdge tail head templates

/-- A subgraph has noted an edge when another one with an edge of its own is built inside of
    it. -/
theorem nested_appendOnly : ∃ (g : Graph) (s s' : Scope), g.Reachable ∧
    Scope.Operations { graph := g } s ∧ s.Operation s' ∧
    s.opened.map (·.edgeIndices) = [#[1]] ∧
    s'.graph.edges.toList.map Edge.ends = [["a", "b"], ["c", "d"], ["c", "e"]] ∧
    s.OnlyAddedTo := by
  let g : Graph := ({} : Graph).addEdge "a" "b" []
  let s : Scope := (Scope.enter { graph := g } "outer").connect "c" "d" []
  let build : Builder → Builder := fun b => b.addEdge "c" "e" []
  have reachable : g.Reachable := .addEdge _ _ _ (.new false)
  have reached : Scope.Operations { graph := g } s :=
    (Relation.ReflTransGen.single (.step (.enter _ "outer"))).tail (.step (.connect _ "c" "d" []))
  exact ⟨g, s, s.act (·.subgraph "inner" build) (·.subgraph "inner" build), reachable, reached,
    .subgraph s "inner" build (.addEdge "c" "e" [] (.refl _)), by decide +kernel,
    by decide +kernel, reachable.appendOnly reached⟩

end Graph

end DotLang
