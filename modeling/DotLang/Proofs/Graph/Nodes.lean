import DotLang.Proofs.Graph.Store

/-!
# The nodes of a document

A node comes into the graph where the text first mentions it, as the subject of a
statement or as a side of an edge operator. It starts with what has been assigned to
nodes to come by then, and after that only the lists of its own statements change it.

* `Document.MakesNodes`: how the nodes of a document are made;
* `Graph.ofText_nodes`: the nodes of a text, and the attributes for nodes and edges to
  come that are left in the end.
-/

namespace DotLang

/-- The node that an act mentions. -/
def Act.mentioned? : Act → Option String
  | .mention id => some id
  | _ => none

/-- The attributes that an act gives to a node. -/
def Act.list? (id : String) : Act → Option Assignments
  | .describe other pairs => if other = id then some pairs else none
  | _ => none

theorem Act.list?_eq_some_iff {id : String} {a : Act} {pairs : Assignments} :
    a.list? id = some pairs ↔ a = .describe id pairs := by
  cases a <;> simp [list?]

/-- The attributes of a node on top of which lists are put, one after the other. -/
def Attributes.mergeLists (attrs : Attributes .node) (lists : List Assignments) :
    Attributes .node :=
  lists.foldl (fun attrs pairs => attrs.merge ((∅ : Attributes .node).assignAll pairs)) attrs

namespace Store

variable {t : Store} {id : String} {attrs : Attributes .node}

theorem keys_apply (t : Store) (a : Act) : (a.apply t).nodeMap.keys =
    a.mentioned?.toList.foldl Subgraph.addMember t.nodeMap.keys := by
  cases a with
  | mention id => exact t.nodeMap.keys_declare id t.nodeDefaults
  | describe id pairs => exact NodeMap.keys_modify _ _ _
  | assign target pairs => cases target <;> rfl
  | _ => rfl

/-- The nodes are those that have been mentioned, in the order of their first mentions. -/
theorem keys_after (t : Store) (acts : List Act) : (t.after acts).nodeMap.keys =
    (acts.filterMap Act.mentioned?).foldl Subgraph.addMember t.nodeMap.keys := by
  induction acts generalizing t with
  | nil => rfl
  | cons a acts ih =>
    rw [after_cons, ih, keys_apply, ← List.foldl_append]
    cases h : a.mentioned? <;> simp [h]

theorem mem_keys_after {acts : List Act} :
    id ∈ (after {} acts).nodeMap.keys ↔ .mention id ∈ acts := by
  rw [keys_after, Subgraph.mem_foldl_addMember, List.mem_filterMap]
  constructor
  · rintro (h | ⟨a, ha, hid⟩)
    · exact absurd h (Array.not_mem_empty id)
    · match a with
      | .mention other =>
        obtain rfl := Option.some.inj hid
        exact ha
  · exact fun h => .inr ⟨_, h, rfl⟩

/-- An act changes a node that is there by its list only, if it has one for the node. -/
theorem attrs?_apply (h : t.nodeMap.attrs? id = some attrs) (a : Act) :
    (a.apply t).nodeMap.attrs? id = some (attrs.mergeLists (a.list? id).toList) := by
  match a with
  | .mention other =>
    show (t.nodeMap.declare other t.nodeDefaults).attrs? id = _
    rw [NodeMap.attrs?_declare]
    split
    · next heq => rw [← heq, h]; rfl
    · exact h
  | .describe other pairs =>
    show (t.nodeMap.modify other _).attrs? id = _
    rw [NodeMap.attrs?_modify, Act.list?]
    split
    · next heq => rw [if_pos heq.symm, ← heq, h]; rfl
    · next hne => rw [if_neg (Ne.symm hne), h]; rfl
  | .assign target pairs => cases target <;> exact h
  | .enter name => exact h
  | .leave => exact h
  | .connect ends pairs => exact h

/-- Acts change a node that is there by the lists that they have for it. -/
theorem attrs?_after (h : t.nodeMap.attrs? id = some attrs) (acts : List Act) :
    (t.after acts).nodeMap.attrs? id =
      some (attrs.mergeLists (acts.filterMap (Act.list? id))) := by
  induction acts generalizing t attrs with
  | nil => exact h
  | cons a acts ih =>
    rw [after_cons, ih (attrs?_apply h a), Attributes.mergeLists, Attributes.mergeLists,
      ← List.foldl_append, Attributes.mergeLists]
    cases hlist : a.list? id <;> simp [hlist]

/-- A node starts with what has been assigned to nodes to come. -/
theorem attrs?_mention (h : id ∉ t.nodeMap.keys) :
    ((Act.mention id).apply t).nodeMap.attrs? id = some t.nodeDefaults := by
  have absent : t.nodeMap.attrs? id = none := by
    rw [← NodeMap.contains_iff, NodeMap.contains_eq_isSome] at h
    simpa using h
  show (t.nodeMap.declare id t.nodeDefaults).attrs? id = _
  rw [NodeMap.attrs?_declare, if_pos rfl, absent]
  rfl

end Store

/-- How the nodes of a document are made. A moment of the document is given by the acts
    before it. -/
structure Document.MakesNodes (d : Document) : Prop where
  /-- The graph of the document is what its acts make. -/
  graph : (d.start.after d.acts).graph = d.toGraph
  /-- The nodes are those that are mentioned, in the order of their first mentions. -/
  ids : d.toGraph.nodes.map Node.id = (d.acts.filterMap Act.mentioned?).eraseDups
  /-- New nodes start with what has been assigned to nodes to come so far, in braces or
      outside of any. -/
  template : ∀ before after, d.acts = before ++ after →
    (∅ : Attributes .node).setAll (before.flatMap (Act.assigned .nodes)) =
      .ok (d.start.after before).graph.nodeDefaults
  /-- A node has what it started with when it was first mentioned, and on top of that the
      lists of all its statements. -/
  attrs : ∀ n ∈ d.toGraph.nodes, ∃ before after, d.acts = before ++ .mention n.id :: after ∧
    .mention n.id ∉ before ∧
    n.attrs = (d.start.after before).graph.nodeDefaults.mergeLists
      (d.acts.filterMap (Act.list? n.id))
  /-- All assignments in the lists of nodes succeed. -/
  accepted : ∀ id pairs, .describe id pairs ∈ d.acts →
    (∅ : Attributes .node).setAll pairs = .ok ((∅ : Attributes .node).assignAll pairs)
  /-- Nothing but the list of one of its statements changes a node that is there. -/
  settled : ∀ before a after, d.acts = before ++ a :: after → ∀ id n,
    (d.start.after before).graph.node? id = some n → (∀ pairs, a ≠ .describe id pairs) →
      (a.run (d.start.after before)).graph.node? id = some n
  /-- What is left for nodes and edges to come is all that has been assigned to them. -/
  defaults : (∅ : Attributes .node).setAll (d.acts.flatMap (Act.assigned .nodes)) =
      .ok d.toGraph.nodeDefaults ∧
    (∅ : Attributes .edge).setAll (d.acts.flatMap (Act.assigned .edges)) =
      .ok d.toGraph.edgeDefaults

namespace Document

variable {d : Document}

theorem map_id_nodes_toGraph (d : Document) :
    d.toGraph.nodes.map Node.id = (d.acts.filterMap Act.mentioned?).eraseDups := by
  have keys : d.toGraph.nodeMap.keys = (Store.after {} d.acts).nodeMap.keys :=
    congrArg (fun t => t.nodeMap.keys) d.store_toGraph
  rw [Graph.map_id_nodes, keys, Store.keys_after]
  exact Subgraph.toList_foldl_addMember _

/-- Before a node is mentioned it gets no attributes. -/
theorem filterMap_list?_eq_nil {before after : List Act} {id : String}
    (heq : d.acts = before ++ after) (h : .mention id ∉ before) :
    before.filterMap (Act.list? id) = [] := by
  refine List.filterMap_eq_nil_iff.2 fun a ha => Option.eq_none_iff_forall_ne_some.2 ?_
  intro pairs hlist
  obtain rfl := Act.list?_eq_some_iff.1 hlist
  -- Right before the list there is a mention.
  obtain ⟨first, later, rfl⟩ := List.append_of_mem ha
  obtain ⟨earlier, rfl⟩ := d.prepared first (.describe id pairs) (later ++ after)
    (by rw [heq, List.append_assoc, List.cons_append])
  exact h (by simp [Act.needs])

/-- The attributes of a node, from its first mention on. -/
theorem attrs?_toGraph {before after : List Act} {id : String}
    (heq : d.acts = before ++ .mention id :: after) (h : .mention id ∉ before) :
    d.toGraph.nodeMap.attrs? id = some ((d.start.after before).graph.nodeDefaults.mergeLists
      (d.acts.filterMap (Act.list? id))) := by
  let t := Store.after {} before
  have moment : (d.start.after before).graph.store = t := store_before heq
  have final : d.toGraph.store = ((Act.mention id).apply t).after after := by
    rw [store_toGraph, heq, Store.after_append, Store.after_cons]
  have new : id ∉ t.nodeMap.keys := mt Store.mem_keys_after.1 h
  have lists : d.acts.filterMap (Act.list? id) = after.filterMap (Act.list? id) := by
    rw [heq, List.filterMap_append, filterMap_list?_eq_nil heq h, List.nil_append]
    rfl
  rw [lists]
  show d.toGraph.store.nodeMap.attrs? id = some (Attributes.mergeLists
    (d.start.after before).graph.store.nodeDefaults _)
  rw [moment, final]
  exact Store.attrs?_after (Store.attrs?_mention new) after

/-- The nodes of an accepted document are made as they should be. -/
theorem Checked.makesNodes (checked : d.Checked Owner.Accepts) : d.MakesNodes where
  graph := d.toGraph_eq.symm
  ids := d.map_id_nodes_toGraph
  template before after heq := (checked.defaults heq).1
  attrs n hn := by
    have mentioned : .mention n.id ∈ d.acts := by
      have key : n.id ∈ d.toGraph.nodes.map Node.id := List.mem_map_of_mem hn
      rw [map_id_nodes_toGraph, List.mem_eraseDups, List.mem_filterMap] at key
      obtain ⟨a, ha, hid⟩ := key
      match a with
      | .mention id =>
        obtain rfl : id = n.id := Option.some.inj hid
        exact ha
    obtain ⟨before, after, heq, first⟩ := List.eq_append_cons_of_mem mentioned
    have found := attrs?_toGraph heq first
    rw [Graph.mem_nodes.1 hn] at found
    exact ⟨before, after, heq, first, Option.some.inj found⟩
  accepted id pairs h := Owner.Accepts.setAll_eq (checked.accepted _ h) ∅
  settled before a after heq id n h ha := by
    obtain ⟨hid, hattrs⟩ := NodeMap.get?_eq_some_iff.1 h
    have moment := store_before heq
    have next : (a.run (d.start.after before)).graph.store =
        a.apply (d.start.after before).graph.store := by
      have split_eq : d.acts = (before ++ [a]) ++ after := by simp [heq]
      have later := store_before split_eq
      rw [Scope.after_append, Store.after_append, ← moment] at later
      exact later
    have list : a.list? id = none := Option.eq_none_iff_forall_ne_some.2 fun pairs hlist =>
      ha pairs (Act.list?_eq_some_iff.1 hlist)
    refine NodeMap.get?_eq_some_iff.2 ⟨hid, ?_⟩
    show (a.run (d.start.after before)).graph.store.nodeMap.attrs? id = _
    rw [next, Store.attrs?_apply hattrs, list]
    rfl
  defaults := by
    have final := checked.defaults (List.append_nil d.acts).symm
    rwa [← toGraph_eq] at final

end Document

/-- The nodes of a text are those that it mentions, in the order of their first mentions.
    Each has what had been assigned to nodes to come by then, and on top of that the lists
    of all its statements. -/
theorem Graph.ofText_nodes {text : String} {g : Graph} (h : Graph.ofText text = .ok g) :
    ∃ d, Grammar.Sentence (Tokens.ofText text).lexemes d ∧ d.toGraph = g ∧ d.MakesNodes := by
  obtain ⟨d, sentence, checked, rfl⟩ := ofText_eq_ok_iff.1 h
  exact ⟨d, sentence, rfl, checked.makesNodes⟩

/-- What is assigned inside of braces counts behind them, and only for new nodes. The list of
    a node counts although the node was mentioned before. -/
theorem Graph.late_list_nodes : ∃ text g, Graph.ofText text = .ok g ∧
    g.nodes.map (fun n => (n.id, n.attrs.entries)) =
      [("a", [("w", "1")]), ("b", [("v", "3"), ("w", "1")]), ("c", [("w", "2")])] ∧
    ∃ d, Grammar.Sentence (Tokens.ofText text).lexemes d ∧ d.toGraph = g ∧ d.MakesNodes := by
  obtain ⟨g, hread, hnodes⟩ := exists_of_toOption_any
    "graph \x7b node [w=1] a -- \x7b b node [w=2] \x7d b [v=3] c:p -- a \x7d"
    (P := fun g => g.nodes.map (fun n => (n.id, n.attrs.entries)) =
      [("a", [("w", "1")]), ("b", [("v", "3"), ("w", "1")]), ("c", [("w", "2")])])
    (by decide +kernel)
  exact ⟨_, g, hread, hnodes, ofText_nodes hread⟩

end DotLang
