import DotLang.Proofs.Listing.Reread

/-!
# Writing and reading again

A graph that is written and read again comes back up to its defaults: a node or an edge
has what it shared with the defaults as attributes of its own, the edges stand in the
order in which they are written, and the ends of an edge that was made in a subgraph are
nodes of that subgraph itself.

* `Graph.Restores`: what comes back of a graph;
* `Graph.ofText_text_restores`: every graph whose keys are identifiers and whose
  attributes are proper is restored;
* `Graph.ofText_text_of_keysReadable`: what has been read keeps its nodes, edges and
  subgraphs when it is written and read again, if its keys are words.
-/

namespace DotLang

open Attributes

/-! ### What comes back -/

mutual

/-- A subgraph comes back: with its name and its attributes, with its nodes and behind
    them the ends of its edges that are not among them, with its edges at the places that
    they now have, and with the subgraphs inside. The order says at which place every edge
    was. -/
def Subgraph.Restores (g : Graph) (order : List Nat) : Subgraph → Subgraph → Prop
  | ⟨name, attrs, nodeIds, edgeIndices, children⟩, s' =>
    s'.name = name ∧ s'.attrs = attrs ∧
      s'.nodeIds = ((edgeIndices.toList.filterMap (g.edges[·]?)).flatMap Edge.ends).foldl
        Subgraph.addMember nodeIds ∧
      s'.edgeIndices.toList.map (order[·]?) = edgeIndices.toList.map some ∧
      RestoresAll g order children s'.children

/-- Subgraphs come back, as many as there were. -/
def Subgraph.RestoresAll (g : Graph) (order : List Nat) : List Subgraph → List Subgraph → Prop
  | [], [] => True
  | s :: subs, s' :: subs' => s.Restores g order s' ∧ RestoresAll g order subs subs'
  | _, _ => False

end

/-- A graph comes back up to its defaults. The order says at which place every edge was:
    it is a permutation of the places. -/
structure Graph.Restores (g : Graph) (order : List Nat) (g' : Graph) : Prop where
  directed : g'.directed = g.directed
  strict : g'.strict = g.strict
  name : g'.name = g.name
  attrs : g'.attrs = g.attrs
  nodeDefaults : g'.nodeDefaults = g.nodeDefaults
  edgeDefaults : g'.edgeDefaults = g.edgeDefaults
  nodes : ∀ id, g'.node? id = (g.node? id).map fun n => ⟨n.id, g.nodeDefaults.merge n.attrs⟩
  perm : order.Perm (List.range g.numEdges)
  edges : g'.edges.toList = order.filterMap fun i =>
    (g.edges[i]?).map fun e => ⟨e.tail, e.head, g.edgeDefaults.merge e.attrs⟩
  subgraphs : Subgraph.RestoresAll g order g.subgraphs g'.subgraphs

/-! ### Subgraphs -/

variable {g : Graph}

/-- The places from the length of what comes before on are those of the list. -/
theorem map_getElem?_range' {α : Type} (before l behind : List α) :
    (List.range' before.length l.length).map ((before ++ (l ++ behind))[·]?) = l.map some := by
  refine List.ext_getElem (by simp) fun i hi hi' => ?_
  have hl : i < l.length := by simpa using hi'
  rw [List.getElem_map, List.getElem_map, List.getElem_range', Nat.one_mul,
    List.getElem?_append_right (Nat.le_add_right _ _), Nat.add_sub_cancel_left,
    List.getElem?_append_left hl, List.getElem?_eq_getElem hl]

mutual

theorem Subgraph.restores_reread (before behind : List Nat) : (s : Subgraph) →
    (∀ t ∈ s.tree, t.Valid g) →
    s.Restores g (before ++ (recorded [s] ++ behind)) (g.rereadSubgraph before.length s)
  | ⟨name, attrs, nodeIds, edgeIndices, children⟩, h => by
    rw [Graph.rereadSubgraph_eq _ h]
    rw [forall_tree] at h
    -- The edges inside come first, then those of the subgraph itself.
    have inner := restoresAll_reread before (edgeIndices.toList ++ behind) children h.1
    have own := map_getElem?_range' (before ++ recorded children) edgeIndices.toList behind
    rw [List.length_append, Array.length_toList, List.append_assoc] at own
    rw [Restores, recorded_cons, recorded_nil, List.append_nil]
    refine ⟨rfl, rfl, rfl, ?_, ?_⟩
    · rw [List.append_assoc]
      exact own
    · rw [List.append_assoc]
      exact inner

theorem Subgraph.restoresAll_reread (before behind : List Nat) : (subs : List Subgraph) →
    (∀ t ∈ forest subs, t.Valid g) →
    RestoresAll g (before ++ (recorded subs ++ behind)) subs (g.rereadSubgraphs before.length subs)
  | [], _ => by
    rw [Graph.rereadSubgraphs, RestoresAll]
    trivial
  | s :: subs, h => by
    rw [forall_forest_cons] at h
    have first := restores_reread before (recorded subs ++ behind) s h.1
    have later := restoresAll_reread (before ++ recorded [s]) behind subs h.2
    rw [Graph.rereadSubgraphs_cons _ h.1, RestoresAll, recorded_cons_eq_append s subs]
    rw [List.length_append, List.append_assoc] at later
    rw [List.append_assoc]
    exact ⟨first, later⟩

end

/-! ### The whole graph -/

namespace Graph

theorem WellFormed.valid_subgraphs (h : g.WellFormed) :
    ∀ t ∈ Subgraph.forest g.subgraphs, t.Valid g :=
  fun t ht => h.valid t (by simpa using ht)

theorem node?_reread (hw : g.WellFormed) (hp : g.Proper) (id : String) :
    g.reread.node? id = (g.node? id).map fun n => ⟨n.id, g.nodeDefaults.merge n.attrs⟩ := by
  rw [node?, node?, NodeMap.get?_eq_map_attrs?, NodeMap.get?_eq_map_attrs?, attrs?_reread hw hp,
    Option.map_map, Option.map_map]
  rfl

/-- What is read again is the graph up to its defaults. -/
theorem restores_reread (hw : g.WellFormed) (hp : g.Proper) : g.Restores g.listing g.reread where
  directed := rfl
  strict := rfl
  name := rfl
  attrs := rfl
  nodeDefaults := rfl
  edgeDefaults := rfl
  nodes := node?_reread hw hp
  perm := listing_perm hw
  edges := by
    rw [edges_reread, listedEdges_eq, List.toList_toArray, List.map_filterMap]
    rfl
  subgraphs := Subgraph.restoresAll_reread [] _ g.subgraphs hw.valid_subgraphs

theorem keysReadable_of_spellsIdentifier
    (h : g.Every fun _ a => ∀ e ∈ a.entries, SpellsIdentifier e.1) : g.KeysReadable where
  attrs e he := .inl (h.attrs e he)
  nodeDefaults := h.nodeDefaults
  edgeDefaults := h.edgeDefaults
  nodes := h.nodes
  edges := h.edges
  subgraphs s hs e he := .inl (h.subgraphs s hs e he)

/-- Every graph that is reached by reading and by building is restored from its text, if
    its keys are identifiers, its numbers finite and its free texts not under known keys.

    What a node or an edge then has under a key is its own, or else what the defaults
    have. So the entries of a node are unchanged exactly if it has all keys of the
    defaults. -/
theorem ofText_text_restores (h : g.Reachable)
    (hk : g.Every fun _ a => ∀ e ∈ a.entries, SpellsIdentifier e.1) (hp : g.Proper) :
    ∃ g' order, Graph.ofText g.text = .ok g' ∧ g.Restores order g' ∧
      (∀ n ∈ g.nodes,
        (∀ k, (g.nodeDefaults.merge n.attrs).get? k =
          (n.attrs.get? k).or (g.nodeDefaults.get? k)) ∧
        ((g.nodeDefaults.merge n.attrs).entries = n.attrs.entries ↔
          ∀ k, (g.nodeDefaults.get? k).isSome → (n.attrs.get? k).isSome)) ∧
      ∀ e ∈ g.edges, ∀ k, (g.edgeDefaults.merge e.attrs).get? k =
        (e.attrs.get? k).or (g.edgeDefaults.get? k) := by
  refine ⟨g.reread, g.listing, ofText_text (keysReadable_of_spellsIdentifier hk) hp,
    restores_reread h.wellFormed hp, fun n hn => ?_, fun e he => ?_⟩
  · -- What is shared with the defaults is not written, and comes back from them.
    have hn := hp.nodes n hn
    exact ⟨hn.get?_merge g.nodeDefaults, hn.entries_merge_eq_iff g.nodeDefaults⟩
  · exact (hp.edges e he).get?_merge g.edgeDefaults

/-- A graph with defaults, a node, and a cluster that holds a subgraph; its edges were
    made inside. -/
def cluster : Graph :=
  (({ nodeDefaults := (∅ : Attributes .node).putCustom "peripheries" "2" } : Graph).addNode
    ⟨"a", (∅ : Attributes .node).put "label" (.text "x") rfl⟩).subgraph "cluster" fun b =>
      (b.subgraph "inner" fun c => c.addEdge "a" "b" []).addEdge "b" "c"
        [(∅ : Attributes .edge).putCustom "penwidth" "3"]

/-- The cluster, which is built, is restored. -/
theorem cluster_restores : cluster.Reachable ∧
    (cluster.Every fun _ a => ∀ e ∈ a.entries, SpellsIdentifier e.1) ∧ cluster.Proper ∧
      ∃ g' order, Graph.ofText cluster.text = .ok g' ∧ cluster.Restores order g' := by
  have reachable : cluster.Reachable :=
    .subgraph "cluster" _ (.addNode _ (.setNodeDefaults _ (.new false)))
      (.addEdge "b" "c" _ (.subgraph "inner" _ (.refl _) (.addEdge "a" "b" [] (.refl _))))
  have nodes : cluster.nodes = [⟨"a", (∅ : Attributes .node).put "label" (.text "x") rfl⟩,
      ⟨"b", ∅⟩, ⟨"c", ∅⟩] := by decide +kernel
  have edges : cluster.edges.toList = [⟨"a", "b", ∅⟩,
      ⟨"b", "c", (∅ : Attributes .edge).putCustom "penwidth" "3"⟩] := by decide +kernel
  have keys : cluster.Every fun _ a => ∀ e ∈ a.entries, SpellsIdentifier e.1 := by
    decide +kernel
  have proper : cluster.Proper := by
    refine Every.iff_forall.2
      ⟨proper_empty, proper_empty.putCustom rfl _, proper_empty, ?_, ?_, ?_⟩
    · simp only [nodes, List.forall_mem_cons]
      exact ⟨proper_empty.put (v := .text "x") trivial rfl, proper_empty, proper_empty,
        List.forall_mem_nil _⟩
    · simp only [edges, List.forall_mem_cons]
      exact ⟨proper_empty, proper_empty.putCustom rfl _, List.forall_mem_nil _⟩
    · have attrs : ∀ s ∈ Subgraph.forest cluster.subgraphs, s.attrs = ∅ := by decide +kernel
      intro s hs
      rw [attrs s hs]
      exact proper_empty
  obtain ⟨g', order, hread, hrestores, -⟩ := ofText_text_restores reachable keys proper
  exact ⟨reachable, keys, proper, g', order, hread, hrestores⟩

/-! ### What has been read -/

mutual

theorem length_tree_rereadSubgraph (start : Nat) :
    (s : Subgraph) → (g.rereadSubgraph start s).tree.length = s.tree.length
  | ⟨name, attrs, nodeIds, edgeIndices, children⟩ => by
    rw [rereadSubgraph, Subgraph.tree_eq, Subgraph.tree_eq, List.length_append, List.length_append]
    exact congrArg (· + 1) (length_forest_rereadSubgraphs start children)

theorem length_forest_rereadSubgraphs (start : Nat) : (subs : List Subgraph) →
    (Subgraph.forest (g.rereadSubgraphs start subs)).length = (Subgraph.forest subs).length
  | [] => by rw [rereadSubgraphs]
  | s :: subs => by
    rw [rereadSubgraphs, Subgraph.forest_cons, Subgraph.forest_cons, List.length_append,
      List.length_append, length_tree_rereadSubgraph start s, length_forest_rereadSubgraphs _ subs]

end

theorem length_rereadSubgraphs (start : Nat) (subs : List Subgraph) :
    (g.rereadSubgraphs start subs).length = subs.length := by
  induction subs generalizing start with
  | nil => rw [rereadSubgraphs]
  | cons s subs ih => rw [rereadSubgraphs, List.length_cons, List.length_cons, ih]

/-- The edges in their order. -/
theorem filterMap_range_edges (g : Graph) :
    (List.range g.numEdges).filterMap (g.edges[·]?) = g.edges.toList := by
  have h := map_fst_filter_zipIdx g.edges.toList (fun _ => true) 0
  rw [List.filter_eq_self.2 fun _ _ => rfl, List.filter_eq_self.2 fun _ _ => rfl,
    List.zipIdx_map_fst] at h
  simp only [Nat.sub_zero, Array.getElem?_toList, Array.length_toList, ← List.range_eq_range'] at h
  exact h.symm

/-- The edges that are read again have the same ends. -/
theorem ends_reread_perm (hw : g.WellFormed) :
    (g.reread.edges.toList.map fun e => (e.tail, e.head)).Perm
      (g.edges.toList.map fun e => (e.tail, e.head)) := by
  rw [edges_reread, List.toList_toArray, List.map_map]
  have listed : g.listedEdges.Perm g.edges.toList := by
    rw [listedEdges_eq, ← filterMap_range_edges g]
    exact (listing_perm hw).filterMap _
  exact listed.map _

/-- The text of a graph that has been read has the lexemes that it is meant to have
    exactly if all keys are words where they are written. Reading it again then gives a
    graph with the same nodes and edges, the same keys of its own and as many subgraphs. -/
theorem ofText_text_of_keysReadable {text : String} (h : Graph.ofText text = .ok g) :
    ((Tokens.ofText g.text).lexemes = g.lexemes ↔ g.KeysReadable) ∧
      (g.KeysReadable → ∃ g', Graph.ofText g.text = .ok g' ∧
        (∀ id, g'.hasNode id = g.hasNode id) ∧
        (g'.edges.toList.map fun e => (e.tail, e.head)).Perm
          (g.edges.toList.map fun e => (e.tail, e.head)) ∧
        g'.attrs.entries.map Prod.fst = g.attrs.entries.map Prod.fst ∧
        g'.subgraphs.length = g.subgraphs.length ∧
        (Subgraph.forest g'.subgraphs).length = (Subgraph.forest g.subgraphs).length) := by
  have hw := (Reachable.ofText h).wellFormed
  have hp := proper_of_ofText h
  refine ⟨lexemes_text_iff, fun hk => ⟨g.reread, ofText_text hk hp, hasNode_reread hw hp,
    ends_reread_perm hw, rfl, length_rereadSubgraphs 0 g.subgraphs,
    length_forest_rereadSubgraphs 0 g.subgraphs⟩⟩

/-- A number may be a key of the graph, and then comes back as one. -/
theorem number_key_readable : ∃ g g',
    Graph.ofText "graph \x7b 1 = x; a [color = red]; a -- b \x7d" = .ok g ∧
    g.KeysReadable ∧ (Tokens.ofText g.text).lexemes = g.lexemes ∧ Graph.ofText g.text = .ok g' ∧
      g'.attrs.entries.map Prod.fst = ["1"] := by
  obtain ⟨g, hread, hkeys, hattrs⟩ := exists_of_toOption_any
    "graph \x7b 1 = x; a [color = red]; a -- b \x7d"
    (P := fun g => g.KeysReadable ∧ g.attrs.entries.map Prod.fst = ["1"]) (by decide +kernel)
  obtain ⟨hlexemes, hagain⟩ := ofText_text_of_keysReadable hread
  obtain ⟨g', hread', -, -, hattrs', -⟩ := hagain hkeys
  exact ⟨g, g', hread, hkeys, hlexemes.2 hkeys, hread', hattrs'.trans hattrs⟩

/-- A key in quotes that is no word is written without them, and then not read. -/
example : ∃ g, Graph.ofText "graph \x7b a [\"x y\" = 1] \x7d" = .ok g ∧
    (Graph.ofText g.text).isOk = false :=
  exists_of_toOption_any _ (by decide +kernel)

end Graph

end DotLang
