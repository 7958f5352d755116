import DotLang.Proofs.Listing.Replay

/-!
# What is read again

What the graph of a listing has to do with the graph that was listed, if that is well
formed and its attributes are proper. It has the same nodes and edges, with the
attributes that they share with the defaults added, the edges in the order in which
they are written, and the same tree of subgraphs.

* `Graph.attrs?_reread`: the nodes and their attributes;
* `Graph.listing`, `Graph.listing_perm`: the order of the edges;
* `Graph.rereadSubgraph_eq`: the subgraphs;
* `Graph.KeysReadable.reread`: what is read again can be read once more.
-/

namespace DotLang

open Attributes

variable {g : Graph}

/-! ### Nodes -/

/-- What is found under a name after something has been said about a node. -/
theorem NodeMap.attrs?_mention (template : Attributes .node) (m : NodeMap) (x : Mention)
    (id : String) :
    (m.mention template x).attrs? id =
      if id = x.1 then
        some (x.2.elim ((m.attrs? id).getD template) ((m.attrs? id).getD template).merge)
      else m.attrs? id := by
  obtain ⟨id', attrs⟩ := x
  cases attrs with
  | none =>
    rw [mention, attrs?_declare]
    by_cases h : id = id' <;> simp [h]
  | some attrs =>
    rw [mention, attrs?_modify, attrs?_declare, attrs?_declare]
    by_cases h : id = id' <;> simp [h]

/-- A node that has its attributes on top of the template keeps them. -/
theorem NodeMap.attrs?_foldl_mention_of_settled {template attrs : Attributes .node}
    {ms : List Mention} {m : NodeMap} {id : String}
    (hms : ∀ d, (id, some d) ∈ ms → template.merge d = template.merge attrs)
    (hm : m.attrs? id = some (template.merge attrs)) :
    (ms.foldl (mention template) m).attrs? id = some (template.merge attrs) := by
  induction ms generalizing m with
  | nil => exact hm
  | cons x ms ih =>
    refine ih (fun d hd => hms d (List.mem_cons_of_mem _ hd)) ?_
    obtain ⟨id', d⟩ := x
    rw [attrs?_mention, hm]
    split
    · next heq =>
      cases d with
      | none => rfl
      | some d =>
        have hd := hms d (by rw [heq]; exact List.mem_cons_self)
        show some ((template.merge attrs).merge d) = _
        rw [← hd, merge_merge_self]
    · rfl

/-- Whatever is said about a node, in any order, its attributes are in the end those
    of the node on top of the template, if its line is among it. -/
theorem NodeMap.attrs?_foldl_mention {template attrs : Attributes .node} {ms : List Mention}
    {m : NodeMap} {id : String}
    (hms : ∀ d, (id, some d) ∈ ms → template.merge d = template.merge attrs)
    (hm : m.attrs? id = none ∨ m.attrs? id = some template)
    (h : ∃ d, (id, some d) ∈ ms) :
    (ms.foldl (mention template) m).attrs? id = some (template.merge attrs) := by
  induction ms generalizing m with
  | nil =>
    obtain ⟨d, hd⟩ := h
    cases hd
  | cons x ms ih =>
    have later := fun d hd => hms d (List.mem_cons_of_mem x hd)
    obtain ⟨id', d⟩ := x
    rw [List.foldl_cons]
    by_cases heq : id = id'
    · have hget : (m.attrs? id).getD template = template := by
        rcases hm with hm | hm <;> rw [hm] <;> rfl
      cases d with
      | none =>
        -- An end of an edge, which says no more than that the node is there.
        refine ih later (.inr ?_) ?_
        · rw [attrs?_mention, if_pos heq, hget]
          rfl
        · obtain ⟨d, hd⟩ := h
          exact ⟨d, (List.mem_cons.1 hd).resolve_left (by simp)⟩
      | some d =>
        -- The line of the node, after which it is settled.
        refine attrs?_foldl_mention_of_settled later ?_
        rw [attrs?_mention, if_pos heq, hget, ← hms d (by rw [heq]; exact List.mem_cons_self)]
        rfl
    · refine ih later ?_ ?_
      · rw [attrs?_mention, if_neg heq]
        exact hm
      · obtain ⟨d, hd⟩ := h
        refine ⟨d, (List.mem_cons.1 hd).resolve_left fun h => heq ?_⟩
        exact congrArg Prod.fst h

theorem Edge.mem_ends {e : Edge} {id : String} : id ∈ e.ends ↔ id = e.tail ∨ id = e.head := by
  rw [ends, List.mem_cons, List.mem_singleton]

namespace Graph

mutual

theorem mem_subgraphMentions {x : Mention} : (s : Subgraph) → (x ∈ g.subgraphMentions s ↔
    ∃ t ∈ s.tree, x ∈ (g.subgraphNodes t).map g.nodeMention ∨
      x ∈ (g.subgraphEdges t).flatMap Edge.mentions)
  | ⟨name, attrs, nodeIds, edgeIndices, children⟩ => by
    rw [subgraphMentions]
    simp only [List.mem_append, mem_subgraphsMentions children, Subgraph.tree_eq,
      List.mem_singleton, or_and_right, exists_or, exists_eq_left]
    rw [or_comm (a := x ∈ List.map _ _), or_assoc]

theorem mem_subgraphsMentions {x : Mention} : (subs : List Subgraph) →
    (x ∈ g.subgraphsMentions subs ↔
      ∃ t ∈ Subgraph.forest subs, x ∈ (g.subgraphNodes t).map g.nodeMention ∨
        x ∈ (g.subgraphEdges t).flatMap Edge.mentions)
  | [] => by simp [subgraphsMentions]
  | s :: subs => by
    rw [subgraphsMentions, List.mem_append, mem_subgraphMentions s, mem_subgraphsMentions subs,
      Subgraph.forest_cons]
    simp only [List.mem_append, or_and_right, exists_or]

end

/-- Every node has a line, and nothing else than that and the ends of edges is said
    about nodes. -/
theorem mem_mentions {x : Mention} : x ∈ g.mentions ↔
    (∃ n ∈ g.nodes, g.nodeMention n = x) ∨
      ∃ e ∈ g.edges, x ∈ e.mentions := by
  simp only [mentions, List.mem_append, mem_subgraphsMentions, List.mem_map, List.mem_flatMap]
  constructor
  · rintro ((⟨t, -, ⟨n, hn, rfl⟩ | ⟨e, he, hx⟩⟩ | ⟨n, hn, rfl⟩) | ⟨e, he, hx⟩)
    · exact .inl ⟨n, (mem_subgraphNodes.1 hn).2, rfl⟩
    · exact .inr ⟨e, mem_edges_of_mem_subgraphEdges he, hx⟩
    · exact .inl ⟨n, (mem_looseNodes.1 hn).1, rfl⟩
    · exact .inr ⟨e, mem_edges_of_mem_looseEdges he, hx⟩
  · rintro (⟨n, hn, rfl⟩ | ⟨e, he, hx⟩)
    · rcases node_listed hn with h | ⟨t, ht, h⟩
      · exact .inl (.inr ⟨n, h, rfl⟩)
      · exact .inl (.inl ⟨t, ht, .inl ⟨n, h, rfl⟩⟩)
    · rcases edge_listed he with h | ⟨t, ht, h⟩
      · exact .inr ⟨e, h, hx⟩
      · exact .inl (.inl ⟨t, ht, .inr ⟨e, h, hx⟩⟩)

theorem mem_mentions_some {id : String} {d : Attributes .node} : (id, some d) ∈ g.mentions ↔
    ∃ attrs, g.nodeMap.attrs? id = some attrs ∧
      (∅ : Attributes .node).assignAll
        (withoutDefaults attrs.entries g.nodeDefaults.entries) = d := by
  rw [mem_mentions]
  constructor
  · rintro (⟨n, hn, h⟩ | ⟨e, -, h⟩)
    · obtain ⟨rfl, hd⟩ := Prod.mk.inj h
      exact ⟨n.attrs, mem_nodes.1 hn, Option.some.inj hd⟩
    · simp [Edge.mentions] at h
  · rintro ⟨attrs, hattrs, rfl⟩
    exact .inl ⟨⟨id, attrs⟩, mem_nodes.2 hattrs, rfl⟩

theorem WellFormed.hasNode_of_mem_ends (h : g.WellFormed) {e : Edge} (he : e ∈ g.edges)
    {id : String} (hid : id ∈ e.ends) : g.hasNode id = true := by
  obtain ⟨ht, hh⟩ := h.ends e he
  rcases Edge.mem_ends.1 hid with rfl | rfl
  · exact ht
  · exact hh

/-- Only nodes are spoken about. -/
theorem hasNode_of_mem_mentions (h : g.WellFormed) {id : String}
    (hid : id ∈ g.mentions.map Prod.fst) : g.hasNode id = true := by
  obtain ⟨x, hx, rfl⟩ := List.mem_map.1 hid
  rcases mem_mentions.1 hx with ⟨n, hn, rfl⟩ | ⟨e, he, hx⟩
  · exact hasNode_iff.2 (List.mem_map_of_mem hn)
  · obtain ⟨ht, hh⟩ := h.ends e he
    obtain ⟨other, hother, rfl⟩ := List.mem_map.1 hx
    rcases Edge.mem_ends.1 hother with rfl | rfl
    · exact ht
    · exact hh

/-- The nodes that are read again are those of the graph, with what they share with
    the defaults. -/
theorem attrs?_reread (h : g.WellFormed) (hp : g.Proper) (id : String) :
    g.reread.nodeMap.attrs? id = (g.nodeMap.attrs? id).map g.nodeDefaults.merge := by
  show (g.mentions.foldl (NodeMap.mention g.nodeDefaults) ∅).attrs? id = _
  cases hid : g.nodeMap.attrs? id with
  | none =>
    -- What is no node is not spoken about.
    refine Option.isNone_iff_eq_none.1 ?_
    rw [← Option.not_isSome, ← NodeMap.contains_eq_isSome, Bool.not_eq_true',
      Bool.eq_false_iff, Ne, NodeMap.contains_foldl_mention]
    rintro (hempty | hmem)
    · rw [NodeMap.contains_eq_isSome, NodeMap.attrs?_empty] at hempty
      cases hempty
    · have hnode : g.nodeMap.contains id = true := hasNode_of_mem_mentions h hmem
      rw [NodeMap.contains_eq_isSome, hid] at hnode
      cases hnode
  | some attrs =>
    -- A node has a line, and all of its lines say the same.
    refine NodeMap.attrs?_foldl_mention ?_ (.inl (NodeMap.attrs?_empty id)) ?_
    · intro d hd
      obtain ⟨attrs', hattrs, rfl⟩ := mem_mentions_some.1 hd
      obtain rfl : attrs = attrs' := Option.some.inj (hid.symm.trans hattrs)
      exact merge_assignAll_withoutDefaults hp.nodeDefaults (hp.attrs_of_attrs? hid)
    · exact ⟨_, mem_mentions_some.2 ⟨attrs, hid, rfl⟩⟩

theorem hasNode_reread (h : g.WellFormed) (hp : g.Proper) (id : String) :
    g.reread.hasNode id = g.hasNode id := by
  rw [hasNode, hasNode, NodeMap.contains_eq_isSome, NodeMap.contains_eq_isSome,
    attrs?_reread h hp, Option.isSome_map]

/-! ### Edges -/

theorem edges_reread (g : Graph) :
    g.reread.edges = (g.listedEdges.map (Edge.over g.edgeDefaults)).toArray := by
  show #[] ++ _ = _
  rw [Array.empty_append]

/-- The places of the edges, in the order in which the edges are written. -/
def listing (g : Graph) : List Nat :=
  Subgraph.recorded g.subgraphs ++
    (List.range g.numEdges).filter fun i => !Subgraph.anyRecordsEdge i g.subgraphs

theorem map_fst_filter_zipIdx {α : Type} (l : List α) (p : Nat → Bool) (k : Nat) :
    ((l.zipIdx k).filter fun x => p x.2).map Prod.fst =
      ((List.range' k l.length).filter p).filterMap fun i => l[i - k]? := by
  induction l generalizing k with
  | nil => rfl
  | cons a l ih =>
    have later : ((List.range' (k + 1) l.length).filter p).filterMap (fun i => (a :: l)[i - k]?) =
        ((List.range' (k + 1) l.length).filter p).filterMap fun i => l[i - (k + 1)]? := by
      refine OrderedMap.filterMap_congr_of_mem fun i hi => ?_
      have hk : k + 1 ≤ i := (List.mem_range'_1.1 (List.mem_filter.1 hi).1).1
      rw [show i - k = (i - (k + 1)) + 1 by omega, List.getElem?_cons_succ]
    rw [List.zipIdx_cons, List.length_cons, List.range'_succ, List.filter_cons, List.filter_cons]
    split
    · rw [List.map_cons, List.filterMap_cons, ih, later, Nat.sub_self, List.getElem?_cons_zero]
    · rw [ih, later]

theorem looseEdges_eq (g : Graph) : g.looseEdges =
    ((List.range g.numEdges).filter fun i =>
      !Subgraph.anyRecordsEdge i g.subgraphs).filterMap (g.edges[·]?) := by
  have h := map_fst_filter_zipIdx g.edges.toList
    (fun i => !Subgraph.anyRecordsEdge i g.subgraphs) 0
  simp only [Nat.sub_zero, Array.getElem?_toList, Array.length_toList, ← List.range_eq_range'] at h
  exact h

/-- The edges are written in the order of the listing. -/
theorem listedEdges_eq (g : Graph) : g.listedEdges = g.listing.filterMap (g.edges[·]?) := by
  rw [listedEdges, looseEdges_eq, listing, List.filterMap_append]
  rfl

/-- Each edge is written once. -/
theorem listing_perm (h : g.WellFormed) : g.listing.Perm (List.range g.numEdges) := by
  have recorded_lt : ∀ i ∈ Subgraph.recorded g.subgraphs, i < g.numEdges := by
    intro i hi
    obtain ⟨t, ht, hit⟩ := Subgraph.mem_recorded.1 hi
    obtain ⟨e, he, -⟩ := (h.valid t (by simpa using ht)).edges i hit
    exact (Array.getElem?_eq_some_iff.1 he).1
  have mem_loose : ∀ i, i ∈ (List.range g.numEdges).filter (fun i =>
      !Subgraph.anyRecordsEdge i g.subgraphs) ↔
        i < g.numEdges ∧ i ∉ Subgraph.recorded g.subgraphs := by
    intro i
    rw [List.mem_filter, List.mem_range, Subgraph.mem_recorded, Bool.not_eq_true',
      Bool.eq_false_iff, Ne, Subgraph.anyRecordsEdge_iff]
  -- The edges of subgraphs are recorded once, and the others are what is left.
  have hnodup : (Subgraph.recorded g.subgraphs).Nodup := by simpa using h.nodup
  refine (List.perm_ext_iff_of_nodup ?_ List.nodup_range).2 fun i => ?_
  · refine List.nodup_append.2 ⟨hnodup, List.nodup_range.filter _, ?_⟩
    rintro i hi j hj rfl
    exact ((mem_loose i).1 hj).2 hi
  · rw [listing, List.mem_append, mem_loose, List.mem_range]
    by_cases hi : i ∈ Subgraph.recorded g.subgraphs
    · exact ⟨fun _ => recorded_lt i hi, fun _ => .inl hi⟩
    · exact ⟨fun h => (h.resolve_left hi).1, fun h => .inr ⟨h, hi⟩⟩

/-! ### Subgraphs -/

/-- Names of nodes find their nodes. -/
theorem map_id_filterMap_node? {ids : List String} (h : ∀ id ∈ ids, g.hasNode id = true) :
    (ids.filterMap g.node?).map Node.id = ids := by
  have found : ∀ id ∈ ids, (g.node? id).map Node.id = some id := by
    intro id hid
    obtain ⟨n, hn⟩ := exists_node?_of_hasNode (h id hid)
    obtain ⟨-, rfl⟩ := node?_eq_some_iff.1 hn
    rw [hn]
    rfl
  rw [List.map_filterMap, OrderedMap.filterMap_congr_of_mem found, List.filterMap_some]

theorem map_id_subgraphNodes {s : Subgraph} (h : s.Valid g) :
    (g.subgraphNodes s).map Node.id = s.nodeIds.toList :=
  map_id_filterMap_node? fun id hid => h.nodes id (by simpa using hid)

/-- The edges of places at which there are edges. -/
theorem length_filterMap_edges {is : List Nat} (h : ∀ i ∈ is, ∃ e, g.edges[i]? = some e) :
    (is.filterMap (g.edges[·]?)).length = is.length := by
  induction is with
  | nil => rfl
  | cons i is ih =>
    obtain ⟨e, he⟩ := h i List.mem_cons_self
    rw [List.filterMap_cons, he, List.length_cons, List.length_cons,
      ih fun j hj => h j (List.mem_cons_of_mem _ hj)]

theorem length_subgraphEdges {s : Subgraph} (h : s.Valid g) :
    (g.subgraphEdges s).length = s.edgeIndices.size := by
  rw [subgraphEdges, length_filterMap_edges, Array.length_toList]
  intro i hi
  obtain ⟨e, he, -⟩ := h.edges i (by simpa using hi)
  exact ⟨e, he⟩

theorem length_forestEdges {subs : List Subgraph} (h : ∀ t ∈ Subgraph.forest subs, t.Valid g) :
    (g.forestEdges subs).length = (Subgraph.recorded subs).length := by
  refine length_filterMap_edges fun i hi => ?_
  obtain ⟨t, ht, hit⟩ := Subgraph.mem_recorded.1 hi
  obtain ⟨e, he, -⟩ := (h t ht).edges i hit
  exact ⟨e, he⟩

end Graph

/-- New members come behind those that are there. -/
theorem Subgraph.foldl_addMember_of_nodup {ids : List String} {members : Array String}
    (h : (members.toList ++ ids).Nodup) : ids.foldl addMember members = members ++ ids.toArray := by
  induction ids generalizing members with
  | nil => simp
  | cons id ids ih =>
    have new : ¬members.contains id = true := by
      rw [Array.contains_iff_mem]
      intro hmem
      exact (List.nodup_append.1 h).2.2 id (by simpa using hmem) id List.mem_cons_self rfl
    rw [List.foldl_cons, addMember, if_neg new, ih]
    · simp
    · simpa using h

/-- The subgraph that is read again: to its nodes come the ends of its edges, as far as
    they are not among them, and its edges are those that follow the edges inside. -/
theorem Graph.rereadSubgraph_eq (start : Nat) {s : Subgraph} (h : ∀ t ∈ s.tree, t.Valid g) :
    g.rereadSubgraph start s =
      { name := s.name
        attrs := s.attrs
        nodeIds := ((g.subgraphEdges s).flatMap Edge.ends).foldl Subgraph.addMember s.nodeIds
        edgeIndices := (List.range' (start + (Subgraph.recorded s.children).length)
          s.edgeIndices.size).toArray
        children := g.rereadSubgraphs start s.children } := by
  rw [Subgraph.forall_tree] at h
  have nodes := map_id_subgraphNodes h.2
  have edges := length_subgraphEdges h.2
  have inner := length_forestEdges h.1
  have members : s.nodeIds.toList.foldl Subgraph.addMember #[] = s.nodeIds := by
    rw [Subgraph.foldl_addMember_of_nodup (by simpa using h.2.nodup)]
    simp
  obtain ⟨name, attrs, nodeIds, edgeIndices, children⟩ := s
  rw [rereadSubgraph, nodes, edges, inner]
  simp only [Subgraph.registerAll, Subgraph.recordFrom, List.foldl_append, members,
    Array.empty_append]

theorem Graph.rereadSubgraphs_cons (start : Nat) {s : Subgraph} {subs : List Subgraph}
    (h : ∀ t ∈ s.tree, t.Valid g) :
    g.rereadSubgraphs start (s :: subs) = g.rereadSubgraph start s ::
      g.rereadSubgraphs (start + (Subgraph.recorded [s]).length) subs := by
  rw [rereadSubgraphs, length_forestEdges]
  simpa using h

namespace Graph

/-! ### Attributes -/

mutual

/-- The attributes of subgraphs come back. -/
theorem forall_tree_rereadSubgraph {P : Attributes .subgraph → Prop} (start : Nat) :
    (s : Subgraph) → (∀ t ∈ s.tree, P t.attrs) → ∀ t ∈ (g.rereadSubgraph start s).tree, P t.attrs
  | ⟨name, attrs, nodeIds, edgeIndices, children⟩, h => by
    rw [Subgraph.forall_tree] at h ⊢
    rw [rereadSubgraph]
    exact ⟨forall_forest_rereadSubgraphs start children h.1, h.2⟩

theorem forall_forest_rereadSubgraphs {P : Attributes .subgraph → Prop} (start : Nat) :
    (subs : List Subgraph) → (∀ t ∈ Subgraph.forest subs, P t.attrs) →
    ∀ t ∈ Subgraph.forest (g.rereadSubgraphs start subs), P t.attrs
  | [], _ => by
    rw [rereadSubgraphs]
    exact Subgraph.forall_forest_nil
  | s :: subs, h => by
    rw [Subgraph.forall_forest_cons] at h
    rw [rereadSubgraphs, Subgraph.forall_forest_cons]
    exact ⟨forall_tree_rereadSubgraph start s h.1, forall_forest_rereadSubgraphs _ subs h.2⟩

end

/-- What is true of sets of attributes on top of others stays true. -/
theorem Every.reread {P : (o : Owner) → Attributes o → Prop} (h : g.Every P)
    (hmerge : ∀ {o : Owner} {a b : Attributes o}, P o a → P o b → P o (a.merge b))
    (hw : g.WellFormed) (hp : g.Proper) : g.reread.Every P where
  attrs := h.attrs
  nodeDefaults := h.nodeDefaults
  edgeDefaults := h.edgeDefaults
  nodes n hn := by
    have found := mem_nodes.1 hn
    rw [attrs?_reread hw hp] at found
    obtain ⟨b, hb, heq⟩ := Option.map_eq_some_iff.1 found
    exact heq ▸ hmerge h.nodeDefaults (h.attrs_of_attrs? hb)
  edges e he := by
    rw [edges_reread, listedEdges_eq, List.mem_toArray] at he
    obtain ⟨e, hmem, rfl⟩ := List.mem_map.1 he
    obtain ⟨i, -, hi⟩ := List.mem_filterMap.1 hmem
    exact hmerge h.edgeDefaults (h.edges e (Array.mem_of_getElem? hi))
  subgraphs := forall_forest_rereadSubgraphs 0 g.subgraphs h.subgraphs

/-- What is read again can be read once more. -/
theorem KeysReadable.reread (h : g.KeysReadable) (hw : g.WellFormed) (hp : g.Proper) :
    g.reread.KeysReadable := by
  refine Every.reread h ?_ hw hp
  intro o a b ha hb e he
  have key : (b.get? e.1).isSome ∨ (a.get? e.1).isSome := by
    rw [← Bool.or_eq_true, ← isSome_get?_merge, mem_entries_iff.1 he]
    rfl
  rcases key with key | key
  · obtain ⟨s, hs⟩ := Option.isSome_iff_exists.1 key
    exact hb (e.1, s) (mem_entries_iff.2 hs)
  · obtain ⟨s, hs⟩ := Option.isSome_iff_exists.1 key
    exact ha (e.1, s) (mem_entries_iff.2 hs)

end Graph

end DotLang
