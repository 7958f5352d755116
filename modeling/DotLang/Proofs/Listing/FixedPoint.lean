import DotLang.Proofs.Listing.RoundTrip

/-!
# Texts that stay the same

Writing what has been read again gives the same text, except that a subgraph may have
new lines: those of the ends of its edges that were declared in subgraphs inside only.
Reading the new text puts them into the subgraph, so that the next text is the same.

* `Graph.lines_reread`: all lines but those of the subgraphs stay the same;
* `Graph.text_reread_eq_iff`: the text stays the same exactly if the ends of all edges
  made in a subgraph are declared in it;
* `Graph.ofText_text_fixed`: the text that is written second is written third.
-/

namespace DotLang

open Attributes

variable {g : Graph}

/-! ### Members -/

namespace Subgraph

theorem foldl_addMember_of_subset {ids : List String} {members : Array String}
    (h : ∀ id ∈ ids, id ∈ members) : ids.foldl addMember members = members := by
  induction ids with
  | nil => rfl
  | cons id ids ih =>
    rw [List.foldl_cons, addMember, if_pos (Array.contains_iff_mem.2 (h id List.mem_cons_self)),
      ih fun other ho => h other (List.mem_cons_of_mem _ ho)]

/-- The members that are added stand behind the others, and there are some unless all
    were members already. -/
theorem foldl_addMember_eq_append (ids : List String) (members : Array String) :
    ∃ added : List String, (ids.foldl addMember members).toList = members.toList ++ added ∧
      (∀ id ∈ added, id ∈ ids) ∧ (added = [] → ∀ id ∈ ids, id ∈ members) := by
  induction ids generalizing members with
  | nil => exact ⟨[], by simp, fun _ h => absurd h List.not_mem_nil,
      fun _ _ h => absurd h List.not_mem_nil⟩
  | cons id ids ih =>
    -- Only the first addition of a name that is no member matters.
    by_cases hid : members.contains id = true
    · obtain ⟨added, heq, hadded, hnone⟩ := ih members
      refine ⟨added, ?_, fun a ha => List.mem_cons_of_mem _ (hadded a ha), fun h => ?_⟩
      · rw [List.foldl_cons, addMember, if_pos hid, heq]
      · exact List.forall_mem_cons.2 ⟨Array.contains_iff_mem.1 hid, hnone h⟩
    · obtain ⟨added, heq, hadded, -⟩ := ih (members.push id)
      refine ⟨id :: added, ?_, ?_, fun h => absurd h (List.cons_ne_nil _ _)⟩
      · rw [List.foldl_cons, addMember, if_neg hid, heq]
        simp
      · exact List.forall_mem_cons.2
          ⟨List.mem_cons_self, fun a ha => List.mem_cons_of_mem _ (hadded a ha)⟩

theorem filter_addMember (p : String → Bool) (members : Array String) (id : String) :
    (addMember members id).filter p =
      if p id then addMember (members.filter p) id else members.filter p := by
  unfold addMember
  by_cases hid : members.contains id = true
  · rw [if_pos hid]
    split
    · next hp =>
      rw [if_pos]
      exact Array.contains_iff_mem.2 (Array.mem_filter.2 ⟨Array.contains_iff_mem.1 hid, hp⟩)
    · rfl
  · rw [if_neg hid, Array.filter_push]
    split
    · rw [if_neg]
      intro h
      exact hid (Array.contains_iff_mem.2 (Array.mem_filter.1 (Array.contains_iff_mem.1 h)).1)
    · rfl

/-- Adding members and choosing some can be exchanged. -/
theorem filter_foldl_addMember (p : String → Bool) (ids : List String) (members : Array String) :
    (ids.foldl addMember members).toList.filter p =
      ((ids.filter p).foldl addMember (members.filter p)).toList := by
  induction ids generalizing members with
  | nil => simp
  | cons id ids ih =>
    rw [List.foldl_cons, ih, List.filter_cons, filter_addMember]
    split <;> rfl

end Subgraph

/-! ### Lines of nodes and edges -/

namespace Graph

theorem nodeLine_reread (hp : g.Proper) {n : Node} (hn : n ∈ g.nodes) (depth : Nat) :
    g.reread.nodeLine depth ⟨n.id, g.nodeDefaults.merge n.attrs⟩ = g.nodeLine depth n := by
  show (⟨depth, .node n.id (withoutDefaults (g.nodeDefaults.merge n.attrs).entries
    g.nodeDefaults.entries)⟩ : Line) = _
  rw [(hp.nodes n hn).withoutDefaults_merge]
  rfl

theorem edgeLine_reread (hp : g.Proper) {e : Edge} (he : e ∈ g.edges) (depth : Nat) :
    g.reread.edgeLine depth (e.over g.edgeDefaults) = g.edgeLine depth e := by
  show (⟨depth, .edge e.tail e.head (withoutDefaults (g.edgeDefaults.merge e.attrs).entries
    g.edgeDefaults.entries)⟩ : Line) = _
  rw [(hp.edges e he).withoutDefaults_merge]
  rfl

/-- The lines of nodes by their names. -/
def idLines (g : Graph) (depth : Nat) (ids : List String) : List Line :=
  (ids.filterMap g.node?).map (g.nodeLine depth)

theorem idLines_append (depth : Nat) (ids ids' : List String) :
    g.idLines depth (ids ++ ids') = g.idLines depth ids ++ g.idLines depth ids' := by
  rw [idLines, List.filterMap_append, List.map_append]
  rfl

/-- Nodes that are read again have the same lines. -/
theorem idLines_reread (hw : g.WellFormed) (hp : g.Proper) (depth : Nat) (ids : List String) :
    g.reread.idLines depth ids = g.idLines depth ids := by
  simp only [idLines, List.map_filterMap]
  refine OrderedMap.filterMap_congr_of_mem fun id _ => ?_
  rw [node?_reread hw hp]
  cases hid : g.node? id with
  | none => rfl
  | some n => exact congrArg some (nodeLine_reread hp (node?_eq_some_iff.1 hid).1 depth)

/-- What is found at the place of an edge that is read again. -/
theorem getElem?_edges_reread (hw : g.WellFormed) (j : Nat) :
    g.reread.edges[j]? =
      (g.listing[j]?).bind fun i => (g.edges[i]?).map (Edge.over g.edgeDefaults) := by
  have found : ∀ i ∈ g.listing, i < g.edges.size := fun i hi =>
    List.mem_range.1 ((listing_perm hw).mem_iff.1 hi)
  rw [edges_reread, listedEdges_eq, List.map_filterMap, List.getElem?_toArray]
  generalize g.listing = is at found
  induction is generalizing j with
  | nil => rfl
  | cons i is ih =>
    have hi := Array.getElem?_eq_getElem (found i List.mem_cons_self)
    have later := fun j => ih j fun k hk => found k (List.mem_cons_of_mem _ hk)
    rw [List.filterMap_cons, hi]
    cases j with
    | zero => simp [hi]
    | succ j => simpa using later j

/-- The ends of all edges that were made in the subgraph itself are declared in it. -/
def EndsDeclared (g : Graph) (s : Subgraph) : Prop :=
  ∀ e ∈ g.subgraphEdges s, e.tail ∈ s.nodeIds ∧ e.head ∈ s.nodeIds

end Graph

/-! ### Subgraphs -/

namespace Subgraph

variable {s s' : Subgraph}

theorem restores_iff {order : List Nat} : s.Restores g order s' ↔
    s'.name = s.name ∧ s'.attrs = s.attrs ∧
      s'.nodeIds = ((g.subgraphEdges s).flatMap Edge.ends).foldl addMember s.nodeIds ∧
      s'.edgeIndices.toList.map (order[·]?) = s.edgeIndices.toList.map some ∧
      RestoresAll g order s.children s'.children := by
  obtain ⟨name, attrs, nodeIds, edgeIndices, children⟩ := s
  rw [Restores]
  rfl

theorem restoresAll_nil {order : List Nat} {subs' : List Subgraph} :
    RestoresAll g order [] subs' ↔ subs' = [] := by
  cases subs' with
  | nil => simp [RestoresAll]
  | cons s' subs' => simp [RestoresAll]

theorem restoresAll_cons {order : List Nat} {subs subs' : List Subgraph} :
    RestoresAll g order (s :: subs) subs' ↔
      ∃ s' later, subs' = s' :: later ∧ s.Restores g order s' ∧ RestoresAll g order subs later := by
  cases subs' with
  | nil => simp [RestoresAll]
  | cons s' later =>
    rw [RestoresAll]
    constructor
    · intro h
      exact ⟨s', later, rfl, h⟩
    · rintro ⟨_, _, heq, h⟩
      cases heq
      exact h

mutual

/-- Every subgraph of a tree that comes back is one that was there, and the other way
    round. -/
theorem Restores.tree {order : List Nat} : (s s' : Subgraph) → s.Restores g order s' →
    (∀ t' ∈ s'.tree, ∃ t ∈ s.tree, t.Restores g order t') ∧
      ∀ t ∈ s.tree, ∃ t' ∈ s'.tree, t.Restores g order t'
  | ⟨name, attrs, nodeIds, edgeIndices, children⟩, s', h => by
    obtain ⟨back, forth⟩ := RestoresAll.forest children s'.children (restores_iff.1 h).2.2.2.2
    simp only [tree_eq, List.forall_mem_append, List.forall_mem_singleton]
    simp only [List.mem_append, List.mem_singleton, or_and_right, exists_or, exists_eq_left]
    exact ⟨⟨fun t' ht' => .inl (back t' ht'), .inr h⟩, fun t ht => .inl (forth t ht), .inr h⟩

theorem RestoresAll.forest {order : List Nat} :
    (subs subs' : List Subgraph) → RestoresAll g order subs subs' →
    (∀ t' ∈ Subgraph.forest subs', ∃ t ∈ Subgraph.forest subs, t.Restores g order t') ∧
      ∀ t ∈ Subgraph.forest subs, ∃ t' ∈ Subgraph.forest subs', t.Restores g order t'
  | [], subs', h => by
    rw [restoresAll_nil.1 h, forest_nil]
    exact ⟨nofun, nofun⟩
  | s :: subs, subs', h => by
    obtain ⟨s', later, rfl, hs, hsubs⟩ := restoresAll_cons.1 h
    obtain ⟨back, forth⟩ := Restores.tree s s' hs
    obtain ⟨backLater, forthLater⟩ := RestoresAll.forest subs later hsubs
    simp only [forest_cons, List.forall_mem_append]
    simp only [List.mem_append, or_and_right, exists_or]
    exact ⟨⟨fun t' ht' => .inl (back t' ht'), fun t' ht' => .inr (backLater t' ht')⟩,
      fun t ht => .inl (forth t ht), fun t ht => .inr (forthLater t ht)⟩

end

/-- A subgraph that is read again has the same edges. -/
theorem Restores.subgraphEdges (h : s.Restores g g.listing s') (hw : g.WellFormed) :
    g.reread.subgraphEdges s' = (g.subgraphEdges s).map (Edge.over g.edgeDefaults) := by
  obtain ⟨-, -, -, hindices, -⟩ := restores_iff.1 h
  let F : Option Nat → Option Edge := fun i =>
    i.bind fun i => (g.edges[i]?).map (Edge.over g.edgeDefaults)
  have found : ∀ j ∈ s'.edgeIndices.toList, g.reread.edges[j]? = F (g.listing[j]?) :=
    fun j _ => Graph.getElem?_edges_reread hw j
  rw [Graph.subgraphEdges, OrderedMap.filterMap_congr_of_mem found, Graph.subgraphEdges,
    List.map_filterMap]
  show s'.edgeIndices.toList.filterMap (F ∘ (g.listing[·]?)) = _
  rw [← List.filterMap_map, hindices, List.filterMap_map]
  rfl

theorem mem_ends_iff {e : Edge} {ids : Array String} :
    (∀ id ∈ e.ends, id ∈ ids) ↔ e.tail ∈ ids ∧ e.head ∈ ids := by
  simp [Edge.ends]

/-- The nodes that are added to a subgraph are ends of its edges, and none is added
    exactly if the ends are declared. -/
theorem Restores.nodeIds (h : s.Restores g g.listing s') (hw : g.WellFormed) :
    ∃ added : List String, s'.nodeIds.toList = s.nodeIds.toList ++ added ∧
      (∀ id ∈ added, g.hasNode id = true) ∧ (added = [] ↔ g.EndsDeclared s) := by
  obtain ⟨-, -, hnodes, -, -⟩ := restores_iff.1 h
  obtain ⟨added, heq, hadded, hnone⟩ :=
    foldl_addMember_eq_append ((g.subgraphEdges s).flatMap Edge.ends) s.nodeIds
  have declared_iff : g.EndsDeclared s ↔
      ∀ id ∈ (g.subgraphEdges s).flatMap Edge.ends, id ∈ s.nodeIds := by
    rw [List.forall_mem_flatMap]
    exact forall₂_congr fun e _ => mem_ends_iff.symm
  refine ⟨added, by rw [hnodes, heq], fun id hid => ?_, fun h => ?_, fun h => ?_⟩
  · obtain ⟨e, he, hend⟩ := List.mem_flatMap.1 (hadded id hid)
    exact hw.hasNode_of_mem_ends (Graph.mem_edges_of_mem_subgraphEdges he) hend
  · exact declared_iff.2 (hnone h)
  · rw [foldl_addMember_of_subset (declared_iff.1 h)] at heq
    exact List.self_eq_append_right.1 heq

end Subgraph

/-! ### How long lines are -/

/-- The number of characters of lines. -/
def linesLength (directed : Bool) (lines : List Line) : Nat :=
  (lines.map (Line.chars directed)).flatten.length

theorem linesLength_append (directed : Bool) (ls ms : List Line) :
    linesLength directed (ls ++ ms) = linesLength directed ls + linesLength directed ms := by
  rw [linesLength, List.map_append, List.flatten_append, List.length_append]
  rfl

/-- No line is empty. -/
theorem eq_nil_of_linesLength {directed : Bool} {lines : List Line}
    (h : linesLength directed lines = 0) : lines = [] := by
  cases lines with
  | nil => rfl
  | cons l lines => simp [linesLength, Line.chars] at h

namespace Graph

/-- Nodes have lines. -/
theorem eq_nil_of_idLines {depth : Nat} {ids : List String} (hids : ∀ id ∈ ids, g.hasNode id = true)
    (h : g.idLines depth ids = []) : ids = [] := by
  cases ids with
  | nil => rfl
  | cons id ids =>
    obtain ⟨n, hn⟩ := exists_node?_of_hasNode (hids id List.mem_cons_self)
    rw [idLines, List.filterMap_cons, hn] at h
    cases h

/-- The lines of a subgraph that is read again. -/
theorem subgraphLines_reread (hw : g.WellFormed) (hp : g.Proper) {s s' : Subgraph}
    (h : s.Restores g g.listing s') (depth : Nat) :
    g.reread.subgraphLines depth s' = [⟨depth, .opening s.name?⟩]
      ++ assignLines (depth + 1) s.attrs.entries
      ++ g.idLines (depth + 1) s'.nodeIds.toList
      ++ g.reread.subgraphsLines (depth + 1) s'.children
      ++ (g.subgraphEdges s).map (g.edgeLine (depth + 1))
      ++ [⟨depth, .closing⟩] := by
  obtain ⟨hname, hattrs, -, -, -⟩ := Subgraph.restores_iff.1 h
  have edges : (g.reread.subgraphEdges s').map (g.reread.edgeLine (depth + 1)) =
      (g.subgraphEdges s).map (g.edgeLine (depth + 1)) := by
    rw [h.subgraphEdges hw, List.map_map]
    exact List.map_congr_left fun e he =>
      edgeLine_reread hp (mem_edges_of_mem_subgraphEdges he) (depth + 1)
  have nodes : (g.reread.subgraphNodes s').map (g.reread.nodeLine (depth + 1)) =
      g.idLines (depth + 1) s'.nodeIds.toList := idLines_reread hw hp (depth + 1) _
  have name : s'.name? = s.name? := by
    rw [Subgraph.name?, hname]
    rfl
  rw [subgraphLines_eq, edges, nodes, name, hattrs]

mutual

/-- A subgraph in which the ends of all edges are declared keeps its lines. -/
theorem subgraphLines_reread_eq (hw : g.WellFormed) (hp : g.Proper) (depth : Nat) :
    (s s' : Subgraph) → s.Restores g g.listing s' → (∀ t ∈ s.tree, g.EndsDeclared t) →
    g.reread.subgraphLines depth s' = g.subgraphLines depth s
  | ⟨name, attrs, nodeIds, edgeIndices, children⟩, s', h, hs => by
    rw [Subgraph.forall_tree] at hs
    obtain ⟨added, hadded, -, hnone⟩ := h.nodeIds hw
    have inner := subgraphsLines_reread_eq hw hp (depth + 1) children s'.children
      (Subgraph.restores_iff.1 h).2.2.2.2 hs.1
    rw [subgraphLines_reread hw hp h, inner, hadded, hnone.2 hs.2, List.append_nil,
      subgraphLines_eq]
    rfl

theorem subgraphsLines_reread_eq (hw : g.WellFormed) (hp : g.Proper) (depth : Nat) :
    (subs subs' : List Subgraph) → Subgraph.RestoresAll g g.listing subs subs' →
    (∀ t ∈ Subgraph.forest subs, g.EndsDeclared t) →
    g.reread.subgraphsLines depth subs' = g.subgraphsLines depth subs
  | [], subs', h, _ => by
    rw [Subgraph.restoresAll_nil.1 h, subgraphsLines, subgraphsLines]
  | s :: subs, subs', h, hs => by
    obtain ⟨s', later, rfl, h, h'⟩ := Subgraph.restoresAll_cons.1 h
    rw [Subgraph.forall_forest_cons] at hs
    rw [subgraphsLines, subgraphsLines, subgraphLines_reread_eq hw hp depth s s' h hs.1,
      subgraphsLines_reread_eq hw hp depth subs later h' hs.2]

end

mutual

/-- The lines of a subgraph do not get shorter, and stay as long as they are only if the
    ends of all edges are declared. -/
theorem le_subgraphLines_reread (hw : g.WellFormed) (hp : g.Proper) (directed : Bool)
    (depth : Nat) :
    (s s' : Subgraph) → s.Restores g g.listing s' →
    linesLength directed (g.subgraphLines depth s) ≤
        linesLength directed (g.reread.subgraphLines depth s') ∧
      (linesLength directed (g.reread.subgraphLines depth s') ≤
        linesLength directed (g.subgraphLines depth s) → ∀ t ∈ s.tree, g.EndsDeclared t)
  | ⟨name, attrs, nodeIds, edgeIndices, children⟩, s', h => by
    let s : Subgraph := ⟨name, attrs, nodeIds, edgeIndices, children⟩
    obtain ⟨added, hadded, hnodes, hnone⟩ := h.nodeIds hw
    obtain ⟨hle, heq⟩ := le_subgraphsLines_reread hw hp directed (depth + 1) children s'.children
      (Subgraph.restores_iff.1 h).2.2.2.2
    have own : (g.subgraphNodes s).map (g.nodeLine (depth + 1)) =
        g.idLines (depth + 1) nodeIds.toList := rfl
    rw [subgraphLines_reread hw hp h, subgraphLines_eq, own, hadded, idLines_append]
    simp only [linesLength_append]
    -- Only the lines of nodes and of subgraphs inside can get longer, and neither shorter.
    refine ⟨by omega, fun hsame => ?_⟩
    have short : linesLength directed (g.idLines (depth + 1) added) = 0 := by omega
    rw [Subgraph.forall_tree]
    refine ⟨heq (by omega), hnone.1 ?_⟩
    exact eq_nil_of_idLines hnodes (eq_nil_of_linesLength short)

theorem le_subgraphsLines_reread (hw : g.WellFormed) (hp : g.Proper) (directed : Bool)
    (depth : Nat) :
    (subs subs' : List Subgraph) → Subgraph.RestoresAll g g.listing subs subs' →
    linesLength directed (g.subgraphsLines depth subs) ≤
        linesLength directed (g.reread.subgraphsLines depth subs') ∧
      (linesLength directed (g.reread.subgraphsLines depth subs') ≤
        linesLength directed (g.subgraphsLines depth subs) →
          ∀ t ∈ Subgraph.forest subs, g.EndsDeclared t)
  | [], subs', h => by
    rw [Subgraph.restoresAll_nil.1 h, subgraphsLines, subgraphsLines, Subgraph.forest_nil]
    exact ⟨Nat.le_refl _, nofun⟩
  | s :: subs, subs', h => by
    obtain ⟨s', later, rfl, h, h'⟩ := Subgraph.restoresAll_cons.1 h
    obtain ⟨hle, heq⟩ := le_subgraphLines_reread hw hp directed depth s s' h
    obtain ⟨hle', heq'⟩ := le_subgraphsLines_reread hw hp directed depth subs later h'
    rw [subgraphsLines, subgraphsLines, linesLength_append, linesLength_append,
      Subgraph.forest_cons, List.forall_mem_append]
    exact ⟨by omega, fun hsame => ⟨heq (by omega), heq' (by omega)⟩⟩

end

/-! ### Nodes and edges in no subgraph -/

/-- The end of an edge that was made in a subgraph is in the subgraph or in one inside of
    it. -/
theorem anyContainsNode_of_mem_ends (hw : g.WellFormed) {t : Subgraph}
    (ht : t ∈ Subgraph.forest g.subgraphs) {id : String}
    (hid : id ∈ (g.subgraphEdges t).flatMap Edge.ends) :
    Subgraph.anyContainsNode id g.subgraphs = true := by
  obtain ⟨e, he, hend⟩ := List.mem_flatMap.1 hid
  obtain ⟨i, hit, hi⟩ := mem_subgraphEdges.1 he
  obtain ⟨e', he', htail, hhead⟩ := (hw.valid_subgraphs t ht).edges i hit
  obtain rfl : e = e' := Option.some.inj (hi.symm.trans he')
  have inside : t.containsNode id = true := by
    rcases Edge.mem_ends.1 hend with rfl | rfl
    · exact htail
    · exact hhead
  obtain ⟨u, hu, hid⟩ := (Subgraph.containsNode_iff id t).1 inside
  exact (Subgraph.anyContainsNode_iff id _).2 ⟨u, Subgraph.mem_forest_trans _ ht hu, hid⟩

/-- The same nodes are in subgraphs. -/
theorem anyContainsNode_reread (hw : g.WellFormed) (hp : g.Proper) (id : String) :
    Subgraph.anyContainsNode id g.reread.subgraphs = Subgraph.anyContainsNode id g.subgraphs := by
  obtain ⟨back, forth⟩ :=
    Subgraph.RestoresAll.forest g.subgraphs g.reread.subgraphs (restores_reread hw hp).subgraphs
  rw [Bool.eq_iff_iff, Subgraph.anyContainsNode_iff id g.reread.subgraphs]
  -- A node that is added to a subgraph was in one inside of it before.
  constructor
  · rintro ⟨t', ht', hid⟩
    obtain ⟨t, ht, h⟩ := back t' ht'
    rw [(Subgraph.restores_iff.1 h).2.2.1, Subgraph.mem_foldl_addMember] at hid
    rcases hid with hid | hid
    · exact (Subgraph.anyContainsNode_iff id _).2 ⟨t, ht, hid⟩
    · exact anyContainsNode_of_mem_ends hw ht hid
  · intro hid
    obtain ⟨t, ht, hid⟩ := (Subgraph.anyContainsNode_iff id _).1 hid
    obtain ⟨t', ht', h⟩ := forth t ht
    refine ⟨t', ht', ?_⟩
    rw [(Subgraph.restores_iff.1 h).2.2.1]
    exact Subgraph.mem_foldl_addMember.2 (.inl hid)

/-- The names of the nodes in no subgraph. -/
def looseIds (g : Graph) : List String :=
  g.nodeMap.keys.toList.filter fun id => !Subgraph.anyContainsNode id g.subgraphs

theorem nodes_eq (g : Graph) : g.nodes = g.nodeMap.keys.toList.filterMap g.node? := by
  rfl

theorem looseNodes_eq (g : Graph) : g.looseNodes = g.looseIds.filterMap g.node? := by
  rw [looseNodes, nodes_eq, looseIds, List.filter_filterMap, List.filterMap_filter]
  refine OrderedMap.filterMap_congr_of_mem fun id _ => ?_
  cases hid : g.node? id with
  | none => simp
  | some n =>
    obtain ⟨-, rfl⟩ := node?_eq_some_iff.1 hid
    rw [Option.filter_some]

theorem keys_reread (g : Graph) : g.reread.nodeMap.keys =
    (g.mentions.map Prod.fst).foldl Subgraph.addMember #[] :=
  NodeMap.keys_foldl_mention g.nodeDefaults g.mentions ∅

theorem map_fst_mentions (es : List Edge) :
    (es.flatMap Edge.mentions).map Prod.fst = es.flatMap Edge.ends := by
  rw [List.map_flatMap]
  rfl

theorem mem_looseIds {id : String} : id ∈ g.looseIds ↔
    g.hasNode id = true ∧ (!Subgraph.anyContainsNode id g.subgraphs) = true := by
  rw [looseIds, List.mem_filter, Array.mem_toList_iff, hasNode, NodeMap.contains_iff]

/-- The lines of subgraphs speak about nodes in subgraphs only. -/
theorem anyContainsNode_of_mem_subgraphsMentions (hw : g.WellFormed) {x : Mention}
    (hx : x ∈ g.subgraphsMentions g.subgraphs) :
    Subgraph.anyContainsNode x.1 g.subgraphs = true := by
  obtain ⟨t, ht, hx | hx⟩ := (mem_subgraphsMentions g.subgraphs).1 hx
  · obtain ⟨n, hn, rfl⟩ := List.mem_map.1 hx
    exact (Subgraph.anyContainsNode_iff n.id _).2 ⟨t, ht, (mem_subgraphNodes.1 hn).1⟩
  · refine anyContainsNode_of_mem_ends hw ht ?_
    rw [← map_fst_mentions]
    exact List.mem_map_of_mem hx

/-- The nodes in no subgraph stay the same, in the same order: the ends of edges are
    among them or in subgraphs. -/
theorem looseIds_reread (hw : g.WellFormed) (hp : g.Proper) : g.reread.looseIds = g.looseIds := by
  let p : String → Bool := fun id => !Subgraph.anyContainsNode id g.subgraphs
  have members : g.looseIds.foldl Subgraph.addMember #[] = g.looseIds.toArray := by
    have nodup : g.looseIds.Nodup := g.nodeMap.byName.nodup.filter p
    rw [Subgraph.foldl_addMember_of_nodup (by simpa using nodup), Array.empty_append]
  have same : g.reread.looseIds = g.reread.nodeMap.keys.toList.filter p := by
    refine List.filter_congr fun id _ => ?_
    rw [anyContainsNode_reread hw hp]
  -- What is said about nodes in the subgraphs, by the lines of the other nodes, and by those
  -- of the other edges.
  have inside : (((g.subgraphsMentions g.subgraphs).map Prod.fst).filter p) = [] := by
    refine List.filter_eq_nil_iff.2 fun id hid => ?_
    obtain ⟨x, hx, rfl⟩ := List.mem_map.1 hid
    rw [Bool.not_eq_true, Bool.not_eq_false']
    exact anyContainsNode_of_mem_subgraphsMentions hw hx
  have loose : ((g.looseNodes.map g.nodeMention).map Prod.fst).filter p = g.looseIds := by
    have ids : (g.looseNodes.map g.nodeMention).map Prod.fst = g.looseIds := by
      rw [List.map_map, looseNodes_eq]
      exact map_id_filterMap_node? fun id hid => (mem_looseIds.1 hid).1
    rw [ids]
    exact List.filter_eq_self.2 fun id hid => (mem_looseIds.1 hid).2
  have ends : ∀ id ∈ ((g.looseEdges.flatMap Edge.mentions).map Prod.fst).filter p,
      id ∈ g.looseIds.toArray := by
    intro id hid
    obtain ⟨hid, hp⟩ := List.mem_filter.1 hid
    rw [map_fst_mentions] at hid
    obtain ⟨e, he, hend⟩ := List.mem_flatMap.1 hid
    rw [List.mem_toArray]
    exact mem_looseIds.2 ⟨hw.hasNode_of_mem_ends (mem_edges_of_mem_looseEdges he) hend, hp⟩
  rw [same, keys_reread, Subgraph.filter_foldl_addMember, mentions, List.map_append,
    List.map_append, List.filter_append, List.filter_append, inside, loose, List.nil_append,
    List.foldl_append]
  show (List.foldl _ (g.looseIds.foldl Subgraph.addMember #[]) _).toList = _
  rw [members, Subgraph.foldl_addMember_of_subset ends]

/-- Nodes in no subgraph keep their lines. -/
theorem looseNodes_reread (hw : g.WellFormed) (hp : g.Proper) (depth : Nat) :
    g.reread.looseNodes.map (g.reread.nodeLine depth) = g.looseNodes.map (g.nodeLine depth) := by
  rw [looseNodes_eq, looseNodes_eq, looseIds_reread hw hp]
  exact idLines_reread hw hp depth g.looseIds

mutual

/-- The subgraphs that are read again have recorded the edges one after the other. -/
theorem recorded_rereadSubgraph (start : Nat) : (s : Subgraph) → (∀ t ∈ s.tree, t.Valid g) →
    Subgraph.recorded [g.rereadSubgraph start s] =
      List.range' start (Subgraph.recorded [s]).length
  | ⟨name, attrs, nodeIds, edgeIndices, children⟩, h => by
    rw [rereadSubgraph_eq start h]
    rw [Subgraph.forall_tree] at h
    rw [Subgraph.recorded_cons, Subgraph.recorded_cons, recorded_rereadSubgraphs start children h.1,
      Subgraph.recorded_nil, List.append_nil, List.append_nil, List.length_append,
      List.toList_toArray, List.range'_append_1]
    rfl

theorem recorded_rereadSubgraphs (start : Nat) : (subs : List Subgraph) →
    (∀ t ∈ Subgraph.forest subs, t.Valid g) →
    Subgraph.recorded (g.rereadSubgraphs start subs) =
      List.range' start (Subgraph.recorded subs).length
  | [], _ => by
    rw [rereadSubgraphs, Subgraph.recorded_nil]
    rfl
  | s :: subs, h => by
    rw [Subgraph.forall_forest_cons] at h
    rw [rereadSubgraphs_cons start h.1, Subgraph.recorded_cons_eq_append s subs,
      Subgraph.recorded_cons_eq_append, recorded_rereadSubgraph start s h.1,
      recorded_rereadSubgraphs _ subs h.2, List.length_append, List.range'_append_1]

end

/-- What stands behind the first places is found at the others. -/
theorem filterMap_getElem?_behind {α : Type} (before l : List α) :
    ((List.range (before ++ l).length).filter fun i => !decide (i < before.length)).filterMap
      ((before ++ l)[·]?) = l := by
  have places : List.range (before ++ l).length =
      List.range' 0 before.length ++ List.range' before.length l.length := by
    rw [List.range_eq_range', List.length_append]
    simpa using (List.range'_append_1 (s := 0) (m := before.length) (n := l.length)).symm
  have first : (List.range' 0 before.length).filter (fun i => !decide (i < before.length)) = [] :=
    List.filter_eq_nil_iff.2 fun i hi => by
      have := (List.mem_range'_1.1 hi).2
      simpa using this
  have others : (List.range' before.length l.length).filter (fun i => !decide (i < before.length)) =
      List.range' before.length l.length :=
    List.filter_eq_self.2 fun i hi => by
      have := (List.mem_range'_1.1 hi).1
      simpa using this
  have found := map_getElem?_range' before l []
  rw [List.append_nil] at found
  rw [places, List.filter_append, first, others, List.nil_append]
  have h := congrArg (List.filterMap id) found
  rw [List.filterMap_map, List.filterMap_map] at h
  exact h.trans List.filterMap_some

/-- Edges in no subgraph keep their order. -/
theorem looseEdges_reread (hw : g.WellFormed) :
    g.reread.looseEdges = g.looseEdges.map (Edge.over g.edgeDefaults) := by
  let before := (g.forestEdges g.subgraphs).map (Edge.over g.edgeDefaults)
  let l := g.looseEdges.map (Edge.over g.edgeDefaults)
  have edges : g.reread.edges.toList = before ++ l := by
    rw [edges_reread, List.toList_toArray, listedEdges, List.map_append]
  have recorded : ∀ i,
      Subgraph.anyRecordsEdge i g.reread.subgraphs = decide (i < before.length) := by
    intro i
    have inside := recorded_rereadSubgraphs 0 g.subgraphs hw.valid_subgraphs
    have length : before.length = (Subgraph.recorded g.subgraphs).length := by
      rw [List.length_map, length_forestEdges hw.valid_subgraphs]
    rw [Bool.eq_iff_iff, Subgraph.anyRecordsEdge_iff, ← Subgraph.mem_recorded, decide_eq_true_iff,
      length]
    show i ∈ Subgraph.recorded (g.rereadSubgraphs 0 g.subgraphs) ↔ _
    rw [inside, List.mem_range'_1, Nat.zero_add]
    exact and_iff_right (Nat.zero_le i)
  have size : g.reread.numEdges = (before ++ l).length := by
    rw [← edges]
    rfl
  rw [looseEdges_eq, size]
  simp only [recorded, ← Array.getElem?_toList, edges]
  exact filterMap_getElem?_behind before l

/-- Edges in no subgraph keep their lines. -/
theorem looseEdgeLines_reread (hw : g.WellFormed) (hp : g.Proper) (depth : Nat) :
    g.reread.looseEdges.map (g.reread.edgeLine depth) = g.looseEdges.map (g.edgeLine depth) := by
  rw [looseEdges_reread hw, List.map_map]
  exact List.map_congr_left fun e he => edgeLine_reread hp (mem_edges_of_mem_looseEdges he) depth

/-! ### The whole text -/

/-- Only the lines of the subgraphs change. -/
theorem lines_reread (hw : g.WellFormed) (hp : g.Proper) : g.reread.lines =
    assignLines 1 g.attrs.entries
      ++ defaultsLines "node" g.nodeDefaults.entries
      ++ defaultsLines "edge" g.edgeDefaults.entries
      ++ g.reread.subgraphsLines 1 g.reread.subgraphs
      ++ g.looseNodes.map (g.nodeLine 1)
      ++ g.looseEdges.map (g.edgeLine 1) := by
  rw [lines, looseNodes_reread hw hp, looseEdgeLines_reread hw hp]
  rfl

/-- How long the text is. -/
theorem length_chars (g : Graph) :
    g.chars.length = g.titleChars.length + linesLength g.directed g.lines + 1 := by
  rw [chars, pieces, List.flatten_cons, List.flatten_append, List.length_append,
    List.length_append, linesLength]
  simp only [List.flatten_cons, List.flatten_nil, List.append_nil, List.length_singleton]
  omega

/-- The text stays the same exactly if the ends of all edges are declared in the
    subgraphs in which they were made: otherwise it gets longer. -/
theorem text_reread_eq_iff (hw : g.WellFormed) (hp : g.Proper) :
    g.reread.text = g.text ↔ ∀ s ∈ Subgraph.forest g.subgraphs, g.EndsDeclared s := by
  have subgraphs := (restores_reread hw hp).subgraphs
  constructor
  · intro h
    have length : g.reread.chars.length = g.chars.length := by
      rw [← String.toList_ofList (l := g.reread.chars), ← String.toList_ofList (l := g.chars)]
      exact congrArg (fun text : String => text.toList.length) h
    have title : g.reread.titleChars = g.titleChars := rfl
    have directed : g.reread.directed = g.directed := rfl
    rw [length_chars, length_chars, lines_reread hw hp, lines, title, directed] at length
    simp only [linesLength_append] at length
    -- All other lines are the same, so those of the subgraphs are as long as they were.
    refine (le_subgraphsLines_reread hw hp g.directed 1 g.subgraphs g.reread.subgraphs
      subgraphs).2 ?_
    omega
  · intro h
    have lines : g.reread.lines = g.lines := by
      rw [lines_reread hw hp, subgraphsLines_reread_eq hw hp 1 g.subgraphs g.reread.subgraphs
        subgraphs h]
      rfl
    rw [text, chars, pieces, lines]
    rfl

/-- In what has been read again the ends of all edges are declared. -/
theorem endsDeclared_reread (hw : g.WellFormed) (hp : g.Proper) :
    ∀ s ∈ Subgraph.forest g.reread.subgraphs, g.reread.EndsDeclared s := by
  intro s' hs' e' he'
  obtain ⟨back, -⟩ :=
    Subgraph.RestoresAll.forest g.subgraphs g.reread.subgraphs (restores_reread hw hp).subgraphs
  -- The ends of the edges have been added to the nodes of the subgraph.
  obtain ⟨s, -, h⟩ := back s' hs'
  rw [h.subgraphEdges hw] at he'
  obtain ⟨e, he, rfl⟩ := List.mem_map.1 he'
  have ends : ∀ id ∈ e.ends, id ∈ s'.nodeIds := by
    intro id hid
    rw [(Subgraph.restores_iff.1 h).2.2.1, Subgraph.mem_foldl_addMember]
    exact .inr (List.mem_flatMap.2 ⟨e, he, hid⟩)
  exact Subgraph.mem_ends_iff.1 ends

/-- What is written from a text that has been read can be read, and what is written from
    that as well. The two texts are the same exactly if in every subgraph, at every depth,
    the ends of the edges made in it are declared in the subgraph itself. The second text
    is written again from what it is read as. -/
theorem ofText_text_fixed {text : String} (h : Graph.ofText text = .ok g)
    (hk : g.Every fun _ a => ∀ e ∈ a.entries, SpellsIdentifier e.1) :
    ∃ g₁ g₂, Graph.ofText g.text = .ok g₁ ∧ Graph.ofText g₁.text = .ok g₂ ∧
      (g₁.text = g.text ↔ ∀ s ∈ Subgraph.forest g.subgraphs,
        ∀ e ∈ g.subgraphEdges s, e.tail ∈ s.nodeIds ∧ e.head ∈ s.nodeIds) ∧
      g₂.text = g₁.text := by
  have hw := (Reachable.ofText h).wellFormed
  have hp := proper_of_ofText h
  have readable := keysReadable_of_spellsIdentifier hk
  have first := ofText_text readable hp
  have hw₁ := (Reachable.ofText first).wellFormed
  have hp₁ := proper_of_ofText first
  have second := ofText_text (readable.reread hw hp) hp₁
  exact ⟨g.reread, g.reread.reread, first, second, text_reread_eq_iff hw hp,
    (text_reread_eq_iff hw₁ hp₁).2 (endsDeclared_reread hw hp)⟩

/-- An edge whose ends are declared further inside: the first text is not written again,
    the second is. -/
theorem inner_ends_fixed : ∃ g g₁ g₂,
    Graph.ofText "graph \x7b subgraph s \x7b \x7b a \x7d -- \x7b b \x7d \x7d \x7d" = .ok g ∧
      (g.Every fun _ a => ∀ e ∈ a.entries, SpellsIdentifier e.1) ∧
      Graph.ofText g.text = .ok g₁ ∧ Graph.ofText g₁.text = .ok g₂ ∧
      g₁.text ≠ g.text ∧ g₂.text = g₁.text := by
  obtain ⟨g, hread, hkeys, hends⟩ := exists_of_toOption_any
    "graph \x7b subgraph s \x7b \x7b a \x7d -- \x7b b \x7d \x7d \x7d"
    (P := fun g => (g.Every fun _ a => ∀ e ∈ a.entries, SpellsIdentifier e.1) ∧
      ¬∀ s ∈ Subgraph.forest g.subgraphs,
        ∀ e ∈ g.subgraphEdges s, e.tail ∈ s.nodeIds ∧ e.head ∈ s.nodeIds) (by decide +kernel)
  obtain ⟨g₁, g₂, first, second, same_iff, fixed⟩ := ofText_text_fixed hread hkeys
  exact ⟨g, g₁, g₂, hread, hkeys, first, second, fun same => hends (same_iff.1 same), fixed⟩

end Graph

end DotLang
