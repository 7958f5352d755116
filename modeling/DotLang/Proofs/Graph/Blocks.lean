import DotLang.Proofs.Graph.Acts
import DotLang.Proofs.Graph.Members

/-!
# Blocks

What statements put into the block that they stand in, which is the innermost open
subgraph or the graph: the nodes that they mention, the places of the edges that they
make, the attributes that they assign, and the subgraphs that they build. What stands
inside of inner braces goes into these.

An edge finds its ends in the block when it is made, for they are mentioned before. So
it does nothing but come behind the edges that are there.

* `Contents`, `Stmt.contents`: what statements put into their block;
* `runAll_puts`: statements put nothing else there;
* `Scope.connectChain_eq`: the edges of a chain whose sides have taken effect;
* `Endpoint.memberIds_eq`: the members of a subgraph that has been built are the nodes
  that its braces stand for.
-/

namespace DotLang

namespace Scope

/-- The edge of a chain between two nodes of neighbours. -/
def chainEdge (template : Attributes .edge) (pairs : Assignments) (l r : Endpoint)
    (tail head : String) : Edge :=
  ⟨tail, head, (template.merge (portAttrs l r)).merge ((∅ : Attributes .edge).assignAll pairs)⟩

/-- The edges of a chain: for each two neighbours, from each node of the left one to each
    node of the right one. -/
def chainEdges (template : Attributes .edge) (ends : List Endpoint) (pairs : Assignments) :
    List Edge :=
  (Endpoint.pairs ends).flatMap fun (l, r) =>
    l.ids.flatMap fun tail => r.ids.map fun head => chainEdge template pairs l r tail head

/-- The number of edges of a chain, whatever their attributes are. -/
def chainCount (ends : List Endpoint) : Nat := (chainEdges ∅ ends []).length

theorem length_chainEdges (template : Attributes .edge) (ends : List Endpoint)
    (pairs : Assignments) : (chainEdges template ends pairs).length = chainCount ends := by
  simp [chainCount, chainEdges, List.length_flatMap]

end Scope

/-! ### Contents -/

/-- What statements put into the block that they stand in. -/
structure Contents where
  /-- The nodes that they mention outside of inner braces. -/
  ids : List String := []
  /-- The places of the edges that they make outside of inner braces. -/
  indices : List Nat := []
  /-- What they assign to the block. -/
  pairs : Assignments := []
  /-- The subgraphs that they build. -/
  blocks : List Subgraph := []

/-- The contents of statements and of later ones. -/
instance : Append Contents where
  append c c' := ⟨c.ids ++ c'.ids, c.indices ++ c'.indices, c.pairs ++ c'.pairs,
    c.blocks ++ c'.blocks⟩

/-- Puts contents into a subgraph. -/
def Subgraph.fill (s : Subgraph) (c : Contents) : Subgraph where
  name := s.name
  attrs := s.attrs.assignAll c.pairs
  nodeIds := c.ids.foldl addMember s.nodeIds
  edgeIndices := s.edgeIndices ++ c.indices.toArray
  children := s.children ++ c.blocks

/-- Puts contents into a graph, which notes neither its nodes nor its edges. -/
def Graph.fill (g : Graph) (c : Contents) : Graph :=
  { g with attrs := g.attrs.assignAll c.pairs, subgraphs := g.subgraphs ++ c.blocks }

/-- Puts contents into the innermost open subgraph, or into the graph. -/
def Scope.fill (s : Scope) (c : Contents) : Scope :=
  match s.opened with
  | [] => { s with graph := s.graph.fill c }
  | sub :: outer => { s with opened := sub.fill c :: outer }

/-- The number of edges that an act makes. -/
def Act.edgeCount : Act → Nat
  | .connect ends _ => Scope.chainCount ends
  | _ => 0

/-- The number of edges that acts make. -/
def edgeCount : List Act → Nat
  | [] => 0
  | a :: acts => a.edgeCount + edgeCount acts

mutual

/-- What a side of an edge operator puts into its block, if there are already so many
    edges. -/
def Endpoint.contents (n : Nat) : Endpoint → Contents
  | .node ref => { ids := [ref.id] }
  | .subgraph name body => { blocks := [({ name := name } : Subgraph).fill (contentsAll n body)] }

/-- What a statement puts into its block, if there are already so many edges. -/
def Stmt.contents (n : Nat) : Stmt → Contents
  | .attributes target pairs => { pairs := if target = .scope then pairs else [] }
  | .node ref _ => { ids := [ref.id] }
  | .subgraph name body => { blocks := [({ name := name } : Subgraph).fill (contentsAll n body)] }
  | .edge ends _ =>
    contentsEnds n ends ++
      { indices := List.range' (n + edgeCount (actsEnds ends)) (Scope.chainCount ends) }

/-- What statements put into their block, if there are already so many edges. -/
def contentsAll (n : Nat) : List Stmt → Contents
  | [] => {}
  | stmt :: body => stmt.contents n ++ contentsAll (n + edgeCount stmt.acts) body

/-- What sides of edge operators put into their block, if there are already so many
    edges. -/
def contentsEnds (n : Nat) : List Endpoint → Contents
  | [] => {}
  | e :: ends => e.contents n ++ contentsEnds (n + edgeCount e.acts) ends

end

@[simp] theorem edgeCount_append (acts more : List Act) :
    edgeCount (acts ++ more) = edgeCount acts + edgeCount more := by
  induction acts with
  | nil => rw [List.nil_append, edgeCount, Nat.zero_add]
  | cons a acts ih => rw [List.cons_append, edgeCount, ih, edgeCount, Nat.add_assoc]

/-- Braces make no edges. -/
theorem edgeCount_block (name : String) (acts : List Act) :
    edgeCount (.enter name :: (acts ++ [.leave])) = edgeCount acts := by
  show 0 + edgeCount (acts ++ [.leave]) = edgeCount acts
  rw [Nat.zero_add, edgeCount_append]
  rfl

namespace Contents

variable (c c' : Contents)

@[simp] theorem ids_append : (c ++ c').ids = c.ids ++ c'.ids := rfl

@[simp] theorem indices_append : (c ++ c').indices = c.indices ++ c'.indices := rfl

@[simp] theorem pairs_append : (c ++ c').pairs = c.pairs ++ c'.pairs := rfl

@[simp] theorem blocks_append : (c ++ c').blocks = c.blocks ++ c'.blocks := rfl

end Contents

theorem Subgraph.fill_fill (s : Subgraph) (c c' : Contents) :
    (s.fill c).fill c' = s.fill (c ++ c') := by
  simp [fill, Attributes.assignAll]

theorem Subgraph.fill_empty (s : Subgraph) : s.fill {} = s := by
  cases s
  simp [fill, Attributes.assignAll]

theorem Graph.fill_empty (g : Graph) : g.fill {} = g := by
  simp [fill, Attributes.assignAll]

/-! ### What the braces of a side stand for -/

mutual

theorem Endpoint.ids_contents (n : Nat) : (e : Endpoint) → (e.contents n).ids = e.direct
  | .node ref => by rw [Endpoint.contents, Endpoint.direct]
  | .subgraph name body => by rw [Endpoint.contents, Endpoint.direct]

theorem Stmt.ids_contents (n : Nat) : (stmt : Stmt) → (stmt.contents n).ids = stmt.direct
  | .attributes target pairs => by rw [Stmt.contents, Stmt.direct]
  | .node ref pairs => by rw [Stmt.contents, Stmt.direct]
  | .subgraph name body => by rw [Stmt.contents, Stmt.direct]
  | .edge ends pairs => by
    rw [Stmt.contents, Stmt.direct, Contents.ids_append, ids_contentsEnds, List.append_nil]

theorem ids_contentsAll (n : Nat) :
    (body : List Stmt) → (contentsAll n body).ids = body.flatMap Stmt.direct
  | [] => by rw [contentsAll, List.flatMap_nil]
  | stmt :: body => by
    rw [contentsAll, Contents.ids_append, stmt.ids_contents, ids_contentsAll, List.flatMap_cons]

theorem ids_contentsEnds (n : Nat) :
    (ends : List Endpoint) → (contentsEnds n ends).ids = ends.flatMap Endpoint.direct
  | [] => by rw [contentsEnds, List.flatMap_nil]
  | e :: ends => by
    rw [contentsEnds, Contents.ids_append, e.ids_contents, ids_contentsEnds, List.flatMap_cons]

end

open Subgraph in
/-- A new subgraph that is filled adds its nodes to the members, and then those of the
    subgraphs inside. -/
theorem Subgraph.collectMembers_fill (members : Array String) (name : String) (c : Contents) :
    (({ name := name } : Subgraph).fill c).collectMembers members =
      collectAll (c.ids.foldl addMember members) c.blocks := by
  rw [fill, collectMembers, foldl_foldl_addMember, List.nil_append]
  rfl

mutual

theorem Endpoint.collectAll_blocks (n : Nat) (members : Array String) : (e : Endpoint) →
    Subgraph.collectAll members (e.contents n).blocks = e.inner.foldl Subgraph.addMember members
  | .node ref => by
    rw [Endpoint.contents, Endpoint.inner, Subgraph.collectAll, List.foldl_nil]
  | .subgraph name body => by
    rw [Endpoint.contents, Endpoint.inner, Subgraph.collectAll, Subgraph.collectAll,
      Subgraph.collectMembers_fill,
      ids_contentsAll, collectAll_blocksAll, List.foldl_append]

theorem Stmt.collectAll_blocks (n : Nat) (members : Array String) : (stmt : Stmt) →
    Subgraph.collectAll members (stmt.contents n).blocks =
      stmt.inner.foldl Subgraph.addMember members
  | .attributes target pairs => by
    rw [Stmt.contents, Stmt.inner, Subgraph.collectAll, List.foldl_nil]
  | .node ref pairs => by
    rw [Stmt.contents, Stmt.inner, Subgraph.collectAll, List.foldl_nil]
  | .subgraph name body => by
    rw [Stmt.contents, Stmt.inner, Subgraph.collectAll, Subgraph.collectAll,
      Subgraph.collectMembers_fill,
      ids_contentsAll, collectAll_blocksAll, List.foldl_append]
  | .edge ends pairs => by
    rw [Stmt.contents, Stmt.inner, Contents.blocks_append, List.append_nil, collectAll_blocksEnds]

theorem collectAll_blocksAll (n : Nat) (members : Array String) : (body : List Stmt) →
    Subgraph.collectAll members (contentsAll n body).blocks =
      (innerAll body).foldl Subgraph.addMember members
  | [] => by
    rw [contentsAll, innerAll, Subgraph.collectAll, List.foldl_nil]
  | stmt :: body => by
    rw [contentsAll, innerAll, Contents.blocks_append, Subgraph.collectAll_append,
      stmt.collectAll_blocks, collectAll_blocksAll, List.foldl_append]

theorem collectAll_blocksEnds (n : Nat) (members : Array String) : (ends : List Endpoint) →
    Subgraph.collectAll members (contentsEnds n ends).blocks =
      (innerEnds ends).foldl Subgraph.addMember members
  | [] => by
    rw [contentsEnds, innerEnds, Subgraph.collectAll, List.foldl_nil]
  | e :: ends => by
    rw [contentsEnds, innerEnds, Contents.blocks_append, Subgraph.collectAll_append,
      e.collectAll_blocks, collectAll_blocksEnds, List.foldl_append]

end

/-- The members of the subgraph that the braces of a side build are the nodes that the
    side stands for. -/
theorem Endpoint.memberIds_eq (n : Nat) (name : String) (body : List Stmt) :
    (({ name := name } : Subgraph).fill (contentsAll n body)).memberIds.toList =
      (Endpoint.subgraph name body).ids := by
  rw [Subgraph.memberIds, Subgraph.collectMembers_fill, ids_contentsAll, collectAll_blocksAll,
    ← List.foldl_append, Subgraph.toList_foldl_addMember, ids, inner]

/-- The subgraphs that sides have built contain the nodes mentioned inside of their
    braces. -/
theorem anyContainsNode_blocksEnds {n : Nat} {ends : List Endpoint} {id : String} :
    Subgraph.anyContainsNode id (contentsEnds n ends).blocks = true ↔ id ∈ innerEnds ends := by
  have h : id ∈ Subgraph.collectAll #[] (contentsEnds n ends).blocks ↔
      id ∈ #[] ∨ Subgraph.anyContainsNode id (contentsEnds n ends).blocks = true :=
    Subgraph.mem_collectAll _
  rw [collectAll_blocksEnds, Subgraph.mem_foldl_addMember] at h
  simpa using h.symm

/-! ### The edges of a chain -/

namespace Scope

/-- A node is there, and in the innermost open subgraph if there is one. -/
def Present (s : Scope) (id : String) : Prop :=
  s.graph.hasNode id = true ∧ ∀ sub ∈ s.opened.head?, sub.containsNode id = true

/-- Appends edges, and notes them in the innermost open subgraph. -/
def appendEdges (s : Scope) (es : List Edge) : Scope :=
  (s.extend [] es).inside (·.recordFrom s.graph.numEdges es.length)

variable {s : Scope}

@[simp] theorem appendEdges_nil (s : Scope) : s.appendEdges [] = s := by
  rw [appendEdges, extend_nil, inside_eq_self]
  exact fun sub => sub.recordFrom_zero _

theorem appendEdges_append (s : Scope) (es es' : List Edge) :
    (s.appendEdges es).appendEdges es' = s.appendEdges (es ++ es') := by
  have numEdges : (s.appendEdges es).graph.numEdges = s.graph.numEdges + es.length :=
    Graph.numEdges_extend _ _ _
  rw [appendEdges, numEdges, appendEdges, extend_inside, inside_inside, extend_extend, appendEdges]
  simp only [Subgraph.recordFrom_recordFrom, List.length_append, List.append_nil]

/-- Appending edges takes no node away. -/
theorem Present.appendEdges {id : String} (h : s.Present id) (es : List Edge) :
    (s.appendEdges es).Present id := by
  refine ⟨h.1, fun sub hsub => ?_⟩
  obtain ⟨g, opened⟩ := s
  cases opened with
  | nil => cases hsub
  | cons first outer =>
    cases hsub
    exact Subgraph.containsNode_mono (s := first) (fun _ ht => ht) (fun _ hn => hn) (h.2 first rfl)

/-- An edge between nodes that are present is appended, and nothing else happens. -/
theorem connect_eq_appendEdges {tail head : String} (ht : s.Present tail) (hh : s.Present head)
    (templates : List (Attributes .edge)) :
    s.connect tail head templates =
      s.appendEdges [⟨tail, head, s.graph.newEdgeAttrs templates⟩] :=
  connect_eq ht.1 hh.1 (fun sub hsub => ⟨ht.2 sub hsub, hh.2 sub hsub⟩) templates

/-- Steps that append edges append all of them. -/
theorem foldl_eq_appendEdges {α : Type} {f : Scope → α → Scope} {edges : α → List Edge}
    (l : List α) (s : Scope)
    (hf : ∀ a ∈ l, ∀ es, f (s.appendEdges es) a = (s.appendEdges es).appendEdges (edges a)) :
    l.foldl f s = s.appendEdges (l.flatMap edges) := by
  induction l using List.reverseRecOn with
  | nil => rw [List.foldl_nil, List.flatMap_nil, appendEdges_nil]
  | append_singleton l a ih =>
    rw [List.foldl_append, ih fun b hb => hf b (List.mem_append_left _ hb), List.foldl_cons,
      List.foldl_nil, hf a (List.mem_append_right _ List.mem_cons_self), appendEdges_append,
      List.flatMap_append, List.flatMap_singleton]

/-- If the nodes that its sides stand for are present, making the edges of a chain appends
    them and does nothing else. -/
theorem connectChain_eq {ends : List Endpoint} (h : ∀ e ∈ ends, ∀ id ∈ e.ids, s.Present id)
    (pairs : Assignments) :
    s.connectChain ends pairs =
      s.appendEdges (chainEdges s.graph.edgeDefaults ends pairs) := by
  refine foldl_eq_appendEdges _ s fun (l, r) hlr es => ?_
  obtain ⟨hl, hr⟩ : l ∈ ends ∧ r ∈ ends :=
    ⟨(List.of_mem_zip hlr).1, List.mem_of_mem_tail (List.of_mem_zip hlr).2⟩
  refine foldl_eq_appendEdges _ _ fun tail ht es' => ?_
  rw [appendEdges_append, ← List.flatMap_singleton' (List.map _ _), List.flatMap_map]
  refine foldl_eq_appendEdges _ _ fun head hh es'' => ?_
  rw [appendEdges_append]
  exact connect_eq_appendEdges ((h l hl tail ht).appendEdges _) ((h r hr head hh).appendEdges _) _

end Scope

/-! ### Running statements -/

mutual

/-- What a side of an edge operator mentions, in its braces or outside of any. -/
theorem Endpoint.mention_mem_acts {id : String} :
    (e : Endpoint) → (.mention id ∈ e.acts ↔ id ∈ e.direct ∨ id ∈ e.inner)
  | .node ref => by
    simp [Endpoint.acts, Endpoint.direct, Endpoint.inner]
  | .subgraph name body => by
    simp [Endpoint.acts, Endpoint.direct, Endpoint.inner, mention_mem_actsAll body]

theorem Stmt.mention_mem_acts {id : String} :
    (stmt : Stmt) → (.mention id ∈ stmt.acts ↔ id ∈ stmt.direct ∨ id ∈ stmt.inner)
  | .attributes target pairs => by
    simp [Stmt.acts, Stmt.direct, Stmt.inner]
  | .node ref pairs => by
    simp [Stmt.acts, Stmt.direct, Stmt.inner]
  | .subgraph name body => by
    simp [Stmt.acts, Stmt.direct, Stmt.inner, mention_mem_actsAll body]
  | .edge ends pairs => by
    simp [Stmt.acts, Stmt.direct, Stmt.inner, mention_mem_actsEnds ends]

theorem mention_mem_actsAll {id : String} : (body : List Stmt) →
    (.mention id ∈ actsAll body ↔ id ∈ body.flatMap Stmt.direct ∨ id ∈ innerAll body)
  | [] => by
    simp [actsAll, innerAll]
  | stmt :: body => by
    rw [actsAll, innerAll, List.flatMap_cons, List.mem_append, List.mem_append, List.mem_append,
      stmt.mention_mem_acts, mention_mem_actsAll body, or_or_or_comm]

theorem mention_mem_actsEnds {id : String} : (ends : List Endpoint) →
    (.mention id ∈ actsEnds ends ↔ id ∈ ends.flatMap Endpoint.direct ∨ id ∈ innerEnds ends)
  | [] => by
    simp [actsEnds, innerEnds]
  | e :: ends => by
    rw [actsEnds, innerEnds, List.flatMap_cons, List.mem_append, List.mem_append, List.mem_append,
      e.mention_mem_acts, mention_mem_actsEnds ends, or_or_or_comm]

end

/-- What a side stands for it mentions, in its braces or outside of any. -/
theorem Endpoint.mem_direct_or_inner {e : Endpoint} {id : String} (h : id ∈ e.ids) :
    id ∈ e.direct ∨ id ∈ e.inner := by
  cases e with
  | node ref => exact .inl (by rwa [Endpoint.direct])
  | subgraph name body => exact .inr (List.mem_eraseDups.1 h)

theorem Endpoint.mem_direct_or_innerEnds {ends : List Endpoint} {e : Endpoint} {id : String}
    (he : e ∈ ends) (h : id ∈ e.ids) :
    id ∈ ends.flatMap Endpoint.direct ∨ id ∈ innerEnds ends := by
  induction ends with
  | nil => cases he
  | cons first ends ih =>
    rw [innerEnds, List.flatMap_cons, List.mem_append, List.mem_append, or_or_or_comm]
    rcases List.mem_cons.1 he with rfl | he
    · exact .inl (mem_direct_or_inner h)
    · exact .inr (ih he)

theorem Subgraph.containsNode_fill {s : Subgraph} {c : Contents} {id : String}
    (h : id ∈ c.ids ∨ anyContainsNode id c.blocks = true) :
    (s.fill c).containsNode id = true := by
  rcases h with h | h
  · exact containsNode_of_mem (mem_foldl_addMember.2 (.inr h))
  · obtain ⟨t, ht, hid⟩ := (anyContainsNode_iff id c.blocks).1 h
    refine (containsNode_iff id _).2 ⟨t, mem_tree.2 (.inl ?_), hid⟩
    show t ∈ forest (s.children ++ c.blocks)
    rw [forest_append]
    exact List.mem_append_right _ ht

namespace Scope

/-- What has been put into the innermost block, while so many edges have been made. What
    stands around the block stays as it is. -/
def Puts (s : Scope) (c : Contents) (count : Nat) (s' : Scope) : Prop :=
  ∃ g : Graph, g.attrs = s.graph.attrs ∧ g.subgraphs = s.graph.subgraphs ∧
    g.numEdges = s.graph.numEdges + count ∧ s' = fill ⟨g, s.opened⟩ c

variable {s s' s'' : Scope} {c c' : Contents} {m n : Nat}

theorem fill_empty (s : Scope) : s.fill {} = s := by
  obtain ⟨g, opened⟩ := s
  cases opened with
  | nil => exact congrArg (Scope.mk · []) g.fill_empty
  | cons sub outer => exact congrArg (fun sub => Scope.mk g (sub :: outer)) sub.fill_empty

/-- The graph may change in its nodes, and its defaults. -/
theorem puts_of_eq {g : Graph} {opened : List Subgraph} {g' : Graph} (attrs : g'.attrs = g.attrs)
    (subgraphs : g'.subgraphs = g.subgraphs) (edges : g'.edges = g.edges) :
    Puts ⟨g, opened⟩ {} 0 ⟨g', opened⟩ :=
  ⟨g', attrs, subgraphs, by rw [Graph.numEdges, edges]; rfl, (fill_empty _).symm⟩

namespace Puts

theorem numEdges (h : s.Puts c m s') : s'.graph.numEdges = s.graph.numEdges + m := by
  obtain ⟨g, -, -, hcount, rfl⟩ := h
  obtain ⟨G, opened⟩ := s
  cases opened <;> exact hcount

theorem trans (h : s.Puts c m s') (h' : s'.Puts c' n s'') : s.Puts (c ++ c') (m + n) s'' := by
  have count := h'.numEdges
  rw [h.numEdges, Nat.add_assoc] at count
  obtain ⟨g, attrs, subgraphs, -, rfl⟩ := h
  obtain ⟨g', attrs', subgraphs', -, rfl⟩ := h'
  obtain ⟨G, opened⟩ := s
  cases opened with
  | nil =>
    have attrs' : g'.attrs = g.attrs.assignAll c.pairs := attrs'
    have subgraphs' : g'.subgraphs = g.subgraphs ++ c.blocks := subgraphs'
    refine ⟨{ g' with attrs := G.attrs, subgraphs := G.subgraphs }, rfl, rfl, count, ?_⟩
    simp [fill, Graph.fill, attrs, attrs', subgraphs, subgraphs', Attributes.assignAll]
  | cons sub outer =>
    exact ⟨g', attrs'.trans attrs, subgraphs'.trans subgraphs, count,
      congrArg (fun sub => Scope.mk g' (sub :: outer)) (sub.fill_fill c c')⟩

/-- What has been put into an open subgraph is in it. -/
theorem containsNode (h : s.Puts c m s') {id : String}
    (hid : id ∈ c.ids ∨ Subgraph.anyContainsNode id c.blocks = true) :
    ∀ sub ∈ s'.opened.head?, sub.containsNode id = true := by
  obtain ⟨g, -, -, -, rfl⟩ := h
  obtain ⟨G, opened⟩ := s
  intro sub hsub
  cases opened with
  | nil => cases hsub
  | cons first outer =>
    cases hsub
    exact Subgraph.containsNode_fill hid

/-- A subgraph that is built is put into the block around it. -/
theorem leave {name : String} (h : (s.enter name).Puts c m s') :
    s.Puts { blocks := [({ name := name } : Subgraph).fill c] } m s'.leave := by
  obtain ⟨g, attrs, subgraphs, count, rfl⟩ := h
  refine ⟨g, attrs, subgraphs, count, ?_⟩
  have left : (fill ⟨g, (s.enter name).opened⟩ c).leave =
      addSubgraphs ⟨g, s.opened⟩ [({ name := name } : Subgraph).fill c] := leave_eq _ _ _
  rw [left]
  obtain ⟨G, opened⟩ := s
  cases opened <;> simp [addSubgraphs, fill, Graph.fill, Subgraph.fill, Attributes.assignAll]

end Puts

theorem puts_declare (s : Scope) (id : String) : s.Puts { ids := [id] } 0 (s.declare id) := by
  obtain ⟨g, opened⟩ := s
  refine ⟨g.declareNode id g.nodeDefaults, rfl, rfl, rfl, ?_⟩
  cases opened with
  | nil =>
    simp [declare, act, fill, Graph.fill, Attributes.assignAll]
  | cons sub outer =>
    simp [declare, act, fill, Subgraph.fill, Attributes.assignAll, Builder.declareNode,
      Subgraph.register_eq, Subgraph.registerAll]

theorem puts_modifyNode (s : Scope) (id : String) (f : Attributes .node → Attributes .node) :
    s.Puts {} 0 { s with graph := s.graph.modifyNode id f } :=
  puts_of_eq rfl rfl rfl

theorem puts_assign (s : Scope) (target : Target) (pairs : Assignments) :
    s.Puts { pairs := if target = .scope then pairs else [] } 0 (s.assign pairs target) := by
  obtain ⟨g, opened⟩ := s
  cases target with
  | nodes => exact puts_of_eq rfl rfl rfl
  | edges => exact puts_of_eq rfl rfl rfl
  | scope =>
    refine ⟨g, rfl, rfl, rfl, ?_⟩
    cases opened <;>
      simp [assign, act, fill, Graph.fill, Subgraph.fill, Builder.modifyAttrs]

theorem puts_appendEdges (s : Scope) (es : List Edge) :
    s.Puts { indices := List.range' s.graph.numEdges es.length } es.length (s.appendEdges es) := by
  obtain ⟨g, opened⟩ := s
  refine ⟨g.extend [] es, rfl, rfl, Graph.numEdges_extend _ _ _, ?_⟩
  cases opened <;>
    simp [appendEdges, extend, inside, Subgraph.recordFrom, fill, Graph.fill, Subgraph.fill,
      Attributes.assignAll]

/-- When the sides of a chain have taken effect, the nodes that they stand for are
    present. -/
theorem Puts.present {ends : List Endpoint}
    (h : s.Puts (contentsEnds n ends) m (runEnds ends s)) :
    ∀ e ∈ ends, ∀ id ∈ e.ids, (runEnds ends s).Present id := by
  intro e he id hid
  have hid := Endpoint.mem_direct_or_innerEnds he hid
  refine ⟨?_, h.containsNode ?_⟩
  · rw [runEnds_eq]
    exact hasNode_after ((mention_mem_actsEnds ends).2 hid)
  · rwa [ids_contentsEnds, anyContainsNode_blocksEnds]

end Scope

mutual

theorem Endpoint.run_puts : (e : Endpoint) → (s : Scope) →
    s.Puts (e.contents s.graph.numEdges) (edgeCount e.acts) (e.run s)
  | .node ref, s => by
    rw [Endpoint.run, Endpoint.contents, Endpoint.acts]
    exact s.puts_declare ref.id
  | .subgraph name body, s => by
    rw [Endpoint.run, Endpoint.contents, Endpoint.acts, edgeCount_block]
    exact (runAll_puts body (s.enter name)).leave

theorem Stmt.run_puts : (stmt : Stmt) → (s : Scope) →
    s.Puts (stmt.contents s.graph.numEdges) (edgeCount stmt.acts) (stmt.run s)
  | .attributes target pairs, s => by
    rw [Stmt.run, Stmt.contents, Stmt.acts]
    exact s.puts_assign target pairs
  | .node ref pairs, s => by
    rw [Stmt.run, Stmt.contents, Stmt.acts]
    exact (s.puts_declare ref.id).trans (Scope.puts_modifyNode _ ref.id _)
  | .subgraph name body, s => by
    rw [Stmt.run, Stmt.contents, Stmt.acts, edgeCount_block]
    exact (runAll_puts body (s.enter name)).leave
  | .edge ends pairs, s => by
    have sides := runEnds_puts ends s
    rw [Stmt.run, Stmt.contents, Stmt.acts, edgeCount_append, Scope.connectChain_eq sides.present]
    have chain := (runEnds ends s).puts_appendEdges
      (Scope.chainEdges (runEnds ends s).graph.edgeDefaults ends pairs)
    rw [Scope.length_chainEdges, sides.numEdges] at chain
    exact sides.trans chain

/-- Statements put their contents into the block that they stand in, and nothing else. -/
theorem runAll_puts : (body : List Stmt) → (s : Scope) →
    s.Puts (contentsAll s.graph.numEdges body) (edgeCount (actsAll body)) (runAll body s)
  | [], s => by
    rw [runAll, contentsAll, actsAll]
    exact Scope.puts_of_eq rfl rfl rfl
  | stmt :: body, s => by
    have first := stmt.run_puts s
    rw [runAll, contentsAll, actsAll, edgeCount_append, ← first.numEdges]
    exact first.trans (runAll_puts body (stmt.run s))

theorem runEnds_puts : (ends : List Endpoint) → (s : Scope) →
    s.Puts (contentsEnds s.graph.numEdges ends) (edgeCount (actsEnds ends)) (runEnds ends s)
  | [], s => by
    rw [runEnds, contentsEnds, actsEnds]
    exact Scope.puts_of_eq rfl rfl rfl
  | e :: ends, s => by
    have first := e.run_puts s
    rw [runEnds, contentsEnds, actsEnds, edgeCount_append, ← first.numEdges]
    exact first.trans (runEnds_puts ends (e.run s))

end

end DotLang
