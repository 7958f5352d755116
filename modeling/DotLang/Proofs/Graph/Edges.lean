import DotLang.Proofs.Graph.Store

/-!
# The edges of a document

Each chain of edge operators makes its edges when all of its sides have taken effect:
behind the edges that stand inside of them, from every node of a side to every node of
the next one. The edges have what has been assigned to edges to come, and on top of
that the ports of the chain and its own attributes.

* `edgesMade`: the edges that acts make, those of each chain in one piece;
* `Scope.MakesChain`: what the edges of a chain are, and that nothing else happens;
* `Graph.ofText_edges`: the edges of a text.
-/

namespace DotLang

/-- The edges that an act makes, if those to come start with the template. -/
def Act.edges (template : Attributes .edge) : Act → List Edge
  | .connect ends pairs => Scope.chainEdges template ends pairs
  | _ => []

/-- The edges that acts make, if those to come start with the template before them: the
    edges of each chain, behind those of the chains that end before it. -/
def edgesMade (template : Attributes .edge) : List Act → List Edge
  | [] => []
  | a :: acts => a.edges template ++ edgesMade (template.assignAll (a.assigned .edges)) acts

theorem Store.edges_after (t : Store) (acts : List Act) :
    (t.after acts).edges.toList = t.edges.toList ++ edgesMade t.edgeDefaults acts := by
  induction acts generalizing t with
  | nil => rw [after_nil, edgesMade, List.append_nil]
  | cons a acts ih =>
    have edges : (a.apply t).edges.toList = t.edges.toList ++ a.edges t.edgeDefaults := by
      cases a with
      | connect ends pairs => simp [Act.apply, Act.edges]
      | assign target pairs => cases target <;> exact (List.append_nil _).symm
      | _ => exact (List.append_nil _).symm
    rw [after_cons, ih, edges, edgeDefaults_apply, edgesMade, List.append_assoc]

namespace Scope

/-! ### One chain -/

/-- What an edge of a chain has from the ports of its sides: under `tailport` the port that is
    written behind the node on its left, and under `headport` that behind the node on its right.
    Braces have no port. -/
def portText (l r : Endpoint) (key : String) : Option String :=
  match key, l, r with
  | "tailport", .node ⟨_, port⟩, _ => port
  | "headport", _, .node ⟨_, port⟩ => port
  | _, _, _ => none

theorem portText_tailport (l r : Endpoint) : portText l r "tailport" = l.port := by
  cases l <;> rfl

theorem portText_headport (l r : Endpoint) : portText l r "headport" = r.port := by
  cases r <;> rfl

theorem portText_of_ne {l r : Endpoint} {key : String} (tail : key ≠ "tailport")
    (head : key ≠ "headport") : portText l r key = none := by
  rw [portText]
  · exact fun _ _ h => absurd h tail
  · exact fun _ _ h => absurd h head

theorem get?_portAttrs (l r : Endpoint) (key : String) :
    (portAttrs l r).get? key = portText l r key := by
  have typed (key : String) : (∅ : Attributes .edge).typed.get? key = none := rfl
  have custom (key : String) : (∅ : Attributes .edge).custom.get? key = none := rfl
  have ports : portText l r key =
      if key = "tailport" then l.port else if key = "headport" then r.port else none := by
    split
    · next htail => rw [htail, portText_tailport]
    · next htail =>
      split
      · next hhead => rw [hhead, portText_headport]
      · next hhead => exact portText_of_ne htail hhead
  rw [ports, Attributes.get?_texts, portAttrs]
  by_cases hhead : key = "headport" <;> cases l.port <;> cases r.port <;>
    simp [Attributes.putCustom, Dict.get?_insert, typed, custom, hhead]

/-- The subgraphs that stand in the innermost block. -/
def blocks (s : Scope) : List Subgraph :=
  match s.opened with
  | [] => s.graph.subgraphs
  | sub :: _ => sub.children

variable {s s' : Scope} {c : Contents} {n m : Nat} {ends : List Endpoint}

theorem Puts.blocks_eq (h : s.Puts c m s') : s'.blocks = s.blocks ++ c.blocks := by
  obtain ⟨g, -, subgraphs, -, rfl⟩ := h
  obtain ⟨G, opened⟩ := s
  cases opened with
  | nil => exact congrArg (· ++ c.blocks) subgraphs
  | cons sub outer => rfl

/-- What the braces of a side build is put into the block around it. -/
theorem mem_blocks_contentsEnds {name : String} {body : List Stmt}
    (h : .subgraph name body ∈ ends) :
    ∃ k,
      ({ name := name } : Subgraph).fill (contentsAll k body) ∈ (contentsEnds n ends).blocks := by
  induction ends generalizing n with
  | nil => cases h
  | cons e ends ih =>
    rw [contentsEnds, Contents.blocks_append]
    rcases List.mem_cons.1 h with rfl | h
    · refine ⟨n, List.mem_append_left _ ?_⟩
      rw [Endpoint.contents]
      exact List.mem_cons_self
    · obtain ⟨k, hk⟩ := ih h
      exact ⟨k, List.mem_append_right _ hk⟩

/-- Making the edges of a chain. -/
structure MakesChain (s : Scope) (ends : List Endpoint) (pairs : Assignments) : Prop where
  /-- The edges come behind those that are there. -/
  edges : (s.connectChain ends pairs).graph.edges.toList =
    s.graph.edges.toList ++ chainEdges s.graph.edgeDefaults ends pairs
  /-- There are no other nodes afterwards, and they are as they were. -/
  nodes : (s.connectChain ends pairs).graph.nodeMap = s.graph.nodeMap
  /-- All assignments of the chain succeed. -/
  accepted : (∅ : Attributes .edge).setAll pairs = .ok ((∅ : Attributes .edge).assignAll pairs)
  /-- An edge has the attributes of the chain, then those of the ports, then those that had
      been assigned to edges to come. -/
  attrs : ∀ l r tail head key,
    (chainEdge s.graph.edgeDefaults pairs l r tail head).attrs.get? key =
      (((∅ : Attributes .edge).assignAll pairs).get? key).or
        ((portText l r key).or (s.graph.edgeDefaults.get? key))
  /-- A side in braces stands for the members of the subgraph that it has built. -/
  members : ∀ name body, .subgraph name body ∈ ends →
    ∃ t ∈ s.blocks, t.name = name ∧ t.memberIds.toList = (Endpoint.subgraph name body).ids

theorem makesChain (s : Scope) {pairs : Assignments} (accepted : Owner.edge.Accepts pairs) :
    (runEnds ends s).MakesChain ends pairs where
  edges := by
    rw [connectChain_eq (runEnds_puts ends s).present]
    simp [appendEdges, inside, extend, Graph.extend]
  nodes := by
    rw [connectChain_eq (runEnds_puts ends s).present]
    rfl
  accepted := accepted.setAll_eq ∅
  attrs l r tail head key := by
    have list : ((∅ : Attributes .edge).assignAll pairs).Proper :=
      Attributes.proper_empty.assignAll pairs
    have ports : (portAttrs l r).Proper := Attributes.Kept.proper.ports l r
    rw [chainEdge, list.get?_merge, ports.get?_merge, get?_portAttrs]
  members name body h := by
    obtain ⟨k, hk⟩ := mem_blocks_contentsEnds h
    refine ⟨_, ?_, rfl, Endpoint.memberIds_eq k name body⟩
    rw [(runEnds_puts ends s).blocks_eq]
    exact List.mem_append_right _ hk

end Scope

/-! ### All chains of a text -/

/-- How the edges of a document are made. A moment of the document is given by the acts
    before it. -/
structure Document.MakesEdges (d : Document) : Prop where
  /-- The graph of the document is what its acts make. -/
  graph : (d.start.after d.acts).graph = d.toGraph
  /-- The edges are those of all chains, in the order in which these end. -/
  edges : d.toGraph.edges.toList = edgesMade ∅ d.acts
  /-- When the edges of a chain are made, its sides have just taken effect. -/
  sides : ∀ before ends pairs after, d.acts = before ++ .connect ends pairs :: after →
    actsEnds ends <:+ before
  /-- New edges start with what has been assigned to edges to come so far, in braces or
      outside of any. -/
  template : ∀ before after, d.acts = before ++ after →
    (∅ : Attributes .edge).setAll (before.flatMap (Act.assigned .edges)) =
      .ok (d.start.after before).graph.edgeDefaults
  /-- The edges of a chain are made as they should be. -/
  chain : ∀ before ends pairs after, d.acts = before ++ .connect ends pairs :: after →
    (d.start.after before).MakesChain ends pairs

/-- The edges of a text are those that its chains make, in the order in which the chains
    end. Each chain makes its edges when its sides have taken effect, with what had been
    assigned to edges to come by then. -/
theorem Graph.ofText_edges {text : String} {g : Graph} (h : Graph.ofText text = .ok g) :
    ∃ d, Grammar.Sentence (Tokens.ofText text).lexemes d ∧ d.toGraph = g ∧ d.MakesEdges := by
  obtain ⟨d, sentence, checked, rfl⟩ := ofText_eq_ok_iff.1 h
  refine ⟨d, sentence, rfl, ?_⟩
  exact {
    graph := d.toGraph_eq.symm
    edges := (congrArg (fun t => t.edges.toList) d.store_toGraph).trans
      (Store.edges_after {} d.acts)
    sides := fun before ends pairs after heq => d.prepared before _ after heq
    template := fun before after heq => (checked.defaults heq).2
    chain := fun before ends pairs after heq => by
      have accepted : Owner.edge.Accepts pairs :=
        checked.accepted (.connect ends pairs) (by rw [heq]; simp)
      obtain ⟨earlier, rfl⟩ := d.prepared before _ after heq
      rw [Scope.after_append]
      show ((d.start.after earlier).after (actsEnds ends)).MakesChain ends pairs
      rw [← runEnds_eq]
      exact Scope.makesChain _ accepted }

/-- A chain with ports and with braces, which stand for the nodes of inner braces too. What is
    assigned to edges to come inside of the braces counts for the chain around them. An edge has
    the ports of the nodes that are its sides, unless the chain itself assigns another. -/
theorem Graph.nested_chain_edges : ∃ text g, Graph.ofText text = .ok g ∧
    g.edges.toList.map (fun e => ((e.tail, e.head), e.attrs.entries)) =
      [(("c", "d"), [("w", "1")]),
        (("a", "b"), [("tailport", "p"), ("w", "2")]),
        (("a", "c"), [("tailport", "p"), ("w", "2")]),
        (("a", "d"), [("tailport", "p"), ("w", "2")]),
        (("b", "e"), [("headport", "q:n"), ("w", "2")]),
        (("c", "e"), [("headport", "q:n"), ("w", "2")]),
        (("d", "e"), [("headport", "q:n"), ("w", "2")]),
        (("e", "f"), [("headport", "z"), ("tailport", "x"), ("w", "2")])] ∧
    ∃ d, Grammar.Sentence (Tokens.ofText text).lexemes d ∧ d.toGraph = g ∧ d.MakesEdges := by
  obtain ⟨g, hread, hedges⟩ := exists_of_toOption_any
    "digraph\x7bedge[w=1]a:p->\x7bb\x7bc->d\x7dedge[w=2]\x7d->e:q:n;e:x->f:y[headport=z]\x7d"
    (P := fun g => g.edges.toList.map (fun e => ((e.tail, e.head), e.attrs.entries)) =
      [(("c", "d"), [("w", "1")]),
        (("a", "b"), [("tailport", "p"), ("w", "2")]),
        (("a", "c"), [("tailport", "p"), ("w", "2")]),
        (("a", "d"), [("tailport", "p"), ("w", "2")]),
        (("b", "e"), [("headport", "q:n"), ("w", "2")]),
        (("c", "e"), [("headport", "q:n"), ("w", "2")]),
        (("d", "e"), [("headport", "q:n"), ("w", "2")]),
        (("e", "f"), [("headport", "z"), ("tailport", "x"), ("w", "2")])]) (by decide +kernel)
  exact ⟨_, g, hread, hedges, ofText_edges hread⟩

end DotLang
