import DotLang.Proofs.Graph.Edges
import DotLang.Proofs.Listing.RoundTrip
import Mathlib.Data.List.Forall2

/-!
# The subgraphs of a document

The subgraphs of a graph are the braces of its text. Each pair of braces is a subgraph
of the block that it stands in, whether it is a statement or a side of an edge operator,
and it holds what is written between it and not between inner braces: the nodes
mentioned there, the edges of the chains there, the attributes assigned there.

* `Braces`, `bracesAll`: the braces that stand in statements;
* `Document.Mirrors`: what the subgraph of a pair of braces is;
* `Graph.ofText_subgraphs`: the subgraphs of a text.
-/

namespace DotLang

/-- A pair of braces. The acts of the document before its first statement say which one of
    those with the same text it is. -/
structure Braces where
  /-- The name in front of the braces, which is empty if there is none. -/
  name : String
  /-- The acts before the first statement between the braces. -/
  before : List Act
  /-- The statements between the braces. -/
  body : List Stmt

/-- The braces that a side of an edge operator is. -/
def Endpoint.braces (before : List Act) : Endpoint → List Braces
  | .node _ => []
  | .subgraph name body => [⟨name, before ++ [.enter name], body⟩]

/-- The braces that sides of edge operators are. -/
def bracesEnds (before : List Act) : List Endpoint → List Braces
  | [] => []
  | e :: ends => e.braces before ++ bracesEnds (before ++ e.acts) ends

/-- The braces that a statement is, or that its sides are. -/
def Stmt.braces (before : List Act) : Stmt → List Braces
  | .subgraph name body => [⟨name, before ++ [.enter name], body⟩]
  | .edge ends _ => bracesEnds before ends
  | _ => []

/-- The braces that stand in statements, in the order of the text. -/
def bracesAll (before : List Act) : List Stmt → List Braces
  | [] => []
  | stmt :: body => stmt.braces before ++ bracesAll (before ++ stmt.acts) body

/-- The act by which a statement makes edges, and the acts before it. -/
def Stmt.chains (before : List Act) : Stmt → List (List Act × Act)
  | .edge ends pairs => [(before ++ actsEnds ends, .connect ends pairs)]
  | _ => []

/-- The acts by which statements make edges, not those inside of them, in the order of the
    text. -/
def chainsAll (before : List Act) : List Stmt → List (List Act × Act)
  | [] => []
  | stmt :: body => stmt.chains before ++ chainsAll (before ++ stmt.acts) body

/-- What a statement assigns to the block that it stands in. -/
def Stmt.assigned : Stmt → Assignments
  | .attributes .scope pairs => pairs
  | _ => []

namespace Document

variable (d : Document)

/-- The number of edges at a moment of the document. -/
def edgesBefore (before : List Act) : Nat := (d.start.after before).graph.numEdges

/-- The places of the edges that an act makes. -/
def places (before : List Act) (a : Act) : List Nat :=
  List.range' (d.edgesBefore before) (d.edgesBefore (before ++ [a]) - d.edgesBefore before)

/-- What a subgraph has from a pair of braces, whatever is inside of inner braces. -/
structure Fills (b : Braces) (t : Subgraph) : Prop where
  /-- It has the name in front of the braces, if there is one. -/
  name : t.name? = if b.name = "" then none else some b.name
  /-- Its nodes are those mentioned in the braces, in the order of their first mentions. -/
  nodes : t.nodeIds.toList = (b.body.flatMap Stmt.direct).eraseDups
  /-- Its edges are those of the chains in the braces. -/
  edges : t.edgeIndices.toList =
    (chainsAll b.before b.body).flatMap fun (before, a) => d.places before a
  /-- Its attributes are what is assigned in the braces, one after the other. -/
  attrs : (∅ : Attributes .subgraph).setAll (b.body.flatMap Stmt.assigned) = .ok t.attrs

/-- A subgraph is that of a pair of braces, and those inside of it are those of the inner
    braces. -/
inductive Mirrors : Braces → Subgraph → Prop
  | mk {b : Braces} {t : Subgraph} : d.Fills b t →
      List.Forall₂ Mirrors (bracesAll b.before b.body) t.children → Mirrors b t

end Document

/-! ### Moments of a document -/

namespace Document

variable {d : Document} {before : List Act}

theorem edgesBefore_run {acts : List Act} {s : Scope} {c : Contents} {n : Nat}
    (hrun : (d.start.after before).after acts = s) (h : (d.start.after before).Puts c n s) :
    d.edgesBefore (before ++ acts) = d.edgesBefore before + n := by
  rw [edgesBefore, Scope.after_append, hrun, h.numEdges, edgesBefore]

/-- Statements make so many edges, those inside of them among these. -/
theorem edgesBefore_stmt (stmt : Stmt) :
    d.edgesBefore (before ++ stmt.acts) = d.edgesBefore before + edgeCount stmt.acts :=
  edgesBefore_run (stmt.run_eq _).symm (stmt.run_puts _)

theorem edgesBefore_endpoint (e : Endpoint) :
    d.edgesBefore (before ++ e.acts) = d.edgesBefore before + edgeCount e.acts :=
  edgesBefore_run (e.run_eq _).symm (e.run_puts _)

theorem edgesBefore_ends (ends : List Endpoint) :
    d.edgesBefore (before ++ actsEnds ends) = d.edgesBefore before + edgeCount (actsEnds ends) :=
  edgesBefore_run (runEnds_eq ends _).symm (runEnds_puts ends _)

/-- Opening braces makes no edges. -/
theorem edgesBefore_enter (name : String) :
    d.edgesBefore (before ++ [.enter name]) = d.edgesBefore before := by
  rw [edgesBefore, Scope.after_append]
  rfl

/-- A chain makes its edges behind those of its sides. -/
theorem places_connect (ends : List Endpoint) (pairs : Assignments) :
    d.places (before ++ actsEnds ends) (.connect ends pairs) =
      List.range' (d.edgesBefore before + edgeCount (actsEnds ends)) (Scope.chainCount ends) := by
  have chain : edgeCount [.connect ends pairs] = Scope.chainCount ends := rfl
  have all : d.edgesBefore (before ++ (Stmt.edge ends pairs).acts) = _ := edgesBefore_stmt _
  rw [Stmt.acts, edgeCount_append, chain, ← List.append_assoc, ← Nat.add_assoc] at all
  rw [places, all, edgesBefore_ends, Nat.add_sub_cancel_left]

/-! ### What statements put into their block -/

theorem indices_contentsEnds (n : Nat) (ends : List Endpoint) :
    (contentsEnds n ends).indices = [] := by
  induction ends generalizing n with
  | nil => rw [contentsEnds]
  | cons e ends ih =>
    rw [contentsEnds, Contents.indices_append, ih, List.append_nil]
    cases e <;> rw [Endpoint.contents]

theorem pairs_contentsEnds (n : Nat) (ends : List Endpoint) : (contentsEnds n ends).pairs = [] := by
  induction ends generalizing n with
  | nil => rw [contentsEnds]
  | cons e ends ih =>
    rw [contentsEnds, Contents.pairs_append, ih, List.append_nil]
    cases e <;> rw [Endpoint.contents]

/-- A statement puts the places of the edges that it makes into its block. -/
theorem indices_contents (stmt : Stmt) :
    (stmt.contents (d.edgesBefore before)).indices =
      (stmt.chains before).flatMap fun (before, a) => d.places before a := by
  cases stmt with
  | edge ends pairs =>
    rw [Stmt.contents, Contents.indices_append, indices_contentsEnds, List.nil_append, Stmt.chains,
      List.flatMap_singleton]
    exact (places_connect ends pairs).symm
  | _ => rw [Stmt.contents]; rfl

theorem indices_contentsAll (before : List Act) (body : List Stmt) :
    (contentsAll (d.edgesBefore before) body).indices =
      (chainsAll before body).flatMap fun (before, a) => d.places before a := by
  induction body generalizing before with
  | nil => rw [contentsAll, chainsAll, List.flatMap_nil]
  | cons stmt body ih =>
    rw [contentsAll, chainsAll, Contents.indices_append, List.flatMap_append, indices_contents,
      ← edgesBefore_stmt, ih]

theorem pairs_contentsAll (n : Nat) (body : List Stmt) :
    (contentsAll n body).pairs = body.flatMap Stmt.assigned := by
  induction body generalizing n with
  | nil => rw [contentsAll, List.flatMap_nil]
  | cons stmt body ih =>
    rw [contentsAll, Contents.pairs_append, List.flatMap_cons, ih]
    congr 1
    cases stmt with
    | attributes target pairs => cases target <;> rw [Stmt.contents] <;> rfl
    | edge ends pairs =>
      rw [Stmt.contents, Contents.pairs_append, pairs_contentsEnds]
      rfl
    | _ => rw [Stmt.contents]; rfl

/-- What statements of an accepted document assign to their block is assigned. -/
theorem accepts_assigned {nested : Bool} {body : List Stmt}
    (h : CheckedAll Owner.Accepts nested body) :
    (Target.scope.owner nested).Accepts (body.flatMap Stmt.assigned) := by
  induction body with
  | nil => exact nofun
  | cons stmt body ih =>
    rw [CheckedAll] at h
    rw [List.flatMap_cons]
    refine List.forall_mem_append.2 ⟨?_, ih h.2⟩
    cases stmt with
    | attributes target pairs =>
      rw [Stmt.Checked] at h
      cases target with
      | scope => exact h.1
      | _ => exact nofun
    | _ => exact nofun

/-! ### The subgraphs of braces -/

/-- The subgraph that statements fill is that of the braces around them, if those inside of
    it are. -/
theorem mirrors_block (name : String) {body : List Stmt}
    (checked : CheckedAll Owner.Accepts true body)
    (inside : List.Forall₂ d.Mirrors (bracesAll (before ++ [.enter name]) body)
      (contentsAll (d.edgesBefore (before ++ [.enter name])) body).blocks) :
    d.Mirrors ⟨name, before ++ [.enter name], body⟩
      (({ name := name } : Subgraph).fill (contentsAll (d.edgesBefore before) body)) := by
  rw [edgesBefore_enter] at inside
  refine .mk ?_ ?_
  · exact {
      name := by simp [Subgraph.name?, Subgraph.fill]
      nodes := by
        rw [Subgraph.fill, Subgraph.toList_foldl_addMember, ids_contentsAll]
      edges := by
        rw [← indices_contentsAll, edgesBefore_enter]
        simp [Subgraph.fill]
      attrs := by
        have accepts : Owner.subgraph.Accepts _ := accepts_assigned checked
        exact (accepts.setAll_eq ∅).trans (by rw [← pairs_contentsAll]; rfl) }
  · simpa [Subgraph.fill] using inside

mutual

theorem mirrors_endpoint (before : List Act) : (e : Endpoint) → e.Checked Owner.Accepts →
    List.Forall₂ d.Mirrors (e.braces before) (e.contents (d.edgesBefore before)).blocks
  | .node ref, _ => by
    rw [Endpoint.contents]
    exact .nil
  | .subgraph name body, h => by
    rw [Endpoint.Checked] at h
    rw [Endpoint.contents]
    exact .cons (mirrors_block name h (mirrors_all _ body h)) .nil

theorem mirrors_stmt {nested : Bool} (before : List Act) : (stmt : Stmt) →
    stmt.Checked Owner.Accepts nested →
    List.Forall₂ d.Mirrors (stmt.braces before) (stmt.contents (d.edgesBefore before)).blocks
  | .attributes target pairs, _ => by
    rw [Stmt.contents]
    exact .nil
  | .node ref pairs, _ => by
    rw [Stmt.contents]
    exact .nil
  | .subgraph name body, h => by
    rw [Stmt.Checked] at h
    rw [Stmt.contents]
    exact .cons (mirrors_block name h (mirrors_all _ body h)) .nil
  | .edge ends pairs, h => by
    rw [Stmt.Checked] at h
    rw [Stmt.contents, Contents.blocks_append, List.append_nil]
    exact mirrors_ends before ends h.1

theorem mirrors_all {nested : Bool} (before : List Act) : (body : List Stmt) →
    CheckedAll Owner.Accepts nested body →
    List.Forall₂ d.Mirrors (bracesAll before body) (contentsAll (d.edgesBefore before) body).blocks
  | [], _ => by
    rw [contentsAll]
    exact .nil
  | stmt :: body, h => by
    rw [CheckedAll] at h
    rw [contentsAll, Contents.blocks_append, bracesAll, ← edgesBefore_stmt]
    exact List.rel_append (mirrors_stmt before stmt h.1) (mirrors_all _ body h.2)

theorem mirrors_ends (before : List Act) : (ends : List Endpoint) →
    CheckedEnds Owner.Accepts ends →
    List.Forall₂ d.Mirrors (bracesEnds before ends)
      (contentsEnds (d.edgesBefore before) ends).blocks
  | [], _ => by
    rw [contentsEnds]
    exact .nil
  | e :: ends, h => by
    rw [CheckedEnds] at h
    rw [contentsEnds, Contents.blocks_append, bracesEnds, ← edgesBefore_endpoint]
    exact List.rel_append (mirrors_endpoint before e h.1) (mirrors_ends _ ends h.2)

end

end Document

/-! ### The subgraphs of a text -/

/-- How the subgraphs of a document are made. A moment of the document is given by the acts
    before it. -/
structure Document.MakesSubgraphs (d : Document) : Prop where
  /-- The graph of the document is what its acts make. -/
  graph : (d.start.after d.acts).graph = d.toGraph
  /-- The subgraphs are those of the braces, at every depth. -/
  subgraphs : List.Forall₂ d.Mirrors (bracesAll [] d.body) d.toGraph.subgraphs
  /-- At the places of an act are the edges that it makes. -/
  made : ∀ before a after, d.acts = before ++ a :: after →
    (d.places before a).map (d.toGraph.edges[·]?) =
      (a.edges (d.start.after before).graph.edgeDefaults).map some
  /-- The attributes of the graph are what is assigned outside of all braces, one after the
      other. -/
  attrs : (∅ : Attributes .graph).setAll (d.body.flatMap Stmt.assigned) = .ok d.toGraph.attrs
  /-- Whatever is in braces, all that they do to the blocks around them is that the innermost
      of these has one more subgraph. The attributes of the graph, the open subgraphs and
      those that are finished stay as they are. -/
  others : ∀ before name body after,
    d.acts = before ++ (.enter name :: (actsAll body ++ [.leave])) ++ after →
    let s := d.start.after before
    ∃ g t, g.attrs = s.graph.attrs ∧ g.subgraphs = s.graph.subgraphs ∧
      s.after (.enter name :: (actsAll body ++ [.leave])) =
        (⟨g, s.opened⟩ : Scope).addSubgraphs [t]

/-- The edges of an act stay at their places. -/
theorem Document.map_places {d : Document} {before after : List Act} {a : Act}
    (heq : d.acts = before ++ a :: after) :
    (d.places before a).map (d.toGraph.edges[·]?) =
      (a.edges (d.start.after before).graph.edgeDefaults).map some := by
  have moment : (d.start.after before).graph.store = Store.after {} before := store_before heq
  have next : (d.start.after (before ++ [a])).graph.store = Store.after {} (before ++ [a]) :=
    store_before (show d.acts = before ++ [a] ++ after by simp [heq])
  have template :
      (d.start.after before).graph.edgeDefaults = (Store.after {} before).edgeDefaults :=
    congrArg Store.edgeDefaults moment
  let made := a.edges (Store.after {} before).edgeDefaults
  have later : ∀ acts, ((Store.after {} (before ++ a :: acts)).edges.toList) =
      (Store.after {} before).edges.toList ++ (made ++ edgesMade
        ((Store.after {} before).edgeDefaults.assignAll (a.assigned .edges)) acts) := by
    intro acts
    rw [Store.after_append, Store.edges_after, edgesMade]
  have first : d.edgesBefore before = (Store.after {} before).edges.toList.length :=
    congrArg (fun t => t.edges.size) moment
  have second : d.edgesBefore (before ++ [a]) = d.edgesBefore before + made.length := by
    have size :
        d.edgesBefore (before ++ [a]) = (Store.after {} (before ++ [a])).edges.toList.length :=
      congrArg (fun t => t.edges.size) next
    rw [size, later [], first, edgesMade, List.append_nil, List.length_append]
  have final : d.toGraph.edges.toList = _ :=
    (congrArg (fun t => t.edges.toList) d.store_toGraph).trans (heq ▸ later after)
  rw [places, second, Nat.add_sub_cancel_left, first, template]
  simp only [← Array.getElem?_toList, final]
  exact map_getElem?_range' _ _ _

/-- Braces at any moment put one subgraph into the block around them. -/
theorem Scope.after_block (s : Scope) (name : String) (body : List Stmt) :
    ∃ g t, g.attrs = s.graph.attrs ∧ g.subgraphs = s.graph.subgraphs ∧
      s.after (.enter name :: (actsAll body ++ [.leave])) =
        (⟨g, s.opened⟩ : Scope).addSubgraphs [t] := by
  obtain ⟨g, attrs, subgraphs, -, hrun⟩ := runAll_puts body (s.enter name)
  let t := ({ name := name } : Subgraph).fill (contentsAll s.graph.numEdges body)
  refine ⟨g, t, attrs, subgraphs, ?_⟩
  have inside : (s.enter name).after (actsAll body) = ⟨g, t :: s.opened⟩ := by
    rw [← runAll_eq, hrun]
    rfl
  rw [after_cons, after_append]
  exact (congrArg Scope.leave inside).trans (leave_eq g t s.opened)

/-- The subgraphs of a text are its braces. Each has what is written between its braces and
    not between inner ones, and what is written there is in no other. -/
theorem Graph.ofText_subgraphs {text : String} {g : Graph} (h : Graph.ofText text = .ok g) :
    ∃ d, Grammar.Sentence (Tokens.ofText text).lexemes d ∧ d.toGraph = g ∧ d.MakesSubgraphs := by
  obtain ⟨d, sentence, checked, rfl⟩ := ofText_eq_ok_iff.1 h
  refine ⟨d, sentence, rfl, ?_⟩
  have checked : CheckedAll Owner.Accepts false d.body := checked
  obtain ⟨g, attrs, subgraphs, -, hrun⟩ := runAll_puts d.body d.start
  have final : d.toGraph = g.fill (contentsAll (d.edgesBefore []) d.body) :=
    congrArg Scope.graph hrun
  exact {
    graph := d.toGraph_eq.symm
    subgraphs := by
      have := Document.mirrors_all (d := d) [] d.body checked
      rw [final, Graph.fill, subgraphs]
      exact this
    made := fun before a after heq => Document.map_places heq
    attrs := by
      have accepts : Owner.graph.Accepts _ := Document.accepts_assigned checked
      rw [accepts.setAll_eq, final, Graph.fill, attrs, Document.pairs_contentsAll]
      rfl
    others := fun before name body _ _ => (d.start.after before).after_block name body }

/-- Braces that are sides of an operator and have braces and chains inside. What is written
    in the inner ones is not in the outer ones, although it counts for their members. -/
theorem Graph.nested_braces_subgraphs : ∃ text g, Graph.ofText text = .ok g ∧
    g.numEdges = 11 ∧ g.attrs.get? "y" = none ∧
    (Subgraph.forest g.subgraphs).map
        (fun t => (t.name?, t.nodeIds, t.edgeIndices, t.attrs.get? "y")) =
      [(none, #["b", "c"], #[0], some "3"), (none, #["a", "d"], #[1], some "2"),
        (some "k", #["e"], #[], none), (none, #["f", "e"], #[2], none)] ∧
    ∃ d, Grammar.Sentence (Tokens.ofText text).lexemes d ∧ d.toGraph = g ∧ d.MakesSubgraphs := by
  obtain ⟨g, hread, hedges, hroot, htree⟩ := exists_of_toOption_any
    "graph \x7b\x7ba graph [y=2] \x7bb--c y=3\x7d a--d\x7d--\x7bsubgraph k \x7be\x7d f--e\x7d\x7d"
    (P := fun g => g.numEdges = 11 ∧ g.attrs.get? "y" = none ∧
      (Subgraph.forest g.subgraphs).map
          (fun t => (t.name?, t.nodeIds, t.edgeIndices, t.attrs.get? "y")) =
        [(none, #["b", "c"], #[0], some "3"), (none, #["a", "d"], #[1], some "2"),
          (some "k", #["e"], #[], none), (none, #["f", "e"], #[2], none)])
    (by decide +kernel)
  exact ⟨_, g, hread, hedges, hroot, htree, ofText_subgraphs hread⟩

end DotLang
