import DotLang.Graph.Basic
import DotLang.Syntax.Document

/-!
# The graph of a document

The statements of a document take effect one after the other. What they have made
so far is a `Scope`: the graph, and the subgraphs whose braces are open.

The attributes for nodes and edges to come belong to the whole document: a
statement that changes them inside of braces changes them for everything after
it.

* `Stmt.run`: the effect of a statement;
* `Document.toGraph`: the graph of a document.
-/

namespace DotLang

/-- A graph on the way. -/
structure Scope where
  graph : Graph
  /-- The subgraphs that are open, the innermost first. -/
  opened : List Subgraph := []

namespace Scope

instance : Inhabited Scope := ⟨⟨default, []⟩⟩

/-- Acts on the graph, or on the innermost open subgraph and the graph. -/
def act (s : Scope) (onGraph : Graph → Graph) (onSubgraph : Builder → Builder) : Scope :=
  match s.opened with
  | [] => { s with graph := onGraph s.graph }
  | sub :: outer =>
    let b := onSubgraph ⟨s.graph, sub⟩
    ⟨b.graph, b.sub :: outer⟩

/-- Mentions a node: if it is new it gets the attributes for nodes to come. -/
def declare (s : Scope) (id : String) : Scope :=
  let template := s.graph.nodeDefaults
  s.act (·.declareNode id template) (·.declareNode id template)

/-- Adds an edge. -/
def connect (s : Scope) (tail head : String) (templates : List (Attributes .edge)) : Scope :=
  s.act (·.addEdge tail head templates) (·.addEdge tail head templates)

/-- Changes the attributes for nodes to come, those for edges to come, or those of
    the innermost open subgraph or the graph. -/
def assign (s : Scope) (assignments : Assignments) : Target → Scope
  | .scope =>
    s.act (fun g => { g with attrs := g.attrs.assignAll assignments })
      (·.modifyAttrs (·.assignAll assignments))
  | .nodes =>
    { s with graph.nodeDefaults := s.graph.nodeDefaults.assignAll assignments }
  | .edges =>
    { s with graph.edgeDefaults := s.graph.edgeDefaults.assignAll assignments }

/-- Opens a subgraph. -/
def enter (s : Scope) (name : String) : Scope := { s with opened := { name := name } :: s.opened }

/-- Closes the innermost open subgraph, if there is one. -/
def leave (s : Scope) : Scope :=
  match s.opened with
  | [] => s
  | [sub] => { graph := s.graph.attach sub, opened := [] }
  | sub :: parent :: outer => { s with opened := parent.addChild sub :: outer }

/-- The attributes that come from the ports of two neighbours in a chain. -/
def portAttrs (l r : Endpoint) : Attributes .edge :=
  let tail := l.port.elim (∅ : Attributes .edge) (Attributes.putCustom ∅ "tailport")
  r.port.elim tail (tail.putCustom "headport")

/-- Adds the edges between two neighbours in a chain: one from each node of the
    left side to each node of the right side. -/
def connectPair (s : Scope) (attrs : Attributes .edge) (l r : Endpoint) : Scope :=
  let templates := [portAttrs l r, attrs]
  l.ids.foldl (fun s tail => r.ids.foldl (fun s head => s.connect tail head templates) s) s

/-- Adds the edges of a chain, from left to right. -/
def connectChain (s : Scope) (ends : List Endpoint) (assignments : Assignments) : Scope :=
  let attrs := (∅ : Attributes .edge).assignAll assignments
  (Endpoint.pairs ends).foldl (fun s (l, r) => s.connectPair attrs l r) s

end Scope

mutual

/-- The effect of a side of an edge operator on its own: a node is mentioned, and
    the statements in braces take effect. -/
def Endpoint.run : Endpoint → Scope → Scope
  | .node ref, s => s.declare ref.id
  | .subgraph name body, s => (runAll body (s.enter name)).leave

/-- The effect of a statement. -/
def Stmt.run : Stmt → Scope → Scope
  | .attributes target assignments, s => s.assign assignments target
  | .node ref assignments, s =>
    let s := s.declare ref.id
    let attrs := (∅ : Attributes .node).assignAll assignments
    { s with graph := s.graph.modifyNode ref.id (·.merge attrs) }
  | .subgraph name body, s => (runAll body (s.enter name)).leave
  | .edge ends assignments, s => (runEnds ends s).connectChain ends assignments

/-- The effect of statements, one after the other. -/
def runAll : List Stmt → Scope → Scope
  | [], s => s
  | stmt :: body, s => runAll body (stmt.run s)

/-- The effect of the sides of edge operators on their own, one after the
    other. -/
def runEnds : List Endpoint → Scope → Scope
  | [], s => s
  | e :: ends, s => runEnds ends (e.run s)

end

/-- The graph of a document without its statements. -/
def Header.toGraph (h : Header) : Graph :=
  { directed := h.directed, strict := h.strict, name := h.name }

/-- The graph of a document. -/
def Document.toGraph (d : Document) : Graph := (runAll d.body { graph := d.header.toGraph }).graph

end DotLang
