import DotLang.Graph.Basic

/-!
# The lines of a graph

A graph is written as a list of lines, each at a depth of indentation: first the
attributes of the graph and the attributes for nodes and edges to come, then the
subgraphs, and last the nodes and edges that are in no subgraph. A subgraph has
its attributes, its nodes, the subgraphs inside and its edges, in this order
between an opening and a closing line.

An attribute that a node or an edge shares with those to come is not written
again.

* `Graph.lines`: the lines of a graph between its braces.
-/

namespace DotLang

/-- What a line says. -/
inductive Item where
  /-- An attribute of the graph or the subgraph that the line is in. -/
  | assign (key text : String)
  /-- The attributes for nodes or edges to come, after their keyword. -/
  | defaults (keyword : String) (entries : List (String × String))
  | node (id : String) (entries : List (String × String))
  | edge (tail head : String) (entries : List (String × String))
  /-- The opening line of a subgraph. -/
  | opening (name : Option String)
  /-- The closing line of a subgraph. -/
  | closing
  deriving DecidableEq, Repr

/-- A line and its depth. -/
structure Line where
  depth : Nat
  item : Item
  deriving DecidableEq, Repr

namespace Subgraph

mutual

/-- Whether an edge was made in a subgraph or in one inside of it. -/
def recordsEdge (index : Nat) : Subgraph → Bool
  | ⟨_, _, _, indices, children⟩ => indices.contains index || anyRecordsEdge index children

/-- Whether an edge was made in one of the subgraphs or inside of one. -/
def anyRecordsEdge (index : Nat) : List Subgraph → Bool
  | [] => false
  | s :: subs => s.recordsEdge index || anyRecordsEdge index subs

end

end Subgraph

namespace Graph

/-- The lines of attributes at a depth. -/
def assignLines (depth : Nat) (entries : List (String × String)) : List Line :=
  entries.map fun (key, text) => ⟨depth, .assign key text⟩

/-- The line of attributes for nodes or edges to come, if there are any. -/
def defaultsLines (keyword : String) (entries : List (String × String)) : List Line :=
  if entries.isEmpty then [] else [⟨1, .defaults keyword entries⟩]

/-- The line of a node. -/
def nodeLine (g : Graph) (depth : Nat) (n : Node) : Line :=
  ⟨depth, .node n.id (Attributes.withoutDefaults n.attrs.entries g.nodeDefaults.entries)⟩

/-- The line of an edge. -/
def edgeLine (g : Graph) (depth : Nat) (e : Edge) : Line :=
  ⟨depth,
    .edge e.tail e.head (Attributes.withoutDefaults e.attrs.entries g.edgeDefaults.entries)⟩

mutual

/-- The lines of a subgraph. -/
def subgraphLines (g : Graph) (depth : Nat) : Subgraph → List Line
  | ⟨name, attrs, nodeIds, edgeIndices, children⟩ =>
    let s : Subgraph := ⟨name, attrs, nodeIds, edgeIndices, children⟩
    [⟨depth, .opening s.name?⟩]
      ++ assignLines (depth + 1) attrs.entries
      ++ (g.subgraphNodes s).map (g.nodeLine (depth + 1))
      ++ subgraphsLines g (depth + 1) children
      ++ (g.subgraphEdges s).map (g.edgeLine (depth + 1))
      ++ [⟨depth, .closing⟩]

/-- The lines of subgraphs, one after the other. -/
def subgraphsLines (g : Graph) (depth : Nat) : List Subgraph → List Line
  | [] => []
  | s :: subs => subgraphLines g depth s ++ subgraphsLines g depth subs

end

/-- The nodes that are in no subgraph. -/
def looseNodes (g : Graph) : List Node :=
  g.nodes.filter fun n => !Subgraph.anyContainsNode n.id g.subgraphs

/-- The edges that were made in no subgraph. -/
def looseEdges (g : Graph) : List Edge :=
  (g.edges.toList.zipIdx.filter fun (_, i) => !Subgraph.anyRecordsEdge i g.subgraphs).map Prod.fst

/-- The lines of a graph between its braces. -/
def lines (g : Graph) : List Line :=
  assignLines 1 g.attrs.entries
    ++ defaultsLines "node" g.nodeDefaults.entries
    ++ defaultsLines "edge" g.edgeDefaults.entries
    ++ g.subgraphsLines 1 g.subgraphs
    ++ g.looseNodes.map (g.nodeLine 1)
    ++ g.looseEdges.map (g.edgeLine 1)

end Graph

end DotLang
