import DotLang.Graph.NodeMap
import DotLang.Graph.Subgraph

/-!
# Graphs

A graph holds its nodes by name in the order in which they came, its edges in the
order in which they were made, and a tree of subgraphs. Edges name their ends,
and subgraphs name their nodes and count their edges. A `Builder` fills a new
subgraph while it keeps the graph up to date.

* `Graph.addNode`, `Graph.declareNode`, `Graph.addEdge`: the operations that
  everything else is made of;
* `Graph.subgraph`, `Builder.subgraph`: building a subgraph.
-/

namespace DotLang

/-- An edge between two nodes, which may be the same. -/
structure Edge where
  tail : String
  head : String
  attrs : Attributes .edge := ∅
  deriving DecidableEq, Inhabited

/-- A graph. -/
structure Graph where
  directed : Bool := false
  strict : Bool := false
  name : Option String := none
  attrs : Attributes .graph := ∅
  /-- The attributes that nodes to come start with. -/
  nodeDefaults : Attributes .node := ∅
  /-- The attributes that edges to come start with. -/
  edgeDefaults : Attributes .edge := ∅
  /-- The nodes by name. -/
  nodeMap : NodeMap := ∅
  edges : Array Edge := #[]
  /-- The subgraphs that are inside of no other. -/
  subgraphs : List Subgraph := []

namespace Graph

instance : Inhabited Graph := ⟨{}⟩

/-- The nodes, in the order in which they came. -/
def nodes (g : Graph) : List Node := g.nodeMap.toList

/-- The node of a name. -/
def node? (g : Graph) (id : String) : Option Node := g.nodeMap.get? id

/-- Whether there is a node of the name. -/
def hasNode (g : Graph) (id : String) : Bool := g.nodeMap.contains id

/-- The number of nodes. -/
def numNodes (g : Graph) : Nat := g.nodeMap.size

/-- The number of edges. -/
def numEdges (g : Graph) : Nat := g.edges.size

/-- Adds a node. It takes the place of a node of the same name. -/
def addNode (g : Graph) (n : Node) : Graph := { g with nodeMap := g.nodeMap.insert n }

/-- Adds a node with the attributes of the template, unless there is a node of
    the name. -/
def declareNode (g : Graph) (id : String) (template : Attributes .node) : Graph :=
  { g with nodeMap := g.nodeMap.declare id template }

/-- Changes the attributes of a node, if there is one. -/
def modifyNode (g : Graph) (id : String) (f : Attributes .node → Attributes .node) : Graph :=
  { g with nodeMap := g.nodeMap.modify id f }

/-- Changes the attributes of an edge, if there is one. -/
def modifyEdge (g : Graph) (index : Nat) (f : Attributes .edge → Attributes .edge) : Graph :=
  { g with edges := g.edges.modify index fun e => { e with attrs := f e.attrs } }

/-- The attributes of a new edge: the defaults, and the templates on top of them,
    each over the ones before. -/
def newEdgeAttrs (g : Graph) (templates : List (Attributes .edge)) : Attributes .edge :=
  templates.foldl Attributes.merge g.edgeDefaults

/-- Adds an edge. Ends that are no nodes yet are added first, without
    attributes. -/
def addEdge (g : Graph) (tail head : String) (templates : List (Attributes .edge)) : Graph :=
  let g := (g.declareNode tail ∅).declareNode head ∅
  { g with edges := g.edges.push ⟨tail, head, g.newEdgeAttrs templates⟩ }

/-- Appends a finished subgraph that is inside of no other. -/
def attach (g : Graph) (s : Subgraph) : Graph := { g with subgraphs := g.subgraphs ++ [s] }

/-- The nodes declared in a subgraph itself. -/
def subgraphNodes (g : Graph) (s : Subgraph) : List Node := s.nodeIds.toList.filterMap g.node?

/-- The edges made in a subgraph itself. -/
def subgraphEdges (g : Graph) (s : Subgraph) : List Edge :=
  s.edgeIndices.toList.filterMap (g.edges[·]?)

end Graph

/-- A new subgraph on the way, and the graph that it belongs to. -/
structure Builder where
  graph : Graph
  sub : Subgraph

namespace Builder

instance : Inhabited Builder := ⟨⟨default, default⟩⟩

/-- A builder of a subgraph that is empty yet. -/
def start (g : Graph) (name : String) : Builder := ⟨g, { name := name }⟩

/-- Adds a node to the graph and declares it in the subgraph. -/
def addNode (b : Builder) (n : Node) : Builder := ⟨b.graph.addNode n, b.sub.register n.id⟩

/-- Declares a node in the subgraph, and adds it to the graph with the attributes
    of the template unless it is there. -/
def declareNode (b : Builder) (id : String) (template : Attributes .node) : Builder :=
  ⟨b.graph.declareNode id template, b.sub.register id⟩

/-- Declares a node in the subgraph, unless it is in it or in a subgraph inside. -/
def adopt (s : Subgraph) (id : String) : Subgraph :=
  if s.containsNode id then s else s.register id

/-- Adds an edge to the graph and notes it in the subgraph. Ends that are not in
    the subgraph become nodes of it. -/
def addEdge (b : Builder) (tail head : String) (templates : List (Attributes .edge)) : Builder where
  graph := b.graph.addEdge tail head templates
  sub := (adopt (adopt b.sub tail) head).recordEdge b.graph.numEdges

/-- Changes the attributes of the subgraph. -/
def modifyAttrs (b : Builder) (f : Attributes .subgraph → Attributes .subgraph) : Builder :=
  { b with sub := { b.sub with attrs := f b.sub.attrs } }

/-- Takes the graph and the subgraph over from a builder of a subgraph inside. -/
def attach (b child : Builder) : Builder := ⟨child.graph, b.sub.addChild child.sub⟩

/-- Builds a subgraph inside of the subgraph. -/
def subgraph (b : Builder) (name : String) (build : Builder → Builder) : Builder :=
  b.attach (build (start b.graph name))

end Builder

/-- Builds a subgraph of a graph. -/
def Graph.subgraph (g : Graph) (name : String) (build : Builder → Builder) : Graph :=
  let b := build (.start g name)
  b.graph.attach b.sub

end DotLang
