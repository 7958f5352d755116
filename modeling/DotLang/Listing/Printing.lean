import DotLang.Listing.Text
import Std.Data.HashSet

/-!
# Printing a graph

Names, marks and tabs of a graph are put out one after the other, each as soon as it is known.
What takes them may fail, and then nothing more is put out. What is written inside of subgraphs
is claimed by them before anything is put out, so that it is not written again behind them.

* `Print`: what puts out pieces of text;
* `Graph.claims`: the nodes and edges that subgraphs claim;
* `Graph.print`: a graph;
* `Graph.display`: the text that is put out.
-/

namespace DotLang

/-- What puts out pieces of text, to something that has the states `σ`. It is cut short if a piece
    is not taken. -/
abbrev Print (σ : Type) := ExceptT Unit (StateM σ)

namespace Print

/-- Appends a piece to a text. This never fails. -/
def append (piece : List Char) : Print String Unit :=
  fun text => (.ok (), text ++ String.ofList piece)

/-- Puts something out on a condition. -/
def when {σ : Type} (c : Bool) (p : Print σ Unit) : Print σ Unit := if c then p else pure ()

variable {σ : Type} (put : List Char → Print σ Unit)

/-- A tab for each step of a depth. -/
def tabs (depth : Nat) : Print σ Unit := (List.replicate depth ['\t']).forM put

/-- An attribute and its text in quotes. -/
def pair (entry : String × String) : Print σ Unit := do
  put entry.1.toList
  put ['=']
  put (quoted entry.2)

/-- A list of attributes in brackets. -/
def brackets (entries : List (String × String)) : Print σ Unit := do
  put ['[']
  entries.zipIdx.forM fun (entry, i) => do
    when (0 < i) (put [',', ' '])
    pair put entry
  put [']']

/-- The end of a line, with a list of attributes unless it is empty. -/
def lineEnd (entries : List (String × String)) : Print σ Unit := do
  when (!entries.isEmpty) do
    put [' ']
    brackets put entries
  put [';', '\n']

/-- Attributes of a graph or a subgraph, each on a line. -/
def assignments (depth : Nat) (entries : List (String × String)) : Print σ Unit :=
  entries.forM fun entry => do
    tabs put depth
    pair put entry
    put [';', '\n']

/-- The line of attributes for nodes or edges to come, if there are any. -/
def defaults (keyword : String) (entries : List (String × String)) : Print σ Unit :=
  when (!entries.isEmpty) do
    tabs put 1
    put keyword.toList
    put [' ']
    brackets put entries
    put [';', '\n']

/-- A name behind a space, if there is one. -/
def title (name : Option String) : Print σ Unit :=
  match name with
  | some name => do
    put [' ']
    put (quoted name)
  | none => pure ()

/-- The opening line of a subgraph behind its tabs. -/
def opening (name : Option String) : Print σ Unit :=
  match name with
  | some name => do
    put "subgraph ".toList
    put (quoted name)
    put [' ', '\x7b', '\n']
  | none => put "subgraph \x7b\n".toList

end Print

/-! ### Claims -/

/-- The nodes and the edges that are written inside of subgraphs. Edges are told apart by their
    places. -/
structure Claims where
  nodes : Std.HashSet String := ∅
  edges : Std.HashSet Nat := ∅

namespace Claims

mutual

/-- Adds what a subgraph and those inside of it claim. -/
def add (c : Claims) : Subgraph → Claims
  | ⟨_, _, nodeIds, edgeIndices, children⟩ =>
    addAll
      { nodes := c.nodes.insertMany nodeIds.toList
        edges := c.edges.insertMany edgeIndices.toList }
      children

/-- Adds what subgraphs claim, one after the other. -/
def addAll (c : Claims) : List Subgraph → Claims
  | [] => c
  | s :: subs => addAll (add c s) subs

end

end Claims

/-! ### Graphs -/

namespace Graph

/-- What the subgraphs of a graph claim. -/
def claims (g : Graph) : Claims := Claims.addAll {} g.subgraphs

variable {σ : Type} (g : Graph) (put : List Char → Print σ Unit)

open Print

/-- The line of a node. -/
def printNode (depth : Nat) (n : Node) : Print σ Unit := do
  tabs put depth
  put (quoted n.id)
  lineEnd put (Attributes.withoutDefaults n.attrs.entries g.nodeDefaults.entries)

/-- The line of an edge. -/
def printEdge (depth : Nat) (e : Edge) : Print σ Unit := do
  tabs put depth
  put (quoted e.tail)
  put [' ']
  put (operatorChars g.directed)
  put [' ']
  put (quoted e.head)
  lineEnd put (Attributes.withoutDefaults e.attrs.entries g.edgeDefaults.entries)

mutual

/-- The lines of a subgraph. -/
def printSubgraph (depth : Nat) : Subgraph → Print σ Unit
  | ⟨name, attrs, nodeIds, edgeIndices, children⟩ => do
    let s : Subgraph := ⟨name, attrs, nodeIds, edgeIndices, children⟩
    tabs put depth
    opening put s.name?
    assignments put (depth + 1) attrs.entries
    (g.subgraphNodes s).forM (g.printNode put (depth + 1))
    printSubgraphs (depth + 1) children
    (g.subgraphEdges s).forM (g.printEdge put (depth + 1))
    tabs put depth
    put ['\x7d', '\n']

/-- The lines of subgraphs, one after the other. -/
def printSubgraphs (depth : Nat) : List Subgraph → Print σ Unit
  | [] => pure ()
  | s :: subs => do
    printSubgraph depth s
    printSubgraphs depth subs

end

/-- The first line, up to the opening brace. -/
def printTitle : Print σ Unit := do
  when g.strict (put "strict ".toList)
  put (if g.directed then "digraph".toList else "graph".toList)
  title put g.name
  put [' ', '\x7b', '\n']

/-- The whole graph. Nodes and edges that no subgraph claims come last. -/
def print : Print σ Unit := do
  let claims := g.claims
  g.printTitle put
  assignments put 1 g.attrs.entries
  defaults put "node" g.nodeDefaults.entries
  defaults put "edge" g.edgeDefaults.entries
  g.printSubgraphs put 1 g.subgraphs
  g.nodes.forM fun n => when (!claims.nodes.contains n.id) (g.printNode put 1 n)
  g.edges.toList.zipIdx.forM fun (e, i) =>
    when (!claims.edges.contains i) (g.printEdge put 1 e)
  put ['\x7d']

/-- The text that is put out. -/
def display : String := (g.print append "").2

end Graph

end DotLang
