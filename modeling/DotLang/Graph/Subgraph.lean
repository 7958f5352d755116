import DotLang.Attribute.Attributes

/-!
# Subgraphs

A subgraph owns neither nodes nor edges. It holds the names of the nodes that
were declared in it and the places of the edges that were made in it; nodes and
edges themselves belong to the graph. Subgraphs form a tree.

* `Subgraph.memberIds`: the nodes of a subgraph and of those inside of it, each
  once;
* `Subgraph.containsNode`: whether a node is among them.
-/

namespace DotLang

/-- A subgraph. A subgraph without a name has the empty name. -/
structure Subgraph where
  name : String
  attrs : Attributes .subgraph := ∅
  /-- The nodes declared in the subgraph itself, in order of declaration. -/
  nodeIds : Array String := #[]
  /-- The places, in the list of edges of the graph, of the edges made in the
      subgraph itself. -/
  edgeIndices : Array Nat := #[]
  /-- The subgraphs inside, in order of their ends. -/
  children : List Subgraph := []

namespace Subgraph

instance : Inhabited Subgraph := ⟨{ name := "" }⟩

/-- The name, unless the subgraph has none. -/
def name? (s : Subgraph) : Option String := if s.name.isEmpty then none else some s.name

/-- Whether the subgraph is drawn as a cluster: its name says so. -/
def isCluster (s : Subgraph) : Bool := "cluster".toList.isPrefixOf s.name.toList

/-- Declares a node, unless it has been declared. -/
def register (s : Subgraph) (id : String) : Subgraph :=
  if s.nodeIds.contains id then s else { s with nodeIds := s.nodeIds.push id }

/-- Notes an edge that was made in the subgraph. -/
def recordEdge (s : Subgraph) (index : Nat) : Subgraph :=
  { s with edgeIndices := s.edgeIndices.push index }

/-- Appends a subgraph that is inside. -/
def addChild (s child : Subgraph) : Subgraph := { s with children := s.children ++ [child] }

mutual

/-- Whether a node is declared in a subgraph or in one inside of it. -/
def containsNode (id : String) : Subgraph → Bool
  | ⟨_, _, nodeIds, _, children⟩ => nodeIds.contains id || anyContainsNode id children

/-- Whether a node is declared in one of the subgraphs or inside of one. -/
def anyContainsNode (id : String) : List Subgraph → Bool
  | [] => false
  | s :: subs => s.containsNode id || anyContainsNode id subs

end

/-- Adds a member, unless it is one. -/
def addMember (members : Array String) (id : String) : Array String :=
  if members.contains id then members else members.push id

mutual

/-- Adds the nodes declared in a subgraph, then those of the subgraphs inside. -/
def collectMembers (members : Array String) : Subgraph → Array String
  | ⟨_, _, nodeIds, _, children⟩ => collectAll (nodeIds.foldl addMember members) children

/-- Adds the nodes of subgraphs, one subgraph after the other. -/
def collectAll (members : Array String) : List Subgraph → Array String
  | [] => members
  | s :: subs => collectAll (s.collectMembers members) subs

end

/-- The nodes declared in the subgraph, then those of the subgraphs inside, each
    once. -/
def memberIds (s : Subgraph) : Array String := s.collectMembers #[]

end Subgraph

end DotLang
