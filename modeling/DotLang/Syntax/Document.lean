/-!
# Documents

The syntax tree of a text: a header and a list of statements, some of which hold
lists of statements in turn.

* `Endpoint.ids`: the nodes that a side of an edge operator stands for;
* `Stmt.remarks`: what a statement does that its text does not show.
-/

namespace DotLang

/-- Pairs of a key and a text. -/
abbrev Assignments := List (String × String)

/-- A mention of a node, perhaps with a port. A compass point is a part of the
    port, after a colon. -/
structure NodeRef where
  id : String
  port : Option String := none
  deriving DecidableEq, Repr, Inhabited

/-- What the attributes of a statement without a node or an edge are for. -/
inductive Target where
  /-- The graph or the subgraph that the statement is in. -/
  | scope
  /-- The nodes to come. -/
  | nodes
  /-- The edges to come. -/
  | edges
  deriving DecidableEq, Repr

mutual

/-- A side of an edge operator. -/
inductive Endpoint where
  | node (ref : NodeRef)
  | subgraph (name : String) (body : List Stmt)

/-- A statement. A subgraph without a name has the empty name. -/
inductive Stmt where
  | attributes (target : Target) (assignments : Assignments)
  | node (ref : NodeRef) (assignments : Assignments)
  | subgraph (name : String) (body : List Stmt)
  | edge (ends : List Endpoint) (assignments : Assignments)

end

instance : Inhabited Endpoint := ⟨.node default⟩

instance : Inhabited Stmt := ⟨.edge [] []⟩

/-- What comes before the statements of a document. -/
structure Header where
  strict : Bool := false
  directed : Bool := false
  name : Option String := none
  deriving DecidableEq, Repr, Inhabited

/-- A document. -/
structure Document where
  header : Header
  body : List Stmt
  deriving Inhabited

/-! ### Mentions of nodes -/

/-- The node that an endpoint mentions outside of braces. -/
def Endpoint.direct : Endpoint → List String
  | .node ref => [ref.id]
  | .subgraph _ _ => []

/-- The nodes that a statement mentions outside of inner braces. -/
def Stmt.direct : Stmt → List String
  | .attributes _ _ => []
  | .node ref _ => [ref.id]
  | .subgraph _ _ => []
  | .edge ends _ => ends.flatMap Endpoint.direct

mutual

/-- The nodes mentioned inside of the braces of an endpoint: first those outside
    of inner braces, then those inside of them. -/
def Endpoint.inner : Endpoint → List String
  | .node _ => []
  | .subgraph _ body => body.flatMap Stmt.direct ++ innerAll body

/-- The nodes mentioned inside of the braces of a statement. -/
def Stmt.inner : Stmt → List String
  | .attributes _ _ => []
  | .node _ _ => []
  | .subgraph _ body => body.flatMap Stmt.direct ++ innerAll body
  | .edge ends _ => innerEnds ends

/-- The nodes mentioned inside of the braces of statements. -/
def innerAll : List Stmt → List String
  | [] => []
  | s :: body => s.inner ++ innerAll body

/-- The nodes mentioned inside of the braces of endpoints. -/
def innerEnds : List Endpoint → List String
  | [] => []
  | e :: ends => e.inner ++ innerEnds ends

end

/-- The nodes that a side of an edge operator stands for: the node itself, or
    the nodes of the subgraph, each once. -/
def Endpoint.ids : Endpoint → List String
  | .node ref => [ref.id]
  | .subgraph name body => (Endpoint.subgraph name body).inner.eraseDups

/-- The port of a side of an edge operator. -/
def Endpoint.port : Endpoint → Option String
  | .node ref => ref.port
  | .subgraph _ _ => none

/-- The neighbours in a chain of edge operators. -/
def Endpoint.pairs (ends : List Endpoint) : List (Endpoint × Endpoint) :=
  ends.zip ends.tail

/-! ### Remarks -/

/-- Something that a statement does without its text showing it. -/
inductive Remark where
  /-- The port of a node statement has no effect. -/
  | ignoredPort (port node : String)
  /-- An edge operator between subgraphs stands for so many edges. -/
  | expanded (edges : Nat)
  deriving DecidableEq, Repr

/-- What is to be remarked on a statement itself, not on those inside of it. -/
def Stmt.remarks : Stmt → List Remark
  | .node ⟨id, some port⟩ _ => [.ignoredPort port id]
  | .edge ends _ =>
    (Endpoint.pairs ends).filterMap fun (l, r) =>
      let count := l.ids.length * r.ids.length
      if 1 < count then some (.expanded count) else none
  | _ => []

end DotLang
