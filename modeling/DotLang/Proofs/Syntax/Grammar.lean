import DotLang.Attribute.Attributes
import DotLang.Source.Lexer
import DotLang.Syntax.Document

/-!
# The grammar

Which tokens are a document, independently of how they are read. The grammar is
written as relations between tokens, what they stand for and the tokens after
them. Places do not matter to it, so it is about *lexemes*: tokens without their
place.

Keywords are names like any other. Two rules keep them apart: a word such as
`node` in front of a bracket starts a statement of attributes and nothing else
(`StartsAttributes`), and the word `subgraph` in front of a brace or a name starts
a subgraph and nothing else (`StartsSubgraph`).

* `Grammar.Sentence`: the lexemes of a document;
* `Document.Checked`: what the grammar leaves open, that the texts of attributes
  pass a check.
-/

namespace DotLang

/-- A token without its place. -/
structure Lexeme where
  kind : TokenKind
  value : String
  deriving DecidableEq, Repr

namespace Lexeme

/-- Whether the lexeme is the given word without quotes. -/
def isKeyword (l : Lexeme) (word : String) : Bool := l.kind = .identifier && l.value = word

/-- Whether the lexeme can name a node or be a value. -/
def isId (l : Lexeme) : Bool :=
  l.kind = .identifier || l.kind = .string || l.kind = .number || l.kind = .html

/-- Whether the lexeme can name a graph or a subgraph. -/
def isName (l : Lexeme) : Bool :=
  l.kind = .identifier || l.kind = .string || l.kind = .number

/-- Whether the lexeme can be a key in brackets. -/
def isKey (l : Lexeme) : Bool := l.kind = .identifier || l.kind = .string

end Lexeme

/-- The token without its place. -/
def Token.lexeme (t : Token) : Lexeme := ⟨t.kind, t.value⟩

/-- The lexemes of a text, the end of the text apart. -/
def Tokens.lexemes (ts : Tokens) : List Lexeme := ts.pending.map Token.lexeme

/-- The word that starts a statement of attributes for a target. -/
def Target.keyword : Target → String
  | scope => "graph"
  | nodes => "node"
  | edges => "edge"

namespace Grammar

/-! ### Small phrases -/

/-- Perhaps the word `strict`. -/
inductive StrictMark : List Lexeme → Bool → List Lexeme → Prop
  | absent (ls : List Lexeme) : StrictMark ls false ls
  | present {w : Lexeme} (ls : List Lexeme) : w.isKeyword "strict" → StrictMark (w :: ls) true ls

/-- The word `graph` or `digraph`. -/
inductive KindWord : List Lexeme → Bool → List Lexeme → Prop
  | graph {w : Lexeme} (ls : List Lexeme) : w.isKeyword "graph" → KindWord (w :: ls) false ls
  | digraph {w : Lexeme} (ls : List Lexeme) : w.isKeyword "digraph" → KindWord (w :: ls) true ls

/-- Perhaps the name of the graph. -/
inductive Title : List Lexeme → Option String → List Lexeme → Prop
  | absent (ls : List Lexeme) : Title ls none ls
  | present {n : Lexeme} (ls : List Lexeme) : n.isName → Title (n :: ls) (some n.value) ls

/-- A node: an id, perhaps with a port, perhaps with a compass point. -/
inductive NodeId : List Lexeme → NodeRef → List Lexeme → Prop
  | id {w : Lexeme} (ls : List Lexeme) : w.isId → NodeId (w :: ls) ⟨w.value, none⟩ ls
  | port {w c p : Lexeme} (ls : List Lexeme) : w.isId → c.kind = .colon → p.isId →
      NodeId (w :: c :: p :: ls) ⟨w.value, some p.value⟩ ls
  | compass {w c p c' q : Lexeme} (ls : List Lexeme) : w.isId → c.kind = .colon → p.isId →
      c'.kind = .colon → q.isId →
      NodeId (w :: c :: p :: c' :: q :: ls) ⟨w.value, some (p.value ++ ":" ++ q.value)⟩ ls

/-- Perhaps a comma or a semicolon. -/
inductive Separator : List Lexeme → List Lexeme → Prop
  | absent (ls : List Lexeme) : Separator ls ls
  | present {m : Lexeme} (ls : List Lexeme) : m.kind = .comma ∨ m.kind = .semicolon →
      Separator (m :: ls) ls

/-- Assignments inside of brackets. -/
inductive Pairs : List Lexeme → Assignments → List Lexeme → Prop
  | nil (ls : List Lexeme) : Pairs ls [] ls
  | cons {k e v : Lexeme} {ls ms ns : List Lexeme} {pairs : Assignments} : k.isKey →
      e.kind = .equal → v.isId → Separator ls ms → Pairs ms pairs ns →
      Pairs (k :: e :: v :: ls) ((k.value, v.value) :: pairs) ns

/-- Any number of lists of assignments in brackets. -/
inductive AttrList : List Lexeme → Assignments → List Lexeme → Prop
  | nil (ls : List Lexeme) : AttrList ls [] ls
  | cons {o c : Lexeme} {ls ms ns : List Lexeme} {pairs more : Assignments} :
      o.kind = .leftBracket → Pairs ls pairs (c :: ms) → c.kind = .rightBracket →
      AttrList ms more ns → AttrList (o :: ls) (pairs ++ more) ns

/-! ### Keywords -/

/-- Here starts a statement of attributes, and nothing else. -/
def StartsAttributes : List Lexeme → Prop
  | w :: o :: _ => (∃ target : Target, w.isKeyword target.keyword) ∧ o.kind = .leftBracket
  | _ => False

/-- Here starts a subgraph with its keyword, and nothing else. -/
def StartsSubgraph : List Lexeme → Prop
  | w :: n :: _ => w.isKeyword "subgraph" ∧ (n.kind = .leftBrace ∨ n.isName)
  | _ => False

/-! ### Statements -/

mutual

/-- A subgraph: its name, which is empty if it has none, and its statements. -/
inductive Block : List Lexeme → String → List Stmt → List Lexeme → Prop
  | anonymous {o c : Lexeme} {ls ms : List Lexeme} {body : List Stmt} : o.kind = .leftBrace →
      Statements ls body (c :: ms) → c.kind = .rightBrace → Block (o :: ls) "" body ms
  | keyword {w o c : Lexeme} {ls ms : List Lexeme} {body : List Stmt} : w.isKeyword "subgraph" →
      o.kind = .leftBrace → Statements ls body (c :: ms) → c.kind = .rightBrace →
      Block (w :: o :: ls) "" body ms
  | named {w n o c : Lexeme} {ls ms : List Lexeme} {body : List Stmt} :
      w.isKeyword "subgraph" → n.isName → o.kind = .leftBrace → Statements ls body (c :: ms) →
      c.kind = .rightBrace → Block (w :: n :: o :: ls) n.value body ms

/-- A side of an edge operator. -/
inductive Side : List Lexeme → Endpoint → List Lexeme → Prop
  | node {ls ms : List Lexeme} {ref : NodeRef} : ¬StartsSubgraph ls → NodeId ls ref ms →
      Side ls (.node ref) ms
  | subgraph {ls ms : List Lexeme} {name : String} {body : List Stmt} : Block ls name body ms →
      Side ls (.subgraph name body) ms

/-- Any number of edge operators, each with its right side. -/
inductive Sides : List Lexeme → List Endpoint → List Lexeme → Prop
  | nil (ls : List Lexeme) : Sides ls [] ls
  | cons {a : Lexeme} {ls ms ns : List Lexeme} {e : Endpoint} {ends : List Endpoint} :
      a.kind = .edgeOp → Side ls e ms → Sides ms ends ns → Sides (a :: ls) (e :: ends) ns

/-- A statement. -/
inductive Statement : List Lexeme → Stmt → List Lexeme → Prop
  | attributes {w o : Lexeme} {ls ms : List Lexeme} {target : Target} {pairs : Assignments} :
      w.isKeyword target.keyword → o.kind = .leftBracket → AttrList (o :: ls) pairs ms →
      Statement (w :: o :: ls) (.attributes target pairs) ms
  | assign {k e v : Lexeme} (ls : List Lexeme) : k.isId → e.kind = .equal → v.isId →
      Statement (k :: e :: v :: ls) (.attributes .scope [(k.value, v.value)]) ls
  | node {ls ms ns : List Lexeme} {ref : NodeRef} {pairs : Assignments} : ¬StartsAttributes ls →
      ¬StartsSubgraph ls → NodeId ls ref ms → AttrList ms pairs ns →
      Statement ls (.node ref pairs) ns
  | edge {ls ms ns rest : List Lexeme} {e : Endpoint} {ends : List Endpoint}
      {pairs : Assignments} : ¬StartsAttributes ls → Side ls e ms → Sides ms ends ns →
      ends ≠ [] → AttrList ns pairs rest → Statement ls (.edge (e :: ends) pairs) rest
  | subgraph {ls ms : List Lexeme} {name : String} {body : List Stmt} : Block ls name body ms →
      Statement ls (.subgraph name body) ms

/-- Statements, with any number of semicolons before, between and after them. -/
inductive Statements : List Lexeme → List Stmt → List Lexeme → Prop
  | nil (ls : List Lexeme) : Statements ls [] ls
  | semicolon {m : Lexeme} {ls ms : List Lexeme} {body : List Stmt} : m.kind = .semicolon →
      Statements ls body ms → Statements (m :: ls) body ms
  | cons {ls ms ns : List Lexeme} {s : Stmt} {body : List Stmt} : Statement ls s ms →
      Statements ms body ns → Statements ls (s :: body) ns

end

/-- The lexemes of a document. -/
inductive Sentence : List Lexeme → Document → Prop
  | mk {ls ms ns rest : List Lexeme} {o c : Lexeme} {strict directed : Bool}
      {name : Option String} {body : List Stmt} : StrictMark ls strict ms →
      KindWord ms directed ns → Title ns name (o :: rest) → o.kind = .leftBrace →
      Statements rest body [c] → c.kind = .rightBrace → Sentence ls ⟨⟨strict, directed, name⟩, body⟩

end Grammar

/-! ### Texts of attributes -/

/-- What the attributes of a target belong to, inside of a subgraph or outside. -/
def Target.owner (nested : Bool) : Target → Owner
  | scope => if nested then .subgraph else .graph
  | nodes => .node
  | edges => .edge

section

variable (ok : Owner → Assignments → Prop)

mutual

/-- The assignments inside of an endpoint pass a check. -/
def Endpoint.Checked : Endpoint → Prop
  | .node _ => True
  | .subgraph _ body => CheckedAll true body

/-- The assignments of a statement pass a check, and so do those inside of it. -/
def Stmt.Checked (nested : Bool) : Stmt → Prop
  | .attributes target pairs => ok (target.owner nested) pairs
  | .node _ pairs => ok .node pairs
  | .subgraph _ body => CheckedAll true body
  | .edge ends pairs => CheckedEnds ends ∧ ok .edge pairs

/-- The assignments of statements pass a check. -/
def CheckedAll (nested : Bool) : List Stmt → Prop
  | [] => True
  | s :: body => s.Checked nested ∧ CheckedAll nested body

/-- The assignments inside of endpoints pass a check. -/
def CheckedEnds : List Endpoint → Prop
  | [] => True
  | e :: ends => e.Checked ∧ CheckedEnds ends

end

/-- All assignments of a document pass a check. -/
def Document.Checked (d : Document) : Prop := CheckedAll ok false d.body

end

/-- Every text can be assigned to its key. -/
def Owner.Accepts (o : Owner) (pairs : Assignments) : Prop :=
  ∀ pair ∈ pairs, ∃ a : Attributes o, (∅ : Attributes o).set pair.1 pair.2 = .ok a

end DotLang
