import DotLang.Syntax.Document
import DotLang.Syntax.Fault

/-!
# Reading statements

A document is read one token at a time. What has been read of its statements is a
`Reading`: the open braces with the finished statements before them, the finished
statements since, and the part of a statement read so far. A token either extends
the reading, or shows that no document goes on in this way.

Words such as `node` are names like any other; only the token after one of them
makes it a keyword. So the reading remembers the word and decides at the next
token.

* `Reading.step`: one token;
* `Reading.step_leadsTo`: which tokens extend a reading.
-/

namespace DotLang

/-! ### Assignments on the way -/

/-- An assignment with the place of its text. -/
structure Entry where
  key : String
  text : String
  pos : Position
  deriving DecidableEq, Repr, Inhabited

/-- Why a text cannot be assigned to a key, if it cannot. -/
def Owner.mismatch? (o : Owner) (key text : String) : Option Mismatch :=
  match o.typeOf? key with
  | none => none
  | some t =>
    match t.read text with
    | .ok _ => none
    | .error m => some m

/-- The error of the first entry whose text is no value of its attribute. -/
def Entry.firstError? (o : Owner) (entries : List Entry) : Option ParseError :=
  entries.findSome? fun e =>
    (o.mismatch? e.key e.text).map fun m => ⟨.badValue ⟨e.key, e.text, m⟩, e.pos⟩

/-- What a list of assignments in brackets belongs to. -/
inductive Subject where
  | attributes (target : Target)
  | node (ref : NodeRef)
  /-- The endpoints of an edge statement, the latest first. -/
  | edge (chain : List Endpoint)

/-- The owner of the attributes of a subject. -/
def Subject.owner (nested : Bool) : Subject → Owner
  | attributes .scope => if nested then .subgraph else .graph
  | attributes .nodes => .node
  | attributes .edges => .edge
  | node _ => .node
  | edge _ => .edge

/-- The statement of a subject with its assignments. -/
def Subject.stmt (assignments : Assignments) : Subject → Stmt
  | attributes target => .attributes target assignments
  | node ref => .node ref assignments
  | edge chain => .edge chain.reverse assignments

/-! ### What has been read -/

/-- The part of a statement that has been read. A chain holds the endpoints of an
    edge statement, the latest first; it is empty at the start of a statement. The
    entries of a list are in reverse order as well. -/
inductive Part where
  /-- Nothing: a statement may start or the braces may close. -/
  | nothing
  /-- An edge operator. -/
  | operator (chain : List Endpoint)
  /-- A name that may be a keyword. -/
  | name (chain : List Endpoint) (word : Token)
  /-- The keyword and the name of a subgraph. -/
  | subgraphName (chain : List Endpoint) (name : String)
  /-- A node and a colon. -/
  | colon (chain : List Endpoint) (word : Token)
  /-- A node with a port. -/
  | port (chain : List Endpoint) (word : Token) (port : String)
  /-- A node with a port, and a colon. -/
  | portColon (chain : List Endpoint) (word : Token) (port : String)
  /-- A node with a port and a compass point. -/
  | compass (chain : List Endpoint) (word : Token) (port : String)
  /-- A subgraph, which is the head of the chain. -/
  | endpoint (chain : List Endpoint)
  /-- A name and an equals sign. -/
  | assign (key : String)
  /-- An assignment. -/
  | assigned (entry : Entry)
  /-- A list in brackets, after the opening bracket or a separator. -/
  | list (subject : Subject) (entries : List Entry)
  /-- A list in brackets, after a key. -/
  | key (subject : Subject) (entries : List Entry) (key : String)
  /-- A list in brackets, after an equals sign. -/
  | equals (subject : Subject) (entries : List Entry) (key : String)
  /-- A list in brackets, after an assignment. -/
  | entry (subject : Subject) (entries : List Entry)
  /-- Lists in brackets, after the closing bracket. -/
  | lists (subject : Subject) (entries : List Entry)

/-- A pair of braces that is open: the name of its subgraph, the endpoints read
    before it in the same statement and the statements before that one, both with
    the latest first. -/
structure OpenBrace where
  name : String
  chain : List Endpoint
  before : List Stmt

/-- What has been read of the statements of a document. -/
structure Reading where
  header : Header
  /-- The braces of subgraphs that are open, the innermost first. -/
  braces : List OpenBrace := []
  /-- The finished statements inside of the innermost braces, the latest first. -/
  stmts : List Stmt := []
  /-- The statement that is not finished. -/
  part : Part := .nothing
  /-- The remarks on all finished statements, the latest first. -/
  remarks : List Remark := []

/-- What has been read of a document. -/
inductive Progress where
  /-- Nothing. -/
  | start
  /-- The word `strict`. -/
  | strict
  /-- The word `graph` or `digraph`. -/
  | keyword (header : Header)
  /-- The name of the graph too. -/
  | titled (header : Header)
  /-- The opening brace, and statements after it. -/
  | body (r : Reading)
  /-- The closing brace. -/
  | closed (document : Document) (remarks : List Remark)

/-- Why a token cannot be read, and the remarks on the statements finished before
    it, the latest first. -/
structure Stuck where
  error : ParseError
  remarks : List Remark

namespace Reading

/-- The reading stops with an error. -/
def fail {α : Type} (r : Reading) (e : ParseError) : Except Stuck α := .error ⟨e, r.remarks⟩

/-- The reading with another unfinished statement. -/
def go (r : Reading) (part : Part) : Except Stuck Progress := .ok (.body { r with part := part })

/-- The reading with a finished statement. -/
def finish (r : Reading) (s : Stmt) : Reading :=
  { r with stmts := s :: r.stmts, part := .nothing, remarks := s.remarks.reverse ++ r.remarks }

/-- The reading with a finished statement of assignments, unless the text of one
    of them is no value. -/
def finishList (r : Reading) (subject : Subject) (entries : List Entry) :
    Except Stuck Reading :=
  match Entry.firstError? (subject.owner !r.braces.isEmpty) entries.reverse with
  | some e => r.fail e
  | none => .ok (r.finish (subject.stmt (entries.reverse.map fun e => (e.key, e.text))))

/-- The reading after the opening brace of a subgraph. -/
def openBrace (r : Reading) (chain : List Endpoint) (name : String) : Except Stuck Progress :=
  .ok <| .body
    { r with braces := ⟨name, chain, r.stmts⟩ :: r.braces, stmts := [], part := .nothing }

/-- The reading after a closing brace. The braces become a subgraph of the
    statement before them, and the last ones end the document. -/
def closeBrace (r : Reading) : Progress :=
  match r.braces with
  | [] => .closed ⟨r.header, r.stmts.reverse⟩ r.remarks
  | brace :: braces => .body
    { r with
      braces := braces
      stmts := brace.before
      part := .endpoint (.subgraph brace.name r.stmts.reverse :: brace.chain) }

/-- Reads the first token of a statement or an endpoint. -/
def first (r : Reading) (chain : List Endpoint) (expected : Expected) (t : Token) :
    Except Stuck Progress :=
  if t.kind = .leftBrace then r.openBrace chain ""
  else if t.isId then r.go (.name chain t)
  else r.fail (.atToken expected t)

/-- Reads a token between two statements. -/
def between (r : Reading) (t : Token) : Except Stuck Progress :=
  if t.kind = .semicolon then r.go .nothing
  else if t.kind = .rightBrace then .ok r.closeBrace
  else r.first [] .statement t

/-- Reads a token after a finished list of assignments. -/
def afterList (r : Reading) (subject : Subject) (entries : List Entry) (t : Token) :
    Except Stuck Progress :=
  match r.finishList subject entries with
  | .error e => .error e
  | .ok r => r.between t

/-- Reads a token after which a list of assignments may start. -/
def afterSubject (r : Reading) (subject : Subject) (entries : List Entry) (t : Token) :
    Except Stuck Progress :=
  if t.kind = .leftBracket then r.go (.list subject entries)
  else r.afterList subject entries t

/-- Reads a token after an endpoint, which is the head of the chain. An endpoint
    alone is a statement of its own, and a subgraph alone takes no list. -/
def afterEndpoint (r : Reading) (chain : List Endpoint) (t : Token) : Except Stuck Progress :=
  if t.kind = .edgeOp then r.go (.operator chain)
  else
    match chain with
    | [.node ref] => r.afterSubject (.node ref) [] t
    | [.subgraph name body] => (r.finish (.subgraph name body)).between t
    | chain => r.afterSubject (.edge chain) [] t

/-- Reads a token after a node. A node alone may be a key that is assigned to. -/
def afterNode (r : Reading) (chain : List Endpoint) (word : Token) (port : Option String)
    (t : Token) : Except Stuck Progress :=
  if t.kind = .equal ∧ chain.isEmpty then
    if port.isSome then r.fail ⟨.assignedPort, word.pos⟩
    else r.go (.assign word.value)
  else r.afterEndpoint (.node ⟨word.value, port⟩ :: chain) t

/-- The target of an attribute statement that starts with the word, if any. -/
def target? (word : Token) : Option Target :=
  if word.isKeyword "graph" then some .scope
  else if word.isKeyword "node" then some .nodes
  else if word.isKeyword "edge" then some .edges
  else none

/-- Reads a token after a name, which may turn out to be a keyword. -/
def afterName (r : Reading) (chain : List Endpoint) (word t : Token) : Except Stuck Progress :=
  if t.kind = .colon then r.go (.colon chain word)
  else if word.isKeyword "subgraph" ∧ t.kind = .leftBrace then r.openBrace chain ""
  else if word.isKeyword "subgraph" ∧ t.isName then r.go (.subgraphName chain t.value)
  else if t.kind = .leftBracket ∧ chain.isEmpty then
    match target? word with
    | some target => r.go (.list (.attributes target) [])
    | none => r.afterNode chain word none t
  else r.afterNode chain word none t

/-- Reads a token inside of a list in brackets, where a key may stand. -/
def inList (r : Reading) (subject : Subject) (entries : List Entry) (t : Token) :
    Except Stuck Progress :=
  if t.kind = .rightBracket then r.go (.lists subject entries)
  else if t.kind = .identifier ∨ t.kind = .string then r.go (.key subject entries t.value)
  else r.fail (.atToken .attributeName t)

/-- Reads a token after the opening brace of the document. -/
def step (r : Reading) (t : Token) : Except Stuck Progress :=
  match r.part with
  | .nothing => r.between t
  | .operator chain => r.first chain .endpoint t
  | .name chain word => r.afterName chain word t
  | .subgraphName chain name =>
    if t.kind = .leftBrace then r.openBrace chain name
    else r.fail (.atToken (.token .leftBrace) t)
  | .colon chain word =>
    if t.isId then r.go (.port chain word t.value) else r.fail (.atToken .portName t)
  | .port chain word port =>
    if t.kind = .colon then r.go (.portColon chain word port)
    else r.afterNode chain word (some port) t
  | .portColon chain word port =>
    if t.isId then r.go (.compass chain word (port ++ ":" ++ t.value))
    else r.fail (.atToken .compassPoint t)
  | .compass chain word port => r.afterNode chain word (some port) t
  | .endpoint chain => r.afterEndpoint chain t
  | .assign key =>
    if t.isId then r.go (.assigned ⟨key, t.value, t.pos⟩) else r.fail (.atToken .value t)
  | .assigned entry => r.afterList (.attributes .scope) [entry] t
  | .list subject entries => r.inList subject entries t
  | .key subject entries key =>
    if t.kind = .equal then r.go (.equals subject entries key)
    else r.fail (.atToken (.token .equal) t)
  | .equals subject entries key =>
    if t.isId then r.go (.entry subject (⟨key, t.value, t.pos⟩ :: entries))
    else r.fail (.atToken .attributeValue t)
  | .entry subject entries =>
    if t.kind = .comma ∨ t.kind = .semicolon then r.go (.list subject entries)
    else r.inList subject entries t
  | .lists subject entries => r.afterSubject subject entries t

end Reading

/-! ### Which tokens can be read

Nothing that has been read goes on with the end of the text, so a document that is cut
short is an error there. Nor does it go on with a character that starts no token, and only
a closing brace ends a document. -/

/-- What is so of a token that leads from something that has been read to `p`. -/
structure Token.LeadsTo (t : Token) (p : Progress) : Prop where
  ne_endOfInput : t.kind ≠ .endOfInput
  ne_illegal : t.kind ≠ .illegal
  rightBrace : ∀ document remarks, p = .closed document remarks → t.kind = .rightBrace

namespace Reading

variable {r r' : Reading} {t : Token} {p : Progress} {chain : List Endpoint}
  {subject : Subject} {entries : List Entry} {word : Token}

theorem leadsTo_of_kind {k : TokenKind} (h : t.kind = k) (hend : k ≠ .endOfInput)
    (hillegal : k ≠ .illegal) : t.LeadsTo (.body r) :=
  ⟨h ▸ hend, h ▸ hillegal, nofun⟩

theorem leadsTo_of_isId (h : t.isId) : t.LeadsTo (.body r) := by
  simp only [Token.isId, Bool.or_eq_true, decide_eq_true_eq] at h
  rcases h with ((h | h) | h) | h <;> exact leadsTo_of_kind h nofun nofun

theorem leadsTo_of_isName (h : t.isName) : t.LeadsTo (.body r) := by
  simp only [Token.isName, Bool.or_eq_true, decide_eq_true_eq] at h
  rcases h with (h | h) | h <;> exact leadsTo_of_kind h nofun nofun

theorem first_leadsTo {expected : Expected} (h : r.first chain expected t = .ok p) :
    t.LeadsTo p := by
  unfold first at h
  split at h
  · next hk =>
    cases h
    exact leadsTo_of_kind hk nofun nofun
  split at h
  · next hid =>
    cases h
    exact leadsTo_of_isId hid
  · cases h

theorem between_leadsTo (h : r.between t = .ok p) : t.LeadsTo p := by
  unfold between at h
  split at h
  · next hk =>
    cases h
    exact leadsTo_of_kind hk nofun nofun
  split at h
  · next hk => exact ⟨by simp [hk], by simp [hk], fun _ _ _ => hk⟩
  · exact first_leadsTo h

theorem afterList_leadsTo (h : r.afterList subject entries t = .ok p) : t.LeadsTo p := by
  unfold afterList at h
  split at h
  · cases h
  · exact between_leadsTo h

theorem afterSubject_leadsTo (h : r.afterSubject subject entries t = .ok p) : t.LeadsTo p := by
  unfold afterSubject at h
  split at h
  · next hk =>
    cases h
    exact leadsTo_of_kind hk nofun nofun
  · exact afterList_leadsTo h

theorem afterEndpoint_leadsTo (h : r.afterEndpoint chain t = .ok p) : t.LeadsTo p := by
  unfold afterEndpoint at h
  split at h
  · next hk =>
    cases h
    exact leadsTo_of_kind hk nofun nofun
  split at h
  · exact afterSubject_leadsTo h
  · exact between_leadsTo h
  · exact afterSubject_leadsTo h

theorem afterNode_leadsTo {port : Option String} (h : r.afterNode chain word port t = .ok p) :
    t.LeadsTo p := by
  unfold afterNode at h
  split at h
  · next hk =>
    split at h
    · cases h
    · cases h
      exact leadsTo_of_kind hk.1 nofun nofun
  · exact afterEndpoint_leadsTo h

theorem afterName_leadsTo (h : r.afterName chain word t = .ok p) : t.LeadsTo p := by
  unfold afterName at h
  split at h
  · next hk =>
    cases h
    exact leadsTo_of_kind hk nofun nofun
  split at h
  · next hk =>
    cases h
    exact leadsTo_of_kind hk.2 nofun nofun
  split at h
  · next hname =>
    cases h
    exact leadsTo_of_isName hname.2
  split at h
  · next hk =>
    split at h
    · cases h
      exact leadsTo_of_kind hk.1 nofun nofun
    · exact afterNode_leadsTo h
  · exact afterNode_leadsTo h

theorem inList_leadsTo (h : r.inList subject entries t = .ok p) : t.LeadsTo p := by
  unfold inList at h
  split at h
  · next hk =>
    cases h
    exact leadsTo_of_kind hk nofun nofun
  split at h
  · next hk =>
    cases h
    exact hk.elim (leadsTo_of_kind · nofun nofun) (leadsTo_of_kind · nofun nofun)
  · cases h

/-- Where nothing but a name can stand, a name leads on. -/
theorem expectId_leadsTo {part : Part} {e : ParseError}
    (h : (if t.isId then r.go part else r.fail e) = .ok p) : t.LeadsTo p := by
  split at h
  · next hid =>
    cases h
    exact leadsTo_of_isId hid
  · cases h

/-- A token that can be read is part of a document, and ends it only if it is a brace. -/
theorem step_leadsTo (h : r.step t = .ok p) : t.LeadsTo p := by
  unfold step at h
  split at h
  · exact between_leadsTo h
  · exact first_leadsTo h
  · exact afterName_leadsTo h
  · split at h
    · next hk =>
      cases h
      exact leadsTo_of_kind hk nofun nofun
    · cases h
  · exact expectId_leadsTo h
  · split at h
    · next hk =>
      cases h
      exact leadsTo_of_kind hk nofun nofun
    · exact afterNode_leadsTo h
  · exact expectId_leadsTo h
  · exact afterNode_leadsTo h
  · exact afterEndpoint_leadsTo h
  · exact expectId_leadsTo h
  · exact afterList_leadsTo h
  · exact inList_leadsTo h
  · split at h
    · next hk =>
      cases h
      exact leadsTo_of_kind hk nofun nofun
    · cases h
  · exact expectId_leadsTo h
  · split at h
    · next hk =>
      cases h
      exact hk.elim (leadsTo_of_kind · nofun nofun) (leadsTo_of_kind · nofun nofun)
    · exact inList_leadsTo h
  · exact afterSubject_leadsTo h

end Reading

end DotLang
