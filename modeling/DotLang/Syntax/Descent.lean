import DotLang.Syntax.Parser

/-!
# Descent

A parser with a function for each phrase of a document, which calls the functions for its parts.
It knows the current token, and looks at the one behind it where a word may be a keyword. A loop is
a call at the end of its round. Nothing in the calls says that they come to an end: a number says
how deep they may go, and a function that goes deeper is `none`.

* `Descent`: what a function of the parser does;
* `Parser.statements`: statements up to a closing brace;
* `Parser.document`: a document up to the end of the text.
-/

namespace DotLang

/-- A parser: the current token, and the reader of the tokens behind it. -/
structure Parser where
  tok : Token
  lexer : Lexer
  /-- The remarks on all finished statements, the latest first. -/
  remarks : List Remark := []

/-- What a function of the parser does: it returns, or stops with an error, or goes too deep. -/
abbrev Descent := ExceptT ParseError (StateT Parser Option)

namespace Parser

/-- The parser after the current token. -/
def lexed (s : Parser) : Parser := { s with tok := s.lexer.next.1, lexer := s.lexer.next.2 }

/-- The parser after a look behind the current token. -/
def peeked (s : Parser) : Parser := { s with lexer := s.lexer.peek.2 }

/-- The parser at the start of a text. -/
def ofText (text : String) : Parser :=
  let l := Lexer.ofText text.toList
  { tok := l.next.1, lexer := l.next.2 }

/-- A call that goes too deep. -/
def tooDeep {α : Type} : Descent α := fun _ => none

/-! ### Tokens -/

/-- The current token. -/
def current : Descent Token := do return (← get).tok

/-- Goes on to the next token. -/
def lex : Descent Unit := modify lexed

/-- Looks at the token behind the current one. -/
def peek : Descent Token := do
  modify peeked
  return (← get).lexer.next.1

/-- Stops at the current token, where another was expected. -/
def unexpected {α : Type} (expected : Expected) : Descent α := do
  throw (.atToken expected (← current))

/-- Takes a token of a class, and stops where there is another. -/
def accept (f : Token → Bool) (expected : Expected) : Descent Token := do
  let t ← current
  if f t then
    lex
    return t
  else unexpected expected

/-- Takes a token of a class, if there is one. -/
def optional (f : Token → Bool) : Descent (Option Token) := do
  let t ← current
  if f t then
    lex
    return some t
  else return none

/-- Goes on behind a token of a kind, and stops where there is another. -/
def expect (kind : TokenKind) : Descent Unit := do
  let _ ← accept (·.kind = kind) (.token kind)

/-- Whether a subgraph starts at the current token: with a brace, or with a keyword in front of
    a name or a brace. -/
def atSubgraph : Descent Bool := do
  let t ← current
  if t.kind = .leftBrace then return true
  else if t.isKeyword "subgraph" then
    let next ← peek
    return next.kind = .leftBrace || next.isName
  else return false

/-- The target of an attribute statement, if one starts at the current token: with a keyword in
    front of a bracket. -/
def atTarget : Descent (Option Target) := do
  let next ← peek
  let t ← current
  return if next.kind = .leftBracket then Reading.target? t else none

/-! ### Names -/

/-- The part of a port behind its colon, and the compass point behind another colon. -/
def port : Descent String := do
  let name ← accept Token.isId .portName
  match ← optional (·.kind = .colon) with
  | none => return name.value
  | some _ =>
    let point ← accept Token.isId .compassPoint
    return name.value ++ ":" ++ point.value

/-- A node, perhaps with a port. -/
def nodeRef : Descent NodeRef := do
  let id ← accept Token.isId .nodeName
  match ← optional (·.kind = .colon) with
  | none => return { id := id.value }
  | some _ =>
    let port ← port
    return { id := id.value, port := some port }

/-! ### Assignments -/

/-- An assignment in brackets, and the separator behind it. -/
def entry : Descent Entry := do
  let key ← accept (fun t => t.kind = .identifier || t.kind = .string) .attributeName
  expect .equal
  let value ← accept Token.isId .attributeValue
  let _ ← optional fun t => t.kind = .comma || t.kind = .semicolon
  return ⟨key.value, value.value, value.pos⟩

/-- The assignments up to a closing bracket, behind some before them, the latest first. -/
def entries : Nat → List Entry → Descent (List Entry)
  | 0, _ => tooDeep
  | n + 1, before => do
    let t ← current
    if t.kind = .rightBracket then return before
    else
      let e ← entry
      entries n (e :: before)

/-- The assignments in a pair of brackets, behind some before them, the latest first. -/
def brackets (n : Nat) (before : List Entry) : Descent (List Entry) := do
  lex
  let es ← entries n before
  lex
  return es

/-- The assignments in all pairs of brackets, if there are any, behind some before them, the
    latest first. -/
def lists : Nat → List Entry → Descent (List Entry)
  | 0, _ => tooDeep
  | n + 1, before => do
    let t ← current
    if t.kind = .leftBracket then
      let es ← brackets n before
      lists n es
    else return before

/-! ### Statements -/

/-- Finishes a statement. -/
def finish (stmt : Stmt) : Descent Stmt := do
  modify fun s => { s with remarks := stmt.remarks.reverse ++ s.remarks }
  return stmt

/-- Finishes a statement of assignments, unless the text of one of them is no value. `nested`
    says whether the statement is inside of a subgraph. -/
def finishList (nested : Bool) (subject : Subject) (es : List Entry) : Descent Stmt :=
  match Entry.firstError? (subject.owner nested) es.reverse with
  | some e => throw e
  | none => finish (subject.stmt (es.reverse.map fun e => (e.key, e.text)))

/-- An assignment to an attribute of the graph or the subgraph, behind its key. -/
def assignment (nested : Bool) (key : String) : Descent Stmt := do
  expect .equal
  let value ← accept Token.isId .value
  finishList nested (.attributes .scope) [⟨key, value.value, value.pos⟩]

/-- What comes before the statements of a subgraph: its name, and its opening brace. A subgraph
    without a name has the empty name. -/
def opening : Descent String := do
  match ← optional (·.isKeyword "subgraph") with
  | none =>
    expect .leftBrace
    return ""
  | some _ =>
    let name ← optional Token.isName
    expect .leftBrace
    return name.elim "" Token.value

/-- Skips semicolons. -/
def semicolons : Nat → Descent Unit
  | 0 => tooDeep
  | n + 1 => do
    let t ← current
    if t.kind = .semicolon then
      lex
      semicolons n
    else return ()

mutual

/-- The statements up to a closing brace, behind some before them, the latest first. The flag says
    whether they are inside of a subgraph. -/
def statements : Nat → Bool → List Stmt → Descent (List Stmt)
  | 0, _, _ => tooDeep
  | n + 1, nested, before => do
    semicolons n
    let t ← current
    if t.kind = .rightBrace then
      lex
      return before
    else
      let s ← statement n nested
      statements n nested (s :: before)

/-- A statement. -/
def statement : Nat → Bool → Descent Stmt
  | 0, _ => tooDeep
  | n + 1, nested => do
    match ← atTarget with
    | some target =>
      lex
      let es ← lists n []
      finishList nested (.attributes target) es
    | none =>
      let braces ← atSubgraph
      if braces then
        let (name, body) ← subgraph n
        let t ← current
        if t.kind = .edgeOp then edges n nested [.subgraph name body]
        else finish (.subgraph name body)
      else
        let word ← current
        if word.isId then
          let ref ← nodeRef
          named n nested word ref
        else unexpected .statement

/-- The rest of a statement behind a node, which may be a key that is assigned to. The token is
    the first one of the statement. -/
def named : Nat → Bool → Token → NodeRef → Descent Stmt
  | 0, _, _, _ => tooDeep
  | n + 1, nested, word, ref => do
    let t ← current
    if t.kind = .equal then
      if ref.port.isSome then throw ⟨.assignedPort, word.pos⟩
      else assignment nested ref.id
    else if t.kind = .edgeOp then edges n nested [.node ref]
    else
      let es ← lists n []
      finishList nested (.node ref) es

/-- A subgraph: its name and its statements. -/
def subgraph : Nat → Descent (String × List Stmt)
  | 0 => tooDeep
  | n + 1 => do
    let name ← opening
    let body ← statements n true []
    return (name, body.reverse)

/-- A side of an edge operator. -/
def endpoint : Nat → Descent Endpoint
  | 0 => tooDeep
  | n + 1 => do
    let braces ← atSubgraph
    if braces then
      let (name, body) ← subgraph n
      return .subgraph name body
    else
      let word ← current
      if word.isId then
        let ref ← nodeRef
        return .node ref
      else unexpected .endpoint

/-- An edge operator and the side behind it. -/
def link : Nat → Descent Endpoint
  | 0 => tooDeep
  | n + 1 => do
    lex
    endpoint n

/-- The rest of an edge statement, behind some of its sides, the latest first. -/
def edges : Nat → Bool → List Endpoint → Descent Stmt
  | 0, _, _ => tooDeep
  | n + 1, nested, chain => do
    let t ← current
    if t.kind = .edgeOp then
      let e ← link n
      edges n nested (e :: chain)
    else
      let es ← lists n []
      finishList nested (.edge chain) es

end

/-! ### Documents -/

/-- What comes before the statements of a document, and their opening brace. -/
def header : Descent Header := do
  let strict ← optional (·.isKeyword "strict")
  let word ← accept (fun t => t.isKeyword "digraph" || t.isKeyword "graph") .graphKeyword
  let name ← optional Token.isName
  expect .leftBrace
  return ⟨strict.isSome, word.isKeyword "digraph", name.map Token.value⟩

/-- A document, up to the end of the text. -/
def document (n : Nat) : Descent Document := do
  modify fun s => { s with remarks := [] }
  let header ← header
  let body ← statements n false []
  let t ← current
  if t.kind = .endOfInput then return ⟨header, body.reverse⟩
  else unexpected (.token .endOfInput)

end Parser

end DotLang
