import DotLang.Proofs.Syntax.Grammar
import DotLang.Syntax.Parser

/-!
# What completes a reading

The tokens of a document are read one by one, and what has been read is kept in
parts. Here is said what lexemes complete such parts to a document of the grammar,
and how the first of these lexemes decides how it goes on.

* `Reading.Completes`: what is missing of a document;
* `closes_semicolon`, `closes_rightBrace_nil`, `closes_rightBrace_cons`,
  `closes_statement`: what the first lexeme says between two statements;
* `Reading.begins_nil`: a statement is one of attributes, or an assignment, or it
  starts with a node or a subgraph and edge operators may follow.
-/

namespace DotLang

open Grammar

variable (ok : Owner → Assignments → Prop)

/-! ### What may be missing -/

/-- The endpoints of a statement have been read, and what follows are its
    assignments and then what `rest` says of the statement. A subgraph alone has
    no assignments. -/
def FinishesEnds (rest : Stmt → List Lexeme → Prop) : List Endpoint → List Lexeme → Prop
  | [.node ref], ls => ∃ pairs ms, AttrList ls pairs ms ∧ ok .node pairs ∧ rest (.node ref pairs) ms
  | [.subgraph name body], ls => rest (.subgraph name body) ls
  | ends, ls => ∃ pairs ms, AttrList ls pairs ms ∧ ok .edge pairs ∧ rest (.edge ends pairs) ms

/-- An endpoint has been read, the head of the chain. -/
def ContinuesChain (rest : Stmt → List Lexeme → Prop) (chain : List Endpoint)
    (ls : List Lexeme) : Prop :=
  ∃ ends ms, Sides ls ends ms ∧ CheckedEnds ok ends ∧
    FinishesEnds ok rest (chain.reverse ++ ends) ms

/-- The statements up to the end of the document `d`, some of which have been read
    in the innermost braces. -/
def Closes (header : Header) (d : Document) : List OpenBrace → List Stmt → List Lexeme → Prop
  | [], stmts, ls => ∃ body c, Statements ls body [c] ∧ c.kind = .rightBrace ∧
      CheckedAll ok false body ∧ d = ⟨header, stmts.reverse ++ body⟩
  | b :: braces, stmts, ls => ∃ body c ms, Statements ls body (c :: ms) ∧ c.kind = .rightBrace ∧
      CheckedAll ok true body ∧
      ContinuesChain ok (fun s ms => Closes header d braces (s :: b.before) ms)
        (.subgraph b.name (stmts.reverse ++ body) :: b.chain) ms

/-- The assignments of entries, the latest of which stands first. -/
def Entry.assignments (entries : List Entry) : Assignments :=
  entries.reverse.map fun e => (e.key, e.text)

namespace Reading

/-- What follows a statement in the innermost braces. -/
def Rest (r : Reading) (d : Document) (s : Stmt) (ls : List Lexeme) : Prop :=
  Closes ok r.header d r.braces (s :: r.stmts) ls

/-- Some assignments of a subject have been read, and more lists in brackets may
    follow. -/
def FinishesLists (r : Reading) (d : Document) (subject : Subject) (read : Assignments)
    (ls : List Lexeme) : Prop :=
  ∃ more ms, AttrList ls more ms ∧ ok (subject.owner !r.braces.isEmpty) (read ++ more) ∧
    r.Rest ok d (subject.stmt (read ++ more)) ms

/-- The same, inside of brackets. -/
def FinishesPairs (r : Reading) (d : Document) (subject : Subject) (read : Assignments)
    (ls : List Lexeme) : Prop :=
  ∃ pairs c ms, Pairs ls pairs (c :: ms) ∧ c.kind = .rightBracket ∧
    r.FinishesLists ok d subject (read ++ pairs) ms

/-- The same, after an equals sign. -/
def FinishesValue (r : Reading) (d : Document) (subject : Subject) (read : Assignments)
    (key : String) (ls : List Lexeme) : Prop :=
  ∃ v ms, ls = v :: ms ∧ v.isId ∧ ∃ ns, Separator ms ns ∧
    r.FinishesPairs ok d subject (read ++ [(key, v.value)]) ns

/-- Attributes of a target follow their keyword. -/
def BeginsAttributes (r : Reading) (d : Document) (ls : List Lexeme) : Prop :=
  ∃ w o ms target, ls = w :: o :: ms ∧ w.isKeyword (Target.keyword target) ∧
    o.kind = .leftBracket ∧ r.FinishesLists ok d (.attributes target) [] (o :: ms)

/-- A key, an equals sign and a value follow. -/
def BeginsAssignment (r : Reading) (d : Document) (ls : List Lexeme) : Prop :=
  ∃ k e v ms, ls = k :: e :: v :: ms ∧ k.isId ∧ e.kind = .equal ∧ v.isId ∧
    ok (Target.scope.owner !r.braces.isEmpty) [(k.value, v.value)] ∧
    r.Rest ok d (.attributes .scope [(k.value, v.value)]) ms

/-- An endpoint follows, and after it what may follow an endpoint. -/
def BeginsSide (r : Reading) (d : Document) (chain : List Endpoint) (ls : List Lexeme) : Prop :=
  ∃ e ms, Side ls e ms ∧ e.Checked ok ∧ ContinuesChain ok (r.Rest ok d) (e :: chain) ms

/-- A statement follows, or an endpoint of a statement that has been started. -/
def Begins (r : Reading) (d : Document) (chain : List Endpoint) (ls : List Lexeme) : Prop :=
  if chain = [] then
    ∃ s ms, Statement ls s ms ∧ s.Checked ok !r.braces.isEmpty ∧ r.Rest ok d s ms
  else r.BeginsSide ok d chain ls

/-- The lexemes complete what has been read to the document `d`. -/
def Completes (r : Reading) (d : Document) (ls : List Lexeme) : Prop :=
  match r.part with
  | .nothing => Closes ok r.header d r.braces r.stmts ls
  | .operator chain => r.Begins ok d chain ls
  | .name chain word => r.Begins ok d chain (word.lexeme :: ls)
  | .subgraphName chain name => ∃ o ms, ls = o :: ms ∧ o.kind = .leftBrace ∧
      Closes ok r.header d (⟨name, chain, r.stmts⟩ :: r.braces) [] ms
  | .colon chain word => ∃ p ms, ls = p :: ms ∧ p.isId ∧
      (ContinuesChain ok (r.Rest ok d) (.node ⟨word.value, some p.value⟩ :: chain) ms ∨
        ∃ c q ns, ms = c :: q :: ns ∧ c.kind = .colon ∧ q.isId ∧
          ContinuesChain ok (r.Rest ok d)
            (.node ⟨word.value, some (p.value ++ ":" ++ q.value)⟩ :: chain) ns)
  | .port chain word port =>
      ContinuesChain ok (r.Rest ok d) (.node ⟨word.value, some port⟩ :: chain) ls ∨
        ∃ c q ns, ls = c :: q :: ns ∧ c.kind = .colon ∧ q.isId ∧
          ContinuesChain ok (r.Rest ok d)
            (.node ⟨word.value, some (port ++ ":" ++ q.value)⟩ :: chain) ns
  | .portColon chain word port => ∃ q ns, ls = q :: ns ∧ q.isId ∧
      ContinuesChain ok (r.Rest ok d)
        (.node ⟨word.value, some (port ++ ":" ++ q.value)⟩ :: chain) ns
  | .compass chain word port =>
      ContinuesChain ok (r.Rest ok d) (.node ⟨word.value, some port⟩ :: chain) ls
  | .endpoint chain => ContinuesChain ok (r.Rest ok d) chain ls
  | .assign key => ∃ v ms, ls = v :: ms ∧ v.isId ∧
      ok (Target.scope.owner !r.braces.isEmpty) [(key, v.value)] ∧
      r.Rest ok d (.attributes .scope [(key, v.value)]) ms
  | .assigned entry => ok (Target.scope.owner !r.braces.isEmpty) [(entry.key, entry.text)] ∧
      r.Rest ok d (.attributes .scope [(entry.key, entry.text)]) ls
  | .list subject entries => r.FinishesPairs ok d subject (Entry.assignments entries) ls
  | .key subject entries key => ∃ e ms, ls = e :: ms ∧ e.kind = .equal ∧
      r.FinishesValue ok d subject (Entry.assignments entries) key ms
  | .equals subject entries key => r.FinishesValue ok d subject (Entry.assignments entries) key ls
  | .entry subject entries => ∃ ms, Separator ls ms ∧
      r.FinishesPairs ok d subject (Entry.assignments entries) ms
  | .lists subject entries => r.FinishesLists ok d subject (Entry.assignments entries) ls

end Reading

/-! ### What the first lexeme decides -/

/-- A statement starts with an opening brace or an id. -/
def Lexeme.StartsStatement (l : Lexeme) : Prop := l.kind = .leftBrace ∨ l.isId

/-- A keyword is an id. -/
theorem Lexeme.isId_of_isKeyword {l : Lexeme} {word : String} (h : l.isKeyword word) :
    l.isId := by
  simp only [isKeyword, Bool.and_eq_true, decide_eq_true_eq] at h
  simp [isId, h.1]

theorem Lexeme.isKey_iff {l : Lexeme} :
    l.isKey ↔ l.kind = .identifier ∨ l.kind = .string := by
  simp [isKey]

/-- An id is no punctuation. -/
theorem Lexeme.kind_ne_of_isId {l : Lexeme} {k : TokenKind} (h : l.isId)
    (hk : (⟨k, l.value⟩ : Lexeme).isId = false) : l.kind ≠ k := by
  rintro rfl
  rw [show (⟨l.kind, l.value⟩ : Lexeme) = l from rfl, h] at hk
  cases hk

section

variable {ok} {ls ms : List Lexeme}

theorem block_head {name : String} {body : List Stmt} (h : Block ls name body ms) :
    ∃ l ns, ls = l :: ns ∧ (l.kind = .leftBrace ∨ l.isKeyword "subgraph") := by
  cases h with
  | anonymous ho => exact ⟨_, _, rfl, .inl ho⟩
  | keyword hw => exact ⟨_, _, rfl, .inr hw⟩
  | named hw => exact ⟨_, _, rfl, .inr hw⟩

theorem nodeId_head {ref : NodeRef} (h : NodeId ls ref ms) : ∃ l ns, ls = l :: ns ∧ l.isId := by
  cases h with
  | id _ hw => exact ⟨_, _, rfl, hw⟩
  | port _ hw => exact ⟨_, _, rfl, hw⟩
  | compass _ hw => exact ⟨_, _, rfl, hw⟩

theorem side_head {e : Endpoint} (h : Side ls e ms) : ∃ l ns, ls = l :: ns ∧ l.StartsStatement := by
  cases h with
  | node _ hn =>
    obtain ⟨l, ns, rfl, hl⟩ := nodeId_head hn
    exact ⟨l, ns, rfl, .inr hl⟩
  | subgraph hb =>
    obtain ⟨l, ns, rfl, hl⟩ := block_head hb
    exact ⟨l, ns, rfl, hl.imp id Lexeme.isId_of_isKeyword⟩

theorem statement_head {s : Stmt} (h : Statement ls s ms) :
    ∃ l ns, ls = l :: ns ∧ l.StartsStatement := by
  cases h with
  | attributes hw => exact ⟨_, _, rfl, .inr (Lexeme.isId_of_isKeyword hw)⟩
  | assign _ hk => exact ⟨_, _, rfl, .inr hk⟩
  | node _ hs hn => exact side_head (.node hs hn)
  | edge _ he => exact side_head he
  | subgraph hb => exact side_head (.subgraph hb)

/-- Statements start with a semicolon or with a statement, or there are none. -/
theorem statements_head {body : List Stmt} (h : Statements ls body ms) :
    body = [] ∧ ms = ls ∨ ∃ l ns, ls = l :: ns ∧ (l.kind = .semicolon ∨ l.StartsStatement) := by
  cases h with
  | nil => exact .inl ⟨rfl, rfl⟩
  | semicolon hm => exact .inr ⟨_, _, rfl, .inl hm⟩
  | cons hs =>
    obtain ⟨l, ns, rfl, hl⟩ := statement_head hs
    exact .inr ⟨l, ns, rfl, .inr hl⟩

theorem statements_semicolon {l c : Lexeme} {body : List Stmt} (hl : l.kind = .semicolon)
    (hc : c.kind = .rightBrace) :
    Statements (l :: ls) body (c :: ms) ↔ Statements ls body (c :: ms) := by
  constructor
  · intro h
    cases h with
    | nil => rw [hl] at hc; cases hc
    | semicolon _ h => exact h
    | cons hs =>
      -- No statement starts with a semicolon.
      obtain ⟨l', ns, hls, hl'⟩ := statement_head hs
      obtain ⟨rfl, -⟩ := List.cons.inj hls
      rcases hl' with hl' | hl'
      · rw [hl] at hl'; cases hl'
      · exact absurd hl (Lexeme.kind_ne_of_isId hl' rfl)
  · exact .semicolon hl

theorem statements_rightBrace {l c : Lexeme} {body : List Stmt} (hl : l.kind = .rightBrace) :
    Statements (l :: ls) body (c :: ms) ↔ body = [] ∧ c = l ∧ ms = ls := by
  constructor
  · intro h
    rcases statements_head h with ⟨rfl, hms⟩ | ⟨l', ns, hls, hl'⟩
    · obtain ⟨rfl, rfl⟩ := List.cons.inj hms
      exact ⟨rfl, rfl, rfl⟩
    · obtain ⟨rfl, -⟩ := List.cons.inj hls
      rcases hl' with hl' | hl' | hl'
      · rw [hl] at hl'; cases hl'
      · rw [hl] at hl'; cases hl'
      · exact absurd hl (Lexeme.kind_ne_of_isId hl' rfl)
  · rintro ⟨rfl, rfl, rfl⟩
    exact .nil _

theorem statements_statement {l c : Lexeme} {body : List Stmt} (hl : l.kind ≠ .semicolon)
    (hr : l.kind ≠ .rightBrace) (hc : c.kind = .rightBrace) :
    Statements (l :: ls) body (c :: ms) ↔ ∃ s later ns, body = s :: later ∧
      Statement (l :: ls) s ns ∧ Statements ns later (c :: ms) := by
  constructor
  · intro h
    cases h with
    | nil => exact absurd hc hr
    | semicolon hm => exact absurd hm hl
    | cons hs h => exact ⟨_, _, _, rfl, hs, h⟩
  · rintro ⟨s, later, ns, rfl, hs, h⟩
    exact .cons hs h

end

/-! ### Between two statements -/

section

variable {ok} {header : Header} {d : Document} {braces : List OpenBrace} {stmts : List Stmt}
  {l : Lexeme} {ls : List Lexeme}

theorem closes_semicolon (hl : l.kind = .semicolon) :
    Closes ok header d braces stmts (l :: ls) ↔ Closes ok header d braces stmts ls := by
  cases braces with
  | nil =>
    simp only [Closes]
    constructor
    · rintro ⟨body, c, h, hc, rest⟩
      exact ⟨body, c, (statements_semicolon hl hc).1 h, hc, rest⟩
    · rintro ⟨body, c, h, hc, rest⟩
      exact ⟨body, c, (statements_semicolon hl hc).2 h, hc, rest⟩
  | cons b braces =>
    simp only [Closes]
    constructor
    · rintro ⟨body, c, ms, h, hc, rest⟩
      exact ⟨body, c, ms, (statements_semicolon hl hc).1 h, hc, rest⟩
    · rintro ⟨body, c, ms, h, hc, rest⟩
      exact ⟨body, c, ms, (statements_semicolon hl hc).2 h, hc, rest⟩

/-- The closing brace of the document is its last lexeme. -/
theorem closes_rightBrace_nil (hl : l.kind = .rightBrace) :
    Closes ok header d [] stmts (l :: ls) ↔ ls = [] ∧ d = ⟨header, stmts.reverse⟩ := by
  simp only [Closes]
  constructor
  · rintro ⟨body, c, h, -, -, rfl⟩
    obtain ⟨rfl, -, rfl⟩ := (statements_rightBrace hl).1 h
    exact ⟨rfl, by rw [List.append_nil]⟩
  · rintro ⟨rfl, rfl⟩
    exact ⟨[], l, .nil _, hl, trivial, by rw [List.append_nil]⟩

/-- Another closing brace ends an endpoint of the statement before its braces. -/
theorem closes_rightBrace_cons {b : OpenBrace} (hl : l.kind = .rightBrace) :
    Closes ok header d (b :: braces) stmts (l :: ls) ↔
      ContinuesChain ok (fun s ms => Closes ok header d braces (s :: b.before) ms)
        (.subgraph b.name stmts.reverse :: b.chain) ls := by
  simp only [Closes]
  constructor
  · rintro ⟨body, c, ms, h, -, -, rest⟩
    obtain ⟨rfl, -, rfl⟩ := (statements_rightBrace hl).1 h
    rwa [List.append_nil] at rest
  · intro rest
    exact ⟨[], l, ls, .nil _, hl, trivial, by rwa [List.append_nil]⟩

/-- Anything else is the start of a statement. -/
theorem closes_statement (hl : l.kind ≠ .semicolon) (hr : l.kind ≠ .rightBrace) :
    Closes ok header d braces stmts (l :: ls) ↔ ∃ s ms, Statement (l :: ls) s ms ∧
      s.Checked ok !braces.isEmpty ∧ Closes ok header d braces (s :: stmts) ms := by
  cases braces with
  | nil =>
    simp only [Closes, List.isEmpty_nil, Bool.not_true, List.reverse_cons, List.append_assoc,
      List.cons_append, List.nil_append]
    constructor
    · rintro ⟨body, c, h, hc, checked, hd⟩
      obtain ⟨s, later, ms, rfl, hs, h⟩ := (statements_statement hl hr hc).1 h
      exact ⟨s, ms, hs, checked.1, later, c, h, hc, checked.2, hd⟩
    · rintro ⟨s, ms, hs, checked, later, c, h, hc, all, hd⟩
      exact ⟨s :: later, c, .cons hs h, hc, ⟨checked, all⟩, hd⟩
  | cons b braces =>
    simp only [Closes, List.isEmpty_cons, Bool.not_false, List.reverse_cons, List.append_assoc,
      List.cons_append, List.nil_append]
    constructor
    · rintro ⟨body, c, ms, h, hc, checked, rest⟩
      obtain ⟨s, later, ns, rfl, hs, h⟩ := (statements_statement hl hr hc).1 h
      exact ⟨s, ns, hs, checked.1, later, c, ms, h, hc, checked.2, rest⟩
    · rintro ⟨s, ns, hs, checked, later, c, ms, h, hc, all, rest⟩
      exact ⟨s :: later, c, ms, .cons hs h, hc, ⟨checked, all⟩, rest⟩

/-- A lexeme that goes on between two statements. -/
def Lexeme.FollowsStatement (l : Lexeme) : Prop :=
  l.kind = .semicolon ∨ l.kind = .rightBrace ∨ l.StartsStatement

/-- Brackets, operators, equal signs and colons stand inside of statements only. -/
theorem Lexeme.FollowsStatement.kind_ne {l : Lexeme} (h : l.FollowsStatement) {k : TokenKind}
    (hk : k = .leftBracket ∨ k = .edgeOp ∨ k = .equal ∨ k = .colon) : l.kind ≠ k := by
  intro hl
  rcases hk with rfl | rfl | rfl | rfl
  all_goals
    rcases h with h | h | h | h
    all_goals first
      | exact Lexeme.kind_ne_of_isId h rfl hl
      | rw [hl] at h; cases h

/-- Statements do not end with the text, nor go on with a lexeme that is none of
    theirs. -/
theorem closes_head {ls : List Lexeme} (h : Closes ok header d braces stmts ls) :
    ∃ l ms, ls = l :: ms ∧ l.FollowsStatement := by
  have head : ∀ {body c ms}, Statements ls body (c :: ms) → c.kind = .rightBrace →
      ∃ l ms, ls = l :: ms ∧ l.FollowsStatement := by
    intro body c ms h hc
    rcases statements_head h with ⟨-, hms⟩ | ⟨l, ns, hls, hl⟩
    · exact ⟨c, ms, hms.symm, .inr (.inl hc)⟩
    · exact ⟨l, ns, hls, hl.imp id .inr⟩
  cases braces with
  | nil =>
    obtain ⟨body, c, h, hc, -⟩ := h
    exact head h hc
  | cons b braces =>
    obtain ⟨body, c, ms, h, hc, -⟩ := h
    exact head h hc

end

/-! ### Lists in brackets -/

namespace Reading

section

variable {ok} {r : Reading} {d : Document} {subject : Subject} {read : Assignments}
  {l : Lexeme} {ls : List Lexeme}

theorem rest_head {s : Stmt} (h : r.Rest ok d s ls) :
    ∃ l ms, ls = l :: ms ∧ l.FollowsStatement :=
  closes_head h

theorem finishesLists_leftBracket (hl : l.kind = .leftBracket) :
    r.FinishesLists ok d subject read (l :: ls) ↔ r.FinishesPairs ok d subject read ls := by
  constructor
  · rintro ⟨more, ms, h, checked, rest⟩
    cases h with
    | nil =>
      -- A bracket does not stand behind the last list.
      obtain ⟨l', ns, hls, hl'⟩ := rest_head rest
      obtain ⟨rfl, -⟩ := List.cons.inj hls
      exact absurd hl (hl'.kind_ne (.inl rfl))
    | cons _ hp hc h =>
      rw [← List.append_assoc] at checked rest
      exact ⟨_, _, _, hp, hc, _, _, h, checked, rest⟩
  · rintro ⟨pairs, c, ms, hp, hc, more, ns, h, checked, rest⟩
    rw [List.append_assoc] at checked rest
    exact ⟨_, _, .cons hl hp hc h, checked, rest⟩

theorem finishesLists_other (hl : l.kind ≠ .leftBracket) :
    r.FinishesLists ok d subject read (l :: ls) ↔
      ok (subject.owner !r.braces.isEmpty) read ∧ r.Rest ok d (subject.stmt read) (l :: ls) := by
  constructor
  · rintro ⟨more, ms, h, checked, rest⟩
    cases h with
    | nil => rw [List.append_nil] at checked rest; exact ⟨checked, rest⟩
    | cons ho => exact absurd ho hl
  · rintro ⟨checked, rest⟩
    exact ⟨[], _, .nil _, by rwa [List.append_nil], by rwa [List.append_nil]⟩

theorem not_finishesLists_nil : ¬r.FinishesLists ok d subject read [] := by
  rintro ⟨more, ms, h, -, rest⟩
  cases h with
  | nil =>
    obtain ⟨l, ms, h, -⟩ := rest_head rest
    cases h

theorem finishesPairs_rightBracket (hl : l.kind = .rightBracket) :
    r.FinishesPairs ok d subject read (l :: ls) ↔ r.FinishesLists ok d subject read ls := by
  constructor
  · rintro ⟨pairs, c, ms, h, -, rest⟩
    cases h with
    | nil => rwa [List.append_nil] at rest
    | cons hk => exact absurd hl (by rintro h; simp [Lexeme.isKey, h] at hk)
  · intro rest
    exact ⟨[], l, ls, .nil _, hl, by rwa [List.append_nil]⟩

theorem finishesPairs_key (hl : l.isKey) :
    r.FinishesPairs ok d subject read (l :: ls) ↔
      ∃ e ms, ls = e :: ms ∧ e.kind = .equal ∧ r.FinishesValue ok d subject read l.value ms := by
  constructor
  · rintro ⟨pairs, c, ms, h, hc, rest⟩
    cases h with
    | nil => simp [Lexeme.isKey, hc] at hl
    | cons _ he hv hm hp =>
      refine ⟨_, _, rfl, he, _, _, rfl, hv, _, hm, _, c, ms, hp, hc, ?_⟩
      rwa [List.append_assoc]
  · rintro ⟨e, ms, rfl, he, v, ns, rfl, hv, ps, hm, pairs, c, qs, hp, hc, rest⟩
    refine ⟨_, c, qs, .cons hl he hv hm hp, hc, ?_⟩
    rwa [List.append_assoc] at rest

/-- Inside of brackets stands a key or the closing bracket. -/
theorem finishesPairs_head (h : r.FinishesPairs ok d subject read ls) :
    ∃ l ms, ls = l :: ms ∧ (l.kind = .rightBracket ∨ l.isKey) := by
  obtain ⟨pairs, c, ms, h, hc, -⟩ := h
  cases h with
  | nil => exact ⟨c, ms, rfl, .inl hc⟩
  | cons hk => exact ⟨_, _, rfl, .inr hk⟩

end

end Reading

/-! ### Chains of edge operators -/

section

variable {ok} {rest : Stmt → List Lexeme → Prop} {chain : List Endpoint} {l : Lexeme}
  {ls : List Lexeme}

/-- Two endpoints or more are followed by the assignments of an edge. -/
theorem finishesEnds_many {e e' : Endpoint} {ends : List Endpoint} :
    FinishesEnds ok rest (e :: e' :: ends) ls ↔ ∃ pairs ms, AttrList ls pairs ms ∧
      ok .edge pairs ∧ rest (.edge (e :: e' :: ends) pairs) ms := by
  cases e <;> exact Iff.rfl

/-- After endpoints stands a bracket, or what follows a statement. -/
theorem finishesEnds_head (hrest : ∀ s ms, rest s ms → ∃ l ns, ms = l :: ns ∧ l.FollowsStatement)
    {ends : List Endpoint} (h : FinishesEnds ok rest ends ls) :
    ∃ l ms, ls = l :: ms ∧ (l.kind = .leftBracket ∨ l.FollowsStatement) := by
  have list : ∀ {pairs ms s}, AttrList ls pairs ms → rest s ms →
      ∃ l ms, ls = l :: ms ∧ (l.kind = .leftBracket ∨ l.FollowsStatement) := by
    intro pairs ms s h hr
    cases h with
    | nil =>
      obtain ⟨l, ns, rfl, hl⟩ := hrest _ _ hr
      exact ⟨l, ns, rfl, .inr hl⟩
    | cons ho => exact ⟨_, _, rfl, .inl ho⟩
  unfold FinishesEnds at h
  split at h
  · obtain ⟨pairs, ms, h, -, hr⟩ := h
    exact list h hr
  · obtain ⟨l, ns, rfl, hl⟩ := hrest _ _ h
    exact ⟨l, ns, rfl, .inr hl⟩
  · obtain ⟨pairs, ms, h, -, hr⟩ := h
    exact list h hr

/-- After an endpoint stands an edge operator too. -/
theorem continuesChain_head
    (hrest : ∀ s ms, rest s ms → ∃ l ns, ms = l :: ns ∧ l.FollowsStatement)
    (h : ContinuesChain ok rest chain ls) :
    ∃ l ms, ls = l :: ms ∧ (l.kind = .edgeOp ∨ l.kind = .leftBracket ∨ l.FollowsStatement) := by
  obtain ⟨ends, ms, h, -, hf⟩ := h
  cases h with
  | nil =>
    obtain ⟨l, ns, rfl, hl⟩ := finishesEnds_head hrest hf
    exact ⟨l, ns, rfl, .inr hl⟩
  | cons ha => exact ⟨_, _, rfl, .inl ha⟩

/-- Behind an endpoint stands neither an equal sign nor a colon. -/
theorem kind_ne_of_continuesChain
    (hrest : ∀ s ms, rest s ms → ∃ l ns, ms = l :: ns ∧ l.FollowsStatement)
    (h : ContinuesChain ok rest chain (l :: ls)) {k : TokenKind} (hk : k = .equal ∨ k = .colon) :
    l.kind ≠ k := by
  obtain ⟨l', ms, hls, hl⟩ := continuesChain_head hrest h
  obtain ⟨rfl, -⟩ := List.cons.inj hls
  rcases hl with hl | hl | hl
  · rw [hl]
    rcases hk with rfl | rfl <;> nofun
  · rw [hl]
    rcases hk with rfl | rfl <;> nofun
  · exact hl.kind_ne (.inr (.inr hk))

theorem continuesChain_edgeOp
    (hrest : ∀ s ms, rest s ms → ∃ l ns, ms = l :: ns ∧ l.FollowsStatement)
    (hl : l.kind = .edgeOp) :
    ContinuesChain ok rest chain (l :: ls) ↔
      ∃ e ms, Side ls e ms ∧ e.Checked ok ∧ ContinuesChain ok rest (e :: chain) ms := by
  have append : ∀ {e : Endpoint} {ends},
      chain.reverse ++ e :: ends = (e :: chain).reverse ++ ends := by
    simp
  constructor
  · rintro ⟨ends, ms, h, checked, hf⟩
    cases h with
    | nil =>
      -- An operator does not stand behind the last endpoint.
      obtain ⟨l', ns, hls, hl'⟩ := finishesEnds_head hrest hf
      obtain ⟨rfl, -⟩ := List.cons.inj hls
      rcases hl' with hl' | hl'
      · rw [hl] at hl'
        cases hl'
      · exact absurd hl (hl'.kind_ne (.inr (.inl rfl)))
    | cons _ he hs => exact ⟨_, _, he, checked.1, _, _, hs, checked.2, append ▸ hf⟩
  · rintro ⟨e, ms, he, checked, ends, ns, hs, all, hf⟩
    exact ⟨e :: ends, ns, .cons hl he hs, ⟨checked, all⟩, append ▸ hf⟩

theorem continuesChain_other (hl : l.kind ≠ .edgeOp) :
    ContinuesChain ok rest chain (l :: ls) ↔ FinishesEnds ok rest chain.reverse (l :: ls) := by
  constructor
  · rintro ⟨ends, ms, h, -, hf⟩
    cases h with
    | nil => rwa [List.append_nil] at hf
    | cons ha => exact absurd ha hl
  · intro hf
    exact ⟨[], _, .nil _, trivial, by rwa [List.append_nil]⟩

end

/-! ### The start of a statement -/

/-- A block does not start a statement of attributes. -/
theorem not_startsAttributes_of_block {ls ms : List Lexeme} {name : String} {body : List Stmt}
    (h : Block ls name body ms) : ¬StartsAttributes ls := by
  obtain ⟨l, ns, rfl, hl⟩ := block_head h
  cases ns with
  | nil => exact id
  | cons o ns =>
    rintro ⟨⟨target, hw⟩, -⟩
    simp only [Lexeme.isKeyword, Bool.and_eq_true, decide_eq_true_eq] at hw hl
    rcases hl with hl | hl
    · rw [hw.1] at hl; cases hl
    · rw [hw.2] at hl
      cases target <;> exact absurd hl.2 (by decide)

namespace Reading

section

variable {ok} {r : Reading} {d : Document} {chain : List Endpoint} {l : Lexeme}
  {ls : List Lexeme}

/-- A statement is one of attributes, or an assignment, or it starts with an
    endpoint. -/
theorem begins_nil : r.Begins ok d [] ls ↔
    r.BeginsAttributes ok d ls ∨ r.BeginsAssignment ok d ls ∨
      ¬StartsAttributes ls ∧ r.BeginsSide ok d [] ls := by
  rw [Begins, if_pos rfl]
  constructor
  · rintro ⟨s, ms, h, checked, rest⟩
    -- One case for each form of a statement.
    cases h with
    | @attributes w o ls ms target pairs hw ho hp =>
      exact .inl ⟨w, o, ls, target, rfl, hw, ho, pairs, ms, hp, by cases target <;> exact checked,
        rest⟩
    | assign _ hk he hv => exact .inr (.inl ⟨_, _, _, _, rfl, hk, he, hv, checked, rest⟩)
    | node ha hs hn hp =>
      exact .inr (.inr ⟨ha, _, _, .node hs hn, trivial, [], _, .nil _, trivial, _, _, hp, checked,
        rest⟩)
    | @edge _ _ _ _ e ends _ ha he hs hne hp =>
      obtain ⟨e', ends, rfl⟩ := List.exists_cons_of_ne_nil hne
      exact .inr (.inr ⟨ha, _, _, he, checked.1.1, _, _, hs, checked.1.2,
        finishesEnds_many.2 ⟨_, _, hp, checked.2, rest⟩⟩)
    | subgraph hb =>
      exact .inr (.inr ⟨not_startsAttributes_of_block hb, _, _, .subgraph hb, checked, [], _,
        .nil _, trivial, rest⟩)
  · rintro (⟨w, o, ms, target, rfl, hw, ho, pairs, ns, hp, checked, rest⟩ | h | h)
    · exact ⟨_, _, .attributes hw ho hp, by cases target <;> exact checked, rest⟩
    · obtain ⟨k, e, v, ms, rfl, hk, he, hv, checked, rest⟩ := h
      exact ⟨_, _, .assign ms hk he hv, checked, rest⟩
    · obtain ⟨ha, e, ms, he, checked, ends, ns, hs, all, hf⟩ := h
      -- One endpoint alone is a node or a subgraph, and two or more make an edge.
      cases hs with
      | nil =>
        cases he with
        | node hsub hn =>
          obtain ⟨pairs, ps, hp, hok, rest⟩ := hf
          exact ⟨_, _, .node ha hsub hn hp, hok, rest⟩
        | subgraph hb => exact ⟨_, _, .subgraph hb, checked, hf⟩
      | cons harr he' hs =>
        obtain ⟨pairs, ps, hp, hok, rest⟩ := finishesEnds_many.1 hf
        exact ⟨_, _, .edge ha he (.cons harr he' hs) nofun hp, ⟨⟨checked, all⟩, hok⟩, rest⟩

/-- An opening brace starts a subgraph without a name. -/
theorem beginsSide_leftBrace (hl : l.kind = .leftBrace) :
    r.BeginsSide ok d chain (l :: ls) ↔
      Closes ok r.header d (⟨"", chain, r.stmts⟩ :: r.braces) [] ls := by
  constructor
  · rintro ⟨e, ms, h, checked, rest⟩
    cases h with
    | node _ hn =>
      obtain ⟨l', ns, hls, hl'⟩ := nodeId_head hn
      obtain ⟨rfl, -⟩ := List.cons.inj hls
      exact absurd hl (Lexeme.kind_ne_of_isId hl' rfl)
    | subgraph hb =>
      cases hb with
      | anonymous _ h hc => exact ⟨_, _, _, h, hc, checked, rest⟩
      | keyword hw => exact absurd hl (Lexeme.kind_ne_of_isId (Lexeme.isId_of_isKeyword hw) rfl)
      | named hw => exact absurd hl (Lexeme.kind_ne_of_isId (Lexeme.isId_of_isKeyword hw) rfl)
  · rintro ⟨body, c, ms, h, hc, checked, rest⟩
    exact ⟨_, _, .subgraph (.anonymous hl h hc), checked, rest⟩

end

end Reading

/-! ### The start of a statement with a word -/

namespace Reading

section

variable {ok} {r : Reading} {d : Document} {chain : List Endpoint} {w l : Lexeme}
  {ls : List Lexeme}

theorem begins_head (h : r.Begins ok d chain ls) :
    ∃ l ms, ls = l :: ms ∧ l.StartsStatement := by
  rw [Begins] at h
  split at h
  · obtain ⟨s, ms, h, -⟩ := h
    exact statement_head h
  · obtain ⟨e, ms, h, -⟩ := h
    exact side_head h

/-- Unless attributes or an assignment start there, an endpoint does. -/
theorem begins_side (hattr : chain = [] → ¬StartsAttributes ls)
    (hassign : chain = [] → ∀ k e ms, ls = k :: e :: ms → e.kind ≠ .equal) :
    r.Begins ok d chain ls ↔ r.BeginsSide ok d chain ls := by
  by_cases hc : chain = []
  · subst hc
    rw [begins_nil]
    constructor
    · rintro (⟨w, o, ms, target, rfl, hw, ho, -⟩ | ⟨k, e, v, ms, rfl, -, he, -⟩ | ⟨-, h⟩)
      · exact absurd ⟨⟨target, hw⟩, ho⟩ (hattr rfl)
      · exact absurd he (hassign rfl k e _ rfl)
      · exact h
    · intro h
      exact .inr (.inr ⟨hattr rfl, h⟩)
  · rw [Begins, if_neg hc]

theorem begins_leftBrace (hl : l.kind = .leftBrace) :
    r.Begins ok d chain (l :: ls) ↔
      Closes ok r.header d (⟨"", chain, r.stmts⟩ :: r.braces) [] ls := by
  have notId : ∀ {k : Lexeme}, k.isId → k ≠ l := by
    rintro k hk rfl
    exact Lexeme.kind_ne_of_isId hk rfl hl
  -- At the start of a statement all else starts with a word.
  by_cases hc : chain = []
  · subst hc
    rw [begins_nil, ← beginsSide_leftBrace hl]
    constructor
    · rintro (⟨w, o, ms, target, h, hw, -⟩ | ⟨k, e, v, ms, h, hk, -⟩ | ⟨-, h⟩)
      · exact absurd (List.cons.inj h).1.symm (notId (Lexeme.isId_of_isKeyword hw))
      · exact absurd (List.cons.inj h).1.symm (notId hk)
      · exact h
    · intro h
      refine .inr (.inr ⟨?_, h⟩)
      cases ls with
      | nil => exact id
      | cons o ms =>
        rintro ⟨⟨target, hw⟩, -⟩
        exact notId (Lexeme.isId_of_isKeyword hw) rfl
  · rw [Begins, if_neg hc, beginsSide_leftBrace hl]

/-- The keyword and an opening brace start a subgraph without a name. -/
theorem beginsSide_keyword (hw : w.isKeyword "subgraph") (hl : l.kind = .leftBrace) :
    r.BeginsSide ok d chain (w :: l :: ls) ↔
      Closes ok r.header d (⟨"", chain, r.stmts⟩ :: r.braces) [] ls := by
  constructor
  · rintro ⟨e, ms, h, checked, rest⟩
    cases h with
    | node hs => exact absurd ⟨hw, .inl hl⟩ hs
    | subgraph hb =>
      cases hb with
      | anonymous ho => exact absurd ho (Lexeme.kind_ne_of_isId (Lexeme.isId_of_isKeyword hw) rfl)
      | keyword _ _ h hc => exact ⟨_, _, _, h, hc, checked, rest⟩
      | named _ hn => simp [Lexeme.isName, hl] at hn
  · rintro ⟨body, c, ms, h, hc, checked, rest⟩
    exact ⟨_, _, .subgraph (.keyword hw hl h hc), checked, rest⟩

/-- The keyword and a name start a subgraph of that name. -/
theorem beginsSide_named (hw : w.isKeyword "subgraph") (hl : l.isName) :
    r.BeginsSide ok d chain (w :: l :: ls) ↔ ∃ o ms, ls = o :: ms ∧ o.kind = .leftBrace ∧
      Closes ok r.header d (⟨l.value, chain, r.stmts⟩ :: r.braces) [] ms := by
  constructor
  · rintro ⟨e, ms, h, checked, rest⟩
    cases h with
    | node hs => exact absurd ⟨hw, .inr hl⟩ hs
    | subgraph hb =>
      cases hb with
      | anonymous ho => exact absurd ho (Lexeme.kind_ne_of_isId (Lexeme.isId_of_isKeyword hw) rfl)
      | keyword _ ho => simp [Lexeme.isName, ho] at hl
      | named _ _ ho h hc => exact ⟨_, _, rfl, ho, _, _, _, h, hc, checked, rest⟩
  · rintro ⟨o, ms, rfl, ho, body, c, ns, h, hc, checked, rest⟩
    exact ⟨_, _, .subgraph (.named hw hl ho h hc), checked, rest⟩

/-- Any other word starts a node. -/
theorem beginsSide_node (hw : w.isId) (hs : ¬StartsSubgraph (w :: ls)) :
    r.BeginsSide ok d chain (w :: ls) ↔ ∃ ref ms, NodeId (w :: ls) ref ms ∧
      ContinuesChain ok (r.Rest ok d) (.node ref :: chain) ms := by
  constructor
  · rintro ⟨e, ms, h, -, rest⟩
    cases h with
    | node _ hn => exact ⟨_, _, hn, rest⟩
    | subgraph hb =>
      cases hb with
      | anonymous ho => exact absurd ho (Lexeme.kind_ne_of_isId hw rfl)
      | keyword hk ho => exact absurd ⟨hk, .inl ho⟩ hs
      | named hk hn => exact absurd ⟨hk, .inr hn⟩ hs
  · rintro ⟨ref, ms, hn, rest⟩
    exact ⟨_, _, .node hs hn, trivial, rest⟩

/-- A word without a colon after it is a node without a port. -/
theorem beginsSide_other (hw : w.isId) (hs : ¬StartsSubgraph (w :: l :: ls))
    (hl : l.kind ≠ .colon) :
    r.BeginsSide ok d chain (w :: l :: ls) ↔
      ContinuesChain ok (r.Rest ok d) (.node ⟨w.value, none⟩ :: chain) (l :: ls) := by
  rw [beginsSide_node hw hs]
  constructor
  · rintro ⟨ref, ms, hn, rest⟩
    cases hn with
    | id => exact rest
    | port _ _ hc => exact absurd hc hl
    | compass _ _ hc => exact absurd hc hl
  · intro rest
    exact ⟨_, _, .id _ hw, rest⟩

/-- A word with a colon after it is a node with a port. -/
theorem beginsSide_colon (hw : w.isId) (hl : l.kind = .colon) :
    r.BeginsSide ok d chain (w :: l :: ls) ↔ ∃ p ms, ls = p :: ms ∧ p.isId ∧
      (ContinuesChain ok (r.Rest ok d) (.node ⟨w.value, some p.value⟩ :: chain) ms ∨
        ∃ c q ns, ms = c :: q :: ns ∧ c.kind = .colon ∧ q.isId ∧
          ContinuesChain ok (r.Rest ok d)
            (.node ⟨w.value, some (p.value ++ ":" ++ q.value)⟩ :: chain) ns) := by
  have hs : ¬StartsSubgraph (w :: l :: ls) := by
    rintro ⟨-, h | h⟩
    · rw [hl] at h; cases h
    · simp [Lexeme.isName, hl] at h
  -- The colon belongs to the node, as no chain goes on with it.
  rw [beginsSide_node hw hs]
  constructor
  · rintro ⟨ref, ms, hn, rest⟩
    cases hn with
    | id => exact absurd hl (kind_ne_of_continuesChain (fun _ _ => rest_head) rest (.inr rfl))
    | port _ _ _ hp => exact ⟨_, _, rfl, hp, .inl rest⟩
    | compass _ _ _ hp hc' hq => exact ⟨_, _, rfl, hp, .inr ⟨_, _, _, rfl, hc', hq, rest⟩⟩
  · rintro ⟨p, ms, rfl, hp, rest | ⟨c, q, ns, rfl, hc, hq, rest⟩⟩
    · exact ⟨_, _, .port _ hw hl hp, rest⟩
    · exact ⟨_, _, .compass _ hw hl hp hc hq, rest⟩

end

end Reading

end DotLang
