import DotLang.Proofs.Syntax.Acceptance
import DotLang.Proofs.Syntax.Moves

/-!
# The first impossible token

Reading goes on as long as some document starts with the tokens read, and stops at the first
token with which none does. Here the texts of attributes are not looked at, and the end of
the text counts as a token.

* `Progress.Reads.completes_iff`: what completes the tokens read to a sentence;
* `Progress.Sound.exists_completes`: something always does;
* `Progress.Reads.nodeTokens`: the tokens of a node that has been started;
* `Graph.exists_impossible_token`: where an error shows that is not about a text.
-/

namespace DotLang

open Grammar

/-! ### Beginnings of sentences -/

namespace Grammar

/-- A sentence of the grammar, with the end of the text behind it, starts with the lexemes. -/
def Viable (ls : List Lexeme) : Prop :=
  ∃ d ms, Sentence ms d ∧ ls <+: ms ++ [⟨.endOfInput, ""⟩]

/-- Behind the lexemes `ls` any statements can stand of which `w` is the first lexeme. One of
    them may be an assignment and another an edge, so `w` is no key in brackets there, nor the
    right side of an edge operator. -/
def StatementAt (ls : List Lexeme) (w : Lexeme) : Prop :=
  ∃ close, ∀ ms body, Statements (w :: ms ++ close) body close →
    ∃ d, Sentence (ls ++ (w :: ms ++ close)) d

end Grammar

/-! ### No check of texts -/

variable {ok : Owner → Assignments → Prop}

mutual

theorem Endpoint.checked_of_forall (h : ∀ o pairs, ok o pairs) : (e : Endpoint) → e.Checked ok
  | .node _ => trivial
  | .subgraph _ body => checkedAll_of_forall h true body

theorem Stmt.checked_of_forall (h : ∀ o pairs, ok o pairs) (nested : Bool) :
    (stmt : Stmt) → stmt.Checked ok nested
  | .attributes target pairs => h (target.owner nested) pairs
  | .node _ pairs => h .node pairs
  | .subgraph _ body => checkedAll_of_forall h true body
  | .edge ends pairs => ⟨checkedEnds_of_forall h ends, h .edge pairs⟩

theorem checkedAll_of_forall (h : ∀ o pairs, ok o pairs) (nested : Bool) :
    (body : List Stmt) → CheckedAll ok nested body
  | [] => trivial
  | stmt :: body => ⟨stmt.checked_of_forall h nested, checkedAll_of_forall h nested body⟩

theorem checkedEnds_of_forall (h : ∀ o pairs, ok o pairs) :
    (ends : List Endpoint) → CheckedEnds ok ends
  | [] => trivial
  | e :: ends => ⟨e.checked_of_forall h, checkedEnds_of_forall h ends⟩

end

/-- The check that every text passes. -/
abbrev anyText (_ : Owner) (_ : Assignments) : Prop := True

theorem completes_start_iff_sentence {d : Document} {ls : List Lexeme} :
    Progress.start.Completes anyText d ls ↔ Sentence ls d := by
  rw [completes_start_iff]
  exact and_iff_left (checkedAll_of_forall (fun _ _ => trivial) false d.body)

namespace Progress

variable {ts : List Token} {t : Token} {p q : Progress} {s : Stuck}

/-- What is missing of a document, after some tokens, is what goes on with them. -/
theorem Reads.completes_iff (h : Reads ts p) :
    p.Sound ∧ ∀ d ls, p.Completes anyText d ls ↔ Sentence (ts.map Token.lexeme ++ ls) d := by
  induction h with
  | nil => exact ⟨trivial, fun d ls => completes_start_iff_sentence⟩
  | @concat ts t p q _ hstep ih =>
    obtain ⟨sound, completes⟩ := ih
    have agrees : ∀ d ls, Agrees anyText (p.step t) d ls
        (p.Completes anyText d (t.lexeme :: ls)) := fun d ls =>
      step_agrees (fun _ _ _ => trivial) p sound t
    rw [hstep] at agrees
    refine ⟨(agrees default []).1, fun d ls => ?_⟩
    rw [(agrees d ls).2, completes, List.map_append, List.append_assoc]
    rfl

/-- With a token that is not read no document goes on, unless it is a text that is at fault. -/
theorem Sound.not_completes (hp : p.Sound) (h : p.step t = .error s)
    (hvalue : ∀ e, s.error.fault ≠ .badValue e) (d : Document) (ls : List Lexeme) :
    ¬p.Completes anyText d (t.lexeme :: ls) := by
  intro hc
  have agrees : Agrees anyText (p.step t) d ls (p.Completes anyText d (t.lexeme :: ls)) :=
    step_agrees (fun _ _ _ => trivial) p hp t
  rw [h] at agrees
  obtain ⟨o, entries, hfirst, -⟩ := agrees hc
  obtain ⟨-, entry, -, m, -, -, -, he⟩ := Reading.exists_of_firstError? hfirst
  exact hvalue _ (congrArg ParseError.fault he)

end Progress

/-! ### What can always follow -/

/-- Closing braces. -/
def closers (n : Nat) : List Lexeme := List.replicate n ⟨.rightBrace, "\x7d"⟩

/-- Behind endpoints a statement can end. -/
theorem exists_endsChain (chain : List Endpoint) : ∃ s : Stmt,
    ∀ {rest : Stmt → List Lexeme → Prop} {ls : List Lexeme}, rest s ls →
      ContinuesChain anyText rest chain ls := by
  have nothing : ∀ {rest : Stmt → List Lexeme → Prop} {ls : List Lexeme},
      FinishesEnds anyText rest chain.reverse ls → ContinuesChain anyText rest chain ls :=
    fun h => ⟨[], _, .nil _, trivial, by rwa [List.append_nil]⟩
  -- One endpoint alone is a node or a subgraph, all else is an edge.
  cases hc : chain.reverse with
  | nil => exact ⟨.edge [] [], fun h => nothing (hc ▸ ⟨[], _, .nil _, trivial, h⟩)⟩
  | cons e ends =>
    cases ends with
    | nil =>
      cases e with
      | node ref => exact ⟨.node ref [], fun h => nothing (hc ▸ ⟨[], _, .nil _, trivial, h⟩)⟩
      | subgraph name body => exact ⟨.subgraph name body, fun h => nothing (hc ▸ h)⟩
    | cons e' ends =>
      exact ⟨.edge (e :: e' :: ends) [],
        fun h => nothing (hc ▸ finishesEnds_many.2 ⟨[], _, .nil _, trivial, h⟩)⟩

/-- Behind statements the braces that are open can close. -/
theorem exists_closes (header : Header) (braces : List OpenBrace) (stmts : List Stmt)
    {ls : List Lexeme} {body : List Stmt}
    (h : Statements ls body (closers (braces.length + 1))) :
    ∃ d, Closes anyText header d braces stmts ls := by
  have checked : ∀ nested, CheckedAll anyText nested body := fun nested =>
    checkedAll_of_forall (fun _ _ => trivial) nested body
  induction braces generalizing stmts ls body with
  | nil => exact ⟨_, body, _, h, rfl, checked false, rfl⟩
  | cons b braces ih =>
    obtain ⟨s, hs⟩ := exists_endsChain (.subgraph b.name (stmts.reverse ++ body) :: b.chain)
    obtain ⟨d, hd⟩ := ih (s :: b.before) (.nil _) fun _ => trivial
    exact ⟨d, body, _, _, h, rfl, checked true, hs hd⟩

namespace Reading

variable {r : Reading} {w : Lexeme}

/-- Behind statements the braces of a reading can close. -/
theorem exists_rest (r : Reading) (s : Stmt) :
    ∃ d, r.Rest anyText d s (closers (r.braces.length + 1)) :=
  exists_closes r.header r.braces (s :: r.stmts) (.nil _)

theorem exists_continues (r : Reading) (chain : List Endpoint) :
    ∃ d, ContinuesChain anyText (r.Rest anyText d) chain (closers (r.braces.length + 1)) := by
  obtain ⟨s, hs⟩ := exists_endsChain chain
  obtain ⟨d, hd⟩ := r.exists_rest s
  exact ⟨d, hs hd⟩

/-- A word can stand where a statement or an endpoint can start. -/
theorem exists_begins (r : Reading) (chain : List Endpoint) (hw : w.isId) :
    ∃ d, r.Begins anyText d chain (w :: closers (r.braces.length + 1)) := by
  obtain ⟨d, hd⟩ := r.exists_continues (.node ⟨w.value, none⟩ :: chain)
  let c : Lexeme := ⟨.rightBrace, "\x7d"⟩
  have node : ¬StartsSubgraph (w :: c :: closers r.braces.length) := by
    rintro ⟨-, h | h⟩ <;> cases h
  have side : r.BeginsSide anyText d chain (w :: c :: closers r.braces.length) :=
    (beginsSide_other hw node nofun).2 hd
  refine ⟨d, (begins_side ?_ ?_).2 side⟩
  · rintro - ⟨-, h⟩
    cases h
  · rintro - k e ms h
    obtain ⟨-, h⟩ := List.cons.inj h
    obtain ⟨rfl, -⟩ := List.cons.inj h
    nofun

theorem exists_finishesLists (r : Reading) (subject : Subject) (read : Assignments) :
    ∃ d, r.FinishesLists anyText d subject read (closers (r.braces.length + 1)) := by
  obtain ⟨d, hd⟩ := r.exists_rest (subject.stmt (read ++ []))
  exact ⟨d, [], _, .nil _, trivial, hd⟩

theorem exists_finishesPairs (r : Reading) (subject : Subject) (read : Assignments) :
    ∃ d ls, r.FinishesPairs anyText d subject read ls := by
  obtain ⟨d, hd⟩ := r.exists_finishesLists subject read
  exact ⟨d, ⟨.rightBracket, "]"⟩ :: _, (finishesPairs_rightBracket rfl).2 hd⟩

theorem exists_finishesValue (r : Reading) (subject : Subject) (read : Assignments)
    (key : String) : ∃ d ls, r.FinishesValue anyText d subject read key ls := by
  obtain ⟨d, ls, hd⟩ := r.exists_finishesPairs subject (read ++ [(key, "v")])
  exact ⟨d, ⟨.identifier, "v"⟩ :: ls, _, _, rfl, rfl, _, .absent _, hd⟩

/-- Every reading can be completed. -/
theorem exists_completes (r : Reading) (hr : (Progress.body r).Sound) :
    ∃ d ls, r.Completes anyText d ls := by
  -- The id and the braces that are enough for most parts.
  let v : Lexeme := ⟨.identifier, "v"⟩
  obtain ⟨header, braces, stmts, part, remarks⟩ := r
  cases part with
  | nothing =>
    obtain ⟨d, hd⟩ := exists_closes header braces stmts (.nil _)
    exact ⟨d, _, hd⟩
  | operator chain =>
    obtain ⟨d, hd⟩ := exists_begins _ chain (w := v) rfl
    exact ⟨d, _, hd⟩
  | name chain word =>
    obtain ⟨d, hd⟩ := exists_begins _ chain hr
    exact ⟨d, _, hd⟩
  | subgraphName chain name =>
    obtain ⟨d, hd⟩ := exists_closes header (⟨name, chain, stmts⟩ :: braces) [] (.nil _)
    exact ⟨d, ⟨.leftBrace, "\x7b"⟩ :: _, _, _, rfl, rfl, hd⟩
  | colon chain word =>
    obtain ⟨d, hd⟩ := exists_continues _ (.node ⟨word.value, some v.value⟩ :: chain)
    exact ⟨d, v :: _, _, _, rfl, rfl, .inl hd⟩
  | port chain word port =>
    obtain ⟨d, hd⟩ := exists_continues _ (.node ⟨word.value, some port⟩ :: chain)
    exact ⟨d, _, .inl hd⟩
  | portColon chain word port =>
    obtain ⟨d, hd⟩ := exists_continues _
      (.node ⟨word.value, some (port ++ ":" ++ v.value)⟩ :: chain)
    exact ⟨d, v :: _, _, _, rfl, rfl, hd⟩
  | compass chain word port =>
    obtain ⟨d, hd⟩ := exists_continues _ (.node ⟨word.value, some port⟩ :: chain)
    exact ⟨d, _, hd⟩
  | endpoint chain =>
    obtain ⟨d, hd⟩ := exists_continues _ chain
    exact ⟨d, _, hd⟩
  | assign key =>
    obtain ⟨d, hd⟩ := exists_rest _ (.attributes .scope [(key, v.value)])
    exact ⟨d, v :: _, _, _, rfl, rfl, trivial, hd⟩
  | assigned entry =>
    obtain ⟨d, hd⟩ := exists_rest _ (.attributes .scope [(entry.key, entry.text)])
    exact ⟨d, _, trivial, hd⟩
  | list subject entries => exact exists_finishesPairs _ subject _
  | key subject entries key =>
    obtain ⟨d, ls, hd⟩ := exists_finishesValue _ subject (Entry.assignments entries) key
    exact ⟨d, ⟨.equal, "="⟩ :: ls, _, _, rfl, rfl, hd⟩
  | equals subject entries key => exact exists_finishesValue _ subject _ key
  | entry subject entries =>
    obtain ⟨d, ls, hd⟩ := exists_finishesPairs _ subject (Entry.assignments entries)
    exact ⟨d, ls, ls, .absent _, hd⟩
  | lists subject entries =>
    obtain ⟨d, hd⟩ := exists_finishesLists _ subject (Entry.assignments entries)
    exact ⟨d, _, hd⟩

end Reading

namespace Progress

variable {ts before after : List Token} {t : Token} {p : Progress} {s : Stuck}

theorem exists_completesBrace (header : Header) :
    ∃ d ls, CompletesBrace anyText header d ls := by
  obtain ⟨d, hd⟩ := exists_closes header [] [] (.nil _)
  exact ⟨d, ⟨.leftBrace, "\x7b"⟩ :: _, _, _, rfl, rfl, hd⟩

theorem exists_completesKind (strict : Bool) :
    ∃ d ls, CompletesKind anyText strict d ls := by
  obtain ⟨d, ls, hd⟩ := exists_completesBrace { strict := strict, directed := false }
  exact ⟨d, ⟨.identifier, "graph"⟩ :: ls, _, _, .graph ls rfl, none, ls, .absent ls, hd⟩

/-- Everything that can have been read can be completed. -/
theorem Sound.exists_completes (hp : p.Sound) : ∃ d ls, p.Completes anyText d ls := by
  cases p with
  | start =>
    obtain ⟨d, ls, hd⟩ := exists_completesKind false
    exact ⟨d, ls, _, _, .absent ls, hd⟩
  | strict => exact exists_completesKind true
  | keyword header =>
    obtain ⟨d, ls, hd⟩ := exists_completesBrace { header with name := none }
    exact ⟨d, ls, none, ls, .absent ls, hd⟩
  | titled header => exact exists_completesBrace header
  | body r => exact r.exists_completes hp
  | closed document remarks => exact ⟨document, [], rfl, rfl⟩

/-- Some document starts with the tokens that are read. -/
theorem Reads.viable (h : Reads ts p) : Viable (ts.map Token.lexeme) := by
  obtain ⟨sound, completes⟩ := h.completes_iff
  obtain ⟨d, ls, hd⟩ := sound.exists_completes
  refine ⟨d, _, (completes d ls).1 hd, ?_⟩
  rw [List.append_assoc]
  exact List.prefix_append _ _

end Progress

/-- No document starts with the tokens that are read and the one at which reading stops, unless
    it stops because of a text. -/
theorem Tokens.StopsAt.not_viable {ts : Tokens} {before after : List Token} {t : Token}
    {p : Progress} {s : Stuck} (h : ts.StopsAt before t after p s)
    (hts : ∀ t ∈ ts.pending, t.kind ≠ .endOfInput)
    (hvalue : ∀ e, s.error.fault ≠ .badValue e) :
    ¬Viable ((before ++ [t]).map Token.lexeme) := by
  obtain ⟨sound, completes⟩ := h.reads.completes_iff
  rw [List.map_append]
  rintro ⟨d, ms, hms, hprefix⟩
  rcases List.prefix_concat_iff.1 hprefix with heq | ⟨more, rfl⟩
  · -- The token is the end of the text, which only a closed document goes on with.
    obtain ⟨rfl, hlast⟩ := List.append_inj' heq rfl
    have kind : t.kind = .endOfInput := congrArg Lexeme.kind (List.cons.inj hlast).1
    have complete : p.Completes anyText d [] := by
      rwa [completes, List.append_nil]
    obtain ⟨remarks, rfl⟩ := (Progress.completes_nil sound).1 complete
    rcases h.pending_or_unfinished with hpending | hopen
    · exact hts t hpending kind
    · exact hopen d remarks rfl
  · refine sound.not_completes h.step hvalue d more ?_
    rw [completes]
    rwa [List.append_assoc] at hms

/-- The error of a text shows at a token of the text. -/
theorem Graph.exists_stop {text : String} {e : ParseError} (h : Graph.ofText text = .error e) :
    ∃ before t after p s, (Tokens.ofText text).StopsAt before t after p s ∧ s.error = e := by
  have h : (Tokens.ofText text).parse.result.map Document.toGraph = .error e := h
  refine Tokens.exists_stop ?_
  cases hr : (Tokens.ofText text).parse.result with
  | ok d =>
    rw [hr] at h
    cases h
  | error e' =>
    rw [hr] at h
    exact congrArg _ (Except.error.inj h)

/-! ### The tokens of a node -/

/-- The last tokens read are those of a node behind the endpoints of the chain: first `word`,
    with which it starts, and then `more`. -/
def ReadsNode (ts : List Token) (chain : List Endpoint) (word : Token) (more : List Token) : Prop :=
  ∃ before r, ts = before ++ word :: more ∧ Progress.Reads (before ++ [word]) (.body r) ∧
    r.part = .name chain word

theorem ReadsNode.concat {ts more : List Token} {chain : List Endpoint} {word : Token}
    (h : ReadsNode ts chain word more) (t : Token) :
    ReadsNode (ts ++ [t]) chain word (more ++ [t]) := by
  obtain ⟨before, r, rfl, h⟩ := h
  exact ⟨before, r, by rw [List.append_assoc, List.cons_append], h⟩

/-- The tokens of a node that has been started are the last ones read. -/
def Part.NodeTokens (ts : List Token) : Part → Prop
  | name chain word => ReadsNode ts chain word []
  | colon chain word => ∃ c, c.kind = .colon ∧ ReadsNode ts chain word [c]
  | port chain word _ => ∃ c p, c.kind = .colon ∧ p.isId ∧ ReadsNode ts chain word [c, p]
  | portColon chain word _ => ∃ c p c', c.kind = .colon ∧ p.isId ∧ c'.kind = .colon ∧
      ReadsNode ts chain word [c, p, c']
  | compass chain word _ => ∃ c p c' q, c.kind = .colon ∧ p.isId ∧ c'.kind = .colon ∧ q.isId ∧
      ReadsNode ts chain word [c, p, c', q]
  | _ => True

/-- The same for all that has been read of a document. -/
def Progress.NodeTokens (ts : List Token) : Progress → Prop
  | body r => r.part.NodeTokens ts
  | _ => True

namespace Progress

variable {ts : List Token} {t : Token} {p q : Progress}

theorem nodeTokens_closeBrace (r : Reading) : r.closeBrace.NodeTokens ts := by
  unfold Reading.closeBrace
  split <;> exact trivial

/-- A token starts a node or goes on with one, or there is no node behind it. -/
theorem nodeTokens_of_moves {r : Reading} (hreads : Reads (ts ++ [t]) q)
    (h : r.part.NodeTokens ts) (hmoves : r.Moves t q) : q.NodeTokens (ts ++ [t]) := by
  cases hmoves with
  | word => exact ⟨ts, _, rfl, hreads, rfl⟩
  | colon hpart hk =>
    rw [hpart] at h
    exact ⟨t, hk, h.concat t⟩
  | port hpart hid =>
    rw [hpart] at h
    obtain ⟨c, hc, h⟩ := h
    exact ⟨c, t, hc, hid, h.concat t⟩
  | portColon hpart hk =>
    rw [hpart] at h
    obtain ⟨c, p, hc, hp, h⟩ := h
    exact ⟨c, p, t, hc, hp, hk, h.concat t⟩
  | compass hpart hid =>
    rw [hpart] at h
    obtain ⟨c, p, c', hc, hp, hc', h⟩ := h
    exact ⟨c, p, c', t, hc, hp, hc', hid, h.concat t⟩
  | rightBrace => exact nodeTokens_closeBrace _
  | semicolon | leftBrace | subgraphName | edgeOp | assign | assigned | leftBracket | rightBracket
  | key | equals | entry | separator => exact trivial

/-- The tokens of a node that has been started are the last ones read. -/
theorem Reads.nodeTokens (h : Reads ts p) : p.NodeTokens ts := by
  induction h with
  | nil => exact trivial
  | @concat ts t p q hreads hstep ih =>
    rcases step_cases hstep with ⟨-, hq | ⟨header, rfl⟩, -⟩ | ⟨r, rfl, hmoves⟩
    · cases q with
      | body | closed => exact hq.elim
      | start | strict | keyword | titled => exact trivial
    · exact trivial
    · exact nodeTokens_of_moves (hreads.concat hstep) ih hmoves

end Progress

/-! ### Where a port is assigned to -/

/-- A node that has been started behind no endpoint starts a statement. -/
theorem ReadsNode.statementAt {ts more : List Token} {word : Token}
    (h : ReadsNode ts [] word more) : ∃ before, ts = before ++ word :: more ∧ word.isId ∧
      StatementAt (before.map Token.lexeme) word.lexeme := by
  obtain ⟨before, r, rfl, hreads, hpart⟩ := h
  obtain ⟨sound, completes⟩ := hreads.completes_iff
  have hid : word.lexeme.isId := by
    simpa only [Progress.Sound, hpart] using sound
  refine ⟨before, rfl, hid, closers (r.braces.length + 1), fun ms body h => ?_⟩
  obtain ⟨s, later, ns, -, hs, hlater⟩ := (statements_statement (Lexeme.kind_ne_of_isId hid rfl)
    (Lexeme.kind_ne_of_isId hid rfl) rfl).1 h
  obtain ⟨d, hd⟩ := exists_closes r.header r.braces (s :: r.stmts) hlater
  have complete : r.Completes anyText d (ms ++ closers (r.braces.length + 1)) := by
    rw [Reading.Completes, hpart]
    exact ⟨s, ns, hs, s.checked_of_forall (fun _ _ => trivial) _, hd⟩
  have sentence := (completes d _).1 complete
  rw [List.map_append, List.append_assoc] at sentence
  exact ⟨d, sentence⟩

/-- The tokens of a node with a port that may start a statement are those of a phrase of the
    grammar. -/
theorem exists_port {ts : List Token} {word : Token} {port : String} {part : Part}
    (hpart : part = .port [] word port ∨ part = .compass [] word port)
    (h : part.NodeTokens ts) : ∃ start more p, ts = start ++ word :: more ∧
      NodeId ((word :: more).map Token.lexeme) ⟨word.value, some p⟩ [] ∧
      StatementAt (start.map Token.lexeme) word.lexeme := by
  rcases hpart with rfl | rfl
  · obtain ⟨c, p, hc, hp, h⟩ := h
    obtain ⟨start, rfl, hid, hstart⟩ := h.statementAt
    exact ⟨start, [c, p], _, rfl, .port [] hid hc hp, hstart⟩
  · obtain ⟨c, p, c', q, hc, hp, hc', hq, h⟩ := h
    obtain ⟨start, rfl, hid, hstart⟩ := h.statementAt
    exact ⟨start, [c, p, c', q], _, rfl, .compass [] hid hc hp hc' hq, hstart⟩

/-- An error at a token is about the token. -/
theorem ParseError.fault_atToken (expected : Expected) (found : Token) :
    (atToken expected found).fault = .illegalCharacter found ∨
      (atToken expected found).fault = .unexpected expected found := by
  unfold atToken Fault.ofToken
  split
  · exact .inl rfl
  · exact .inr rfl

/-- Unless a text is at fault, parsing stops in front of the first token with which no document
    starts; a document starts with the tokens before it. The error is at this token, or the
    token is an equals sign behind a node with a port that starts a statement, and the error is
    at the id of the node. -/
theorem Graph.exists_impossible_token {text : String} {e : ParseError}
    (h : Graph.ofText text = .error e) (hvalue : ∀ error, e.fault ≠ .badValue error) :
    ∃ before t after, (Tokens.ofText text).toList = before ++ t :: after ∧
      (Parsed.ofText text).rest.toList = t :: after ∧
      Viable (before.map Token.lexeme) ∧ ¬Viable ((before ++ [t]).map Token.lexeme) ∧
      ((∃ expected, e = .atToken expected t) ∨
        e.fault = .assignedPort ∧ t.kind = .equal ∧ ∃ start w more port,
          before = start ++ w :: more ∧ e.pos = w.pos ∧
          NodeId ((w :: more).map Token.lexeme) ⟨w.value, some port⟩ [] ∧
          StatementAt (start.map Token.lexeme) w.lexeme) := by
  obtain ⟨before, t, after, p, s, hstop, rfl⟩ := exists_stop h
  refine ⟨before, t, after, hstop.toList, hstop.rest, hstop.reads.viable,
    hstop.not_viable (Cursor.kind_ne_endOfInput _) hvalue, ?_⟩
  rcases Progress.stops_of_step hstop.step with unexpected | ⟨r, rfl, hstops⟩
  · exact .inl unexpected
  have tokens := hstop.reads.nodeTokens
  generalize s.error = e at hstops hvalue
  cases hstops with
  | unexpected expected => exact .inl ⟨expected, rfl⟩
  | assignedPort hpart hk =>
    obtain ⟨start, more, port, hbefore, hnode, hstart⟩ := exists_port hpart tokens
    exact .inr ⟨rfl, hk, start, _, more, port, hbefore, rfl, hnode, hstart⟩
  | badValue _ hfirst =>
    obtain ⟨-, entry, -, m, -, -, -, he⟩ := Reading.exists_of_firstError? hfirst
    exact absurd (congrArg ParseError.fault he) (hvalue _)

/-- A text that is not read, and what is found by looking at the error. -/
theorem Graph.exists_error (text : String) {P : ParseError → Prop} [DecidablePred P]
    (h : (match Graph.ofText text with
      | .ok _ => false
      | .error e => decide (P e)) = true) : ∃ e, Graph.ofText text = .error e ∧ P e := by
  cases hread : Graph.ofText text with
  | ok g =>
    rw [hread] at h
    cases h
  | error e =>
    rw [hread] at h
    exact ⟨e, rfl, of_decide_eq_true h⟩

/-- A key without a value is followed by an impossible token, and so is a node with a compass
    point that is assigned to. -/
theorem Graph.missing_value_impossible :
    (∃ e before t after, Graph.ofText "graph\x7ba[b c=d]\x7d" = .error e ∧ e.pos = ⟨1, 11⟩ ∧
      (Tokens.ofText "graph\x7ba[b c=d]\x7d").toList = before ++ t :: after ∧ t.pos = e.pos ∧
      ¬Viable ((before ++ [t]).map Token.lexeme)) ∧
    ∃ e start w more, Graph.ofText "graph\x7ba:b:c=d\x7d" = .error e ∧ e.pos = ⟨1, 7⟩ ∧
      w.pos = e.pos ∧ StatementAt (start.map Token.lexeme) w.lexeme ∧
      Viable ((start ++ w :: more).map Token.lexeme) := by
  constructor
  · obtain ⟨e, he, hfault, hpos⟩ := Graph.exists_error "graph\x7ba[b c=d]\x7d"
      (P := fun e => e.fault = .unexpected (.token .equal) ⟨.identifier, "c", ⟨1, 11⟩⟩ ∧
        e.pos = ⟨1, 11⟩) (by decide +kernel)
    obtain ⟨before, t, after, htokens, -, -, hnot, hat | ⟨hport, -⟩⟩ :=
      exists_impossible_token he (by rw [hfault]; nofun)
    · obtain ⟨expected, rfl⟩ := hat
      exact ⟨_, before, t, after, he, hpos, htokens, rfl, hnot⟩
    · rw [hfault] at hport
      cases hport
  · obtain ⟨e, he, hfault, hpos⟩ := Graph.exists_error "graph\x7ba:b:c=d\x7d"
      (P := fun e => e.fault = .assignedPort ∧ e.pos = ⟨1, 7⟩) (by decide +kernel)
    obtain ⟨before, t, after, -, -, hviable, -, hat | hport⟩ :=
      exists_impossible_token he (by rw [hfault]; nofun)
    · obtain ⟨expected, rfl⟩ := hat
      rcases ParseError.fault_atToken expected t with hat | hat <;> rw [hat] at hfault
      all_goals cases hfault
    · obtain ⟨-, -, start, w, more, port, rfl, hw, -, hstart⟩ := hport
      exact ⟨e, start, w, more, he, hpos, hw.symm, hstart, hviable⟩

end DotLang
