import DotLang.Proofs.Syntax.Completion

/-!
# What a token does

A step of reading is spread over one function for each place in a statement. Here is said
once what a token can do to a reading: which statement it finishes, where it takes the
reading to, and why it is not read if it is not. What is kept on all ways through a
document follows case by case.

* `Reading.Moves`: what a token does that is read;
* `Reading.Stops`: why a token is not read;
* `Reading.step_yields`: there is nothing else that comes of a token;
* `Progress.step_yields`: the same for a whole document;
* `Progress.Reads`: what has been read of a document after some tokens;
* `Tokens.exists_stop`: the token at which an error shows.
-/

namespace DotLang

namespace Part

/-- The endpoints of a statement that may end with them, the latest first. -/
def endpoints? : Part → Option (List Endpoint)
  | name chain word => some (.node ⟨word.value, none⟩ :: chain)
  | port chain word p => some (.node ⟨word.value, some p⟩ :: chain)
  | compass chain word p => some (.node ⟨word.value, some p⟩ :: chain)
  | endpoint chain => some chain
  | _ => none

/-- The assignments of a statement that may end with them, the latest first, and what they
    belong to. -/
def list? : Part → Option (Subject × List Entry)
  | assigned e => some (.attributes .scope, [e])
  | lists subject entries => some (subject, entries)
  | _ => none

/-- The assignments of a list in which a key may stand next, the latest first, and what they
    belong to. -/
def inList? : Part → Option (Subject × List Entry)
  | list subject entries => some (subject, entries)
  | entry subject entries => some (subject, entries)
  | _ => none

end Part

/-- The statement of endpoints without assignments, the latest first. -/
def Stmt.ofChain : List Endpoint → Stmt
  | [.node ref] => .node ref []
  | [.subgraph name body] => .subgraph name body
  | chain => .edge chain.reverse []

namespace Reading

/-! ### Places in a statement -/

/-- A statement may end here, and with it finished, if there is one, the reading is `r'`. -/
inductive Ends (r : Reading) : Reading → Prop
  | nothing : r.part = .nothing → Ends r r
  | chain {chain : List Endpoint} : r.part.endpoints? = some chain →
      Ends r (r.finish (.ofChain chain))
  | list {subject : Subject} {entries : List Entry} : r.part.list? = some (subject, entries) →
      Entry.firstError? (subject.owner !r.braces.isEmpty) entries.reverse = none →
      Ends r (r.finish (subject.stmt (Entry.assignments entries)))

/-- An endpoint may stand here, behind those of the chain. -/
inductive Awaits (r : Reading) : Reading → List Endpoint → Prop
  | statement {r' : Reading} : r.Ends r' → Awaits r r' []
  | endpoint {chain : List Endpoint} : r.part = .operator chain → Awaits r r chain

/-- The braces of a subgraph may open here. -/
inductive Opens (r : Reading) : Reading → List Endpoint → String → Prop
  | anonymous {r' : Reading} {chain : List Endpoint} : r.Awaits r' chain → Opens r r' chain ""
  | keyword {chain : List Endpoint} {word : Token} : r.part = .name chain word →
      Opens r r chain ""
  | named {chain : List Endpoint} {name : String} : r.part = .subgraphName chain name →
      Opens r r chain name

/-- A list in brackets may start here, with some assignments of the same subject before it. -/
inductive Lists (r : Reading) : Subject → List Entry → Prop
  | target {word : Token} {target : Target} : r.part = .name [] word →
      target? word = some target → Lists r (.attributes target) []
  | node {ref : NodeRef} : r.part.endpoints? = some [.node ref] → Lists r (.node ref) []
  | edge {chain : List Endpoint} : r.part.endpoints? = some chain → Lists r (.edge chain) []
  | more {subject : Subject} {entries : List Entry} : r.part = .lists subject entries →
      Lists r subject entries

/-! ### What comes of a token -/

/-- What a token does to a reading. -/
inductive Moves (r : Reading) (t : Token) : Progress → Prop
  | semicolon {r' : Reading} : r.Ends r' → t.kind = .semicolon →
      Moves r t (.body { r' with part := .nothing })
  | rightBrace {r' : Reading} : r.Ends r' → t.kind = .rightBrace → Moves r t r'.closeBrace
  | leftBrace {r' : Reading} {chain : List Endpoint} {name : String} : r.Opens r' chain name →
      t.kind = .leftBrace → Moves r t (.body
        { r' with braces := ⟨name, chain, r'.stmts⟩ :: r'.braces, stmts := [], part := .nothing })
  | word {r' : Reading} {chain : List Endpoint} : r.Awaits r' chain → t.isId →
      Moves r t (.body { r' with part := .name chain t })
  | subgraphName {chain : List Endpoint} {word : Token} : r.part = .name chain word → t.isName →
      Moves r t (.body { r with part := .subgraphName chain t.value })
  | colon {chain : List Endpoint} {word : Token} : r.part = .name chain word →
      t.kind = .colon → Moves r t (.body { r with part := .colon chain word })
  | port {chain : List Endpoint} {word : Token} : r.part = .colon chain word → t.isId →
      Moves r t (.body { r with part := .port chain word t.value })
  | portColon {chain : List Endpoint} {word : Token} {port : String} :
      r.part = .port chain word port → t.kind = .colon →
      Moves r t (.body { r with part := .portColon chain word port })
  | compass {chain : List Endpoint} {word : Token} {port : String} :
      r.part = .portColon chain word port → t.isId →
      Moves r t (.body { r with part := .compass chain word (port ++ ":" ++ t.value) })
  | edgeOp {chain : List Endpoint} : r.part.endpoints? = some chain → t.kind = .edgeOp →
      Moves r t (.body { r with part := .operator chain })
  | assign {word : Token} : r.part = .name [] word → t.kind = .equal →
      Moves r t (.body { r with part := .assign word.value })
  | assigned {key : String} : r.part = .assign key → t.isId →
      Moves r t (.body { r with part := .assigned ⟨key, t.value, t.pos⟩ })
  | leftBracket {subject : Subject} {entries : List Entry} : r.Lists subject entries →
      t.kind = .leftBracket → Moves r t (.body { r with part := .list subject entries })
  | rightBracket {subject : Subject} {entries : List Entry} :
      r.part.inList? = some (subject, entries) → t.kind = .rightBracket →
      Moves r t (.body { r with part := .lists subject entries })
  | key {subject : Subject} {entries : List Entry} :
      r.part.inList? = some (subject, entries) → t.kind = .identifier ∨ t.kind = .string →
      Moves r t (.body { r with part := .key subject entries t.value })
  | equals {subject : Subject} {entries : List Entry} {key : String} :
      r.part = .key subject entries key → t.kind = .equal →
      Moves r t (.body { r with part := .equals subject entries key })
  | entry {subject : Subject} {entries : List Entry} {key : String} :
      r.part = .equals subject entries key → t.isId →
      Moves r t (.body { r with part := .entry subject (⟨key, t.value, t.pos⟩ :: entries) })
  | separator {subject : Subject} {entries : List Entry} : r.part = .entry subject entries →
      t.kind = .comma ∨ t.kind = .semicolon →
      Moves r t (.body { r with part := .list subject entries })

/-- Why a token is not read. A text that is no value shows at the token behind the list that
    it is in. -/
inductive Stops (r : Reading) (t : Token) : ParseError → Prop
  | unexpected (expected : Expected) : Stops r t (.atToken expected t)
  | assignedPort {word : Token} {port : String} :
      r.part = .port [] word port ∨ r.part = .compass [] word port → t.kind = .equal →
      Stops r t ⟨.assignedPort, word.pos⟩
  | badValue {subject : Subject} {entries : List Entry} {e : ParseError} :
      r.part.list? = some (subject, entries) →
      Entry.firstError? (subject.owner !r.braces.isEmpty) entries.reverse = some e → Stops r t e

/-- The error of a list is that of the first entry whose text is no value. -/
theorem exists_of_firstError? {o : Owner} {entries : List Entry} {e : ParseError}
    (h : Entry.firstError? o entries = some e) :
    ∃ before entry after m, entries = before ++ entry :: after ∧
      (∀ x ∈ before, o.mismatch? x.key x.text = none) ∧
      o.mismatch? entry.key entry.text = some m ∧
      e = ⟨.badValue ⟨entry.key, entry.text, m⟩, entry.pos⟩ := by
  obtain ⟨before, entry, after, hentries, hentry, hbefore⟩ := List.findSome?_eq_some_iff.1 h
  obtain ⟨m, hm, he⟩ := Option.map_eq_some_iff.1 hentry
  exact ⟨before, entry, after, m, hentries, fun x hx => Option.map_eq_none_iff.1 (hbefore x hx), hm,
    he.symm⟩

/-- What comes of a token: it moves the reading, or stops it. -/
inductive Yields (r : Reading) (t : Token) : Except Stuck Progress → Prop
  | ok {p : Progress} : r.Moves t p → Yields r t (.ok p)
  | error {s : Stuck} : r.Stops t s.error → Yields r t (.error s)

variable {r r' : Reading} {t word : Token} {chain : List Endpoint} {subject : Subject}
  {entries : List Entry}

theorem first_yields {expected : Expected} (h : r.Awaits r' chain) :
    r.Yields t (r'.first chain expected t) := by
  unfold first
  split
  · next hk => exact .ok (.leftBrace (.anonymous h) hk)
  split
  · next hid => exact .ok (.word h hid)
  · exact .error (.unexpected expected)

theorem between_yields (h : r.Ends r') : r.Yields t (r'.between t) := by
  unfold between
  split
  · next hk => exact .ok (.semicolon h hk)
  split
  · next hk => exact .ok (.rightBrace h hk)
  · exact first_yields (.statement h)

theorem afterList_yields (h : r.part.list? = some (subject, entries)) :
    r.Yields t (r.afterList subject entries t) := by
  rw [afterList, finishList]
  cases herr : Entry.firstError? (subject.owner !r.braces.isEmpty) entries.reverse with
  | some e => exact .error (.badValue h herr)
  | none => exact between_yields (.list h herr)

/-- A list without entries holds no bad text. -/
theorem afterList_nil (r : Reading) (subject : Subject) (t : Token) :
    r.afterList subject [] t = (r.finish (subject.stmt [])).between t := rfl

theorem afterEndpoint_yields (h : r.part.endpoints? = some chain) :
    r.Yields t (r.afterEndpoint chain t) := by
  unfold afterEndpoint
  split
  · next hk => exact .ok (.edgeOp h hk)
  split
  · unfold afterSubject
    split
    · next hk => exact .ok (.leftBracket (.node h) hk)
    · rw [afterList_nil]
      exact between_yields (.chain h)
  · exact between_yields (.chain h)
  · next hnode hsubgraph =>
    unfold afterSubject
    split
    · next hk => exact .ok (.leftBracket (.edge h) hk)
    · have edge : Stmt.ofChain chain = .edge chain.reverse [] := by
        unfold Stmt.ofChain
        split
        · exact absurd rfl (hnode _)
        · exact absurd rfl (hsubgraph _ _)
        · rfl
      rw [afterList_nil, Subject.stmt, ← edge]
      exact between_yields (.chain h)

/-- Behind a port stands no equals sign, and behind a word alone it makes the word a key. -/
theorem afterNode_yields {port : Option String}
    (h : r.part.endpoints? = some (.node ⟨word.value, port⟩ :: chain))
    (hport : port.isSome → ∃ p, r.part = .port chain word p ∨ r.part = .compass chain word p)
    (hword : port = none → r.part = .name chain word) :
    r.Yields t (r.afterNode chain word port t) := by
  unfold afterNode
  split
  · next hk =>
    obtain ⟨hk, hc⟩ := hk
    obtain rfl : chain = [] := List.isEmpty_iff.1 hc
    split
    · next hsome =>
      obtain ⟨p, hp⟩ := hport hsome
      exact .error (.assignedPort hp hk)
    · next hnone =>
      exact .ok (.assign (hword (Option.not_isSome_iff_eq_none.1 hnone)) hk)
  · exact afterEndpoint_yields h

theorem afterName_yields (h : r.part = .name chain word) :
    r.Yields t (r.afterName chain word t) := by
  have node : r.Yields t (r.afterNode chain word none t) :=
    afterNode_yields (by rw [h, Part.endpoints?]) nofun fun _ => h
  unfold afterName
  split
  · next hk => exact .ok (.colon h hk)
  split
  · next hk => exact .ok (.leftBrace (.keyword h) hk.2)
  split
  · next hname => exact .ok (.subgraphName h hname.2)
  split
  · next hk =>
    obtain ⟨hk, hc⟩ := hk
    obtain rfl : chain = [] := List.isEmpty_iff.1 hc
    split
    · next target ht => exact .ok (.leftBracket (.target h ht) hk)
    · exact node
  · exact node

theorem inList_yields (h : r.part.inList? = some (subject, entries)) :
    r.Yields t (r.inList subject entries t) := by
  unfold inList
  split
  · next hk => exact .ok (.rightBracket h hk)
  split
  · next hk => exact .ok (.key h hk)
  · exact .error (.unexpected .attributeName)

/-- Where only one kind of token can stand. -/
theorem expect_yields {c : Prop} [Decidable c] {p : Progress} {expected : Expected}
    (h : c → r.Moves t p) :
    r.Yields t (if c then .ok p else r.fail (.atToken expected t)) := by
  split
  · next hc => exact .ok (h hc)
  · exact .error (.unexpected expected)

/-- A token that is read moves the reading in one of the ways above, and one that is not has
    one of the reasons above. -/
theorem step_yields (r : Reading) (t : Token) : r.Yields t (r.step t) := by
  unfold step
  split
  · next h => exact between_yields (.nothing h)
  · next h => exact first_yields (.endpoint h)
  · next h => exact afterName_yields h
  · next h => exact expect_yields (.leftBrace (.named h))
  · next h => exact expect_yields (.port h)
  · next chain word port h =>
    split
    · next hk => exact .ok (.portColon h hk)
    · exact afterNode_yields (by rw [h, Part.endpoints?]) (fun _ => ⟨port, .inl h⟩) nofun
  · next h => exact expect_yields (.compass h)
  · next chain word port h =>
    exact afterNode_yields (by rw [h, Part.endpoints?]) (fun _ => ⟨port, .inr h⟩) nofun
  · next h => exact afterEndpoint_yields (by rw [h, Part.endpoints?])
  · next h => exact expect_yields (.assigned h)
  · next h => exact afterList_yields (by rw [h, Part.list?])
  · next h => exact inList_yields (by rw [h, Part.inList?])
  · next h => exact expect_yields (.equals h)
  · next h => exact expect_yields (.entry h)
  · next h =>
    split
    · next hk => exact .ok (.separator h hk)
    · exact inList_yields (by rw [h, Part.inList?])
  · next subject entries h =>
    unfold afterSubject
    split
    · next hk => exact .ok (.leftBracket (.more h) hk)
    · exact afterList_yields (by rw [h, Part.list?])

end Reading

/-! ### Runs -/

namespace Progress

/-- The header of a document is being read. -/
def InHeader : Progress → Prop
  | start => True
  | strict => True
  | keyword _ => True
  | titled _ => True
  | _ => False

/-- The header is still being read, or nothing behind it has been. -/
def UpToHeader (p : Progress) : Prop := p.InHeader ∨ ∃ header, p = .body { header := header }

/-- What comes of a token in a document: it belongs to the header, in which there is no equals
    sign, it was not expected, or it moves or stops a reading. -/
inductive Yields (p : Progress) (t : Token) : Except Stuck Progress → Prop
  | header {q : Progress} : p.InHeader → q.UpToHeader → t.kind ≠ .equal → Yields p t (.ok q)
  | unexpected {s : Stuck} (expected : Expected) : s.error = .atToken expected t →
      Yields p t (.error s)
  | body {r : Reading} {x : Except Stuck Progress} : p = .body r → r.Yields t x → Yields p t x

section

variable {t : Token} {p q : Progress}

theorem yields_keyword {word : String} (hp : p.InHeader) (hq : q.UpToHeader)
    (h : t.isKeyword word) : p.Yields t (.ok q) :=
  .header hp hq fun hk => by simp [Token.isKeyword, hk] at h

theorem readKeyword_yields (strict : Bool) (hp : p.InHeader) :
    p.Yields t (readKeyword strict t) := by
  unfold readKeyword
  split
  · next hw => exact yields_keyword hp (.inl trivial) hw
  split
  · next hw => exact yields_keyword hp (.inl trivial) hw
  · exact .unexpected _ rfl

theorem readBrace_yields (header : Header) (hp : p.InHeader) :
    p.Yields t (readBrace header t) := by
  unfold readBrace
  split
  · next hk => exact .header hp (.inr ⟨header, rfl⟩) fun he => by simp [hk] at he
  · exact .unexpected _ rfl

theorem step_yields (p : Progress) (t : Token) : p.Yields t (p.step t) := by
  unfold step
  split
  · split
    · next hw => exact yields_keyword trivial (.inl trivial) hw
    · exact readKeyword_yields false trivial
  · exact readKeyword_yields true trivial
  · split
    · next hn =>
      exact .header trivial (.inl trivial) fun hk => by simp [Token.isName, hk] at hn
    · exact readBrace_yields _ trivial
  · exact readBrace_yields _ trivial
  · next r => exact .body rfl (r.step_yields t)
  · exact .unexpected _ rfl

/-- A token that is read belongs to the header or moves a reading. -/
theorem step_cases (h : p.step t = .ok q) :
    p.InHeader ∧ q.UpToHeader ∧ t.kind ≠ .equal ∨ ∃ r, p = .body r ∧ r.Moves t q := by
  have yields := p.step_yields t
  rw [h] at yields
  cases yields with
  | header hp hq ht => exact .inl ⟨hp, hq, ht⟩
  | body hp hr =>
    cases hr with
    | ok moves => exact .inr ⟨_, hp, moves⟩

/-- A token that is not read was not expected, or it stops a reading. -/
theorem stops_of_step {s : Stuck} (h : p.step t = .error s) :
    (∃ expected, s.error = .atToken expected t) ∨ ∃ r, p = .body r ∧ r.Stops t s.error := by
  have yields := p.step_yields t
  rw [h] at yields
  cases yields with
  | unexpected expected he => exact .inl ⟨expected, he⟩
  | body hp hr =>
    cases hr with
    | error stops => exact .inr ⟨_, hp, stops⟩

end

/-- The tokens are read one after the other from the start of a document, and lead to what
    has been read. -/
inductive Reads : List Token → Progress → Prop
  | nil : Reads [] .start
  | concat {ts : List Token} {t : Token} {p q : Progress} : Reads ts p → p.step t = .ok q →
      Reads (ts ++ [t]) q

end Progress

/-- The tokens `before` are read, but not the token `t` behind them, which is the first of those
    that are left. It is one of the text, or the end of the text in an open document. -/
structure Tokens.StopsAt (ts : Tokens) (before : List Token) (t : Token) (after : List Token)
    (p : Progress) (s : Stuck) : Prop where
  reads : Progress.Reads before p
  step : p.step t = .error s
  toList : ts.toList = before ++ t :: after
  rest : ts.parse.rest.toList = t :: after
  pending_or_unfinished : t ∈ ts.pending ∨ ∀ document remarks, p ≠ .closed document remarks

/-- The tokens before the one at which reading stops are the first ones of the text. -/
theorem Tokens.StopsAt.prefix_pending {ts : Tokens} {before after : List Token} {t : Token}
    {p : Progress} {s : Stuck} (h : ts.StopsAt before t after p s) : before <+: ts.pending := by
  have tokens := congrArg List.dropLast h.toList
  rw [Tokens.toList, List.dropLast_concat,
    List.dropLast_append_of_ne_nil (List.cons_ne_nil t after)] at tokens
  exact ⟨_, tokens.symm⟩

/-- An error shows at a token, behind some that are read. -/
theorem Progress.Reads.exists_stop {done : List Token} {p : Progress} (h : Reads done p)
    {ts : Tokens} {later : List Token} {e : ParseError} (htokens : ts.pending = done ++ later)
    (hrun : ts.parse = p.run ts.stop later) (herror : ts.parse.result = .error e) :
    ∃ before t after q s, ts.StopsAt before t after q s ∧ s.error = e := by
  induction later generalizing done p with
  | nil =>
    rw [List.append_nil] at htokens
    rw [run] at hrun
    have unfinished : ∀ document remarks, p ≠ .closed document remarks := by
      rintro document remarks rfl
      rw [hrun] at herror
      cases herror
    have stops : ∃ s, p.step (.endAt ts.stop) = .error s ∧ ts.parse = s.parsed ⟨[], ts.stop⟩ := by
      unfold finish at hrun
      split at hrun
      · exact absurd rfl (unfinished _ _)
      · split at hrun
        · next s hs => exact ⟨s, hs, hrun⟩
        · next q hq => exact absurd hq (step_endAt_ne_ok _ q _)
    obtain ⟨s, hs, hparse⟩ := stops
    refine ⟨done, .endAt ts.stop, [], p, s, ⟨h, hs, ?_, ?_, .inr unfinished⟩, ?_⟩
    · rw [Tokens.toList, htokens]
    · rw [hparse]
      rfl
    · rw [hparse] at herror
      exact Except.error.inj herror
  | cons t later ih =>
    rw [run] at hrun
    split at hrun
    · next q hq =>
      exact ih (h.concat hq) (by rw [htokens, List.append_assoc, List.singleton_append]) hrun
    · next s hs =>
      refine ⟨done, t, later ++ [.endAt ts.stop], p, s, ⟨h, hs, ?_, ?_, .inl ?_⟩, ?_⟩
      · rw [Tokens.toList, htokens, List.append_assoc, List.cons_append]
      · rw [hrun]
        rfl
      · rw [htokens]
        exact List.mem_append_right _ List.mem_cons_self
      · rw [hrun] at herror
        exact Except.error.inj herror

/-- An error shows at a token, behind some that are read. -/
theorem Tokens.exists_stop {ts : Tokens} {e : ParseError} (h : ts.parse.result = .error e) :
    ∃ before t after p s, ts.StopsAt before t after p s ∧ s.error = e :=
  Progress.Reads.nil.exists_stop rfl rfl h

end DotLang
