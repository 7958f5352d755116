import DotLang.Proofs.Source.Cutting
import DotLang.Proofs.Source.Rounds
import DotLang.Syntax.Descent

/-!
# The descent comes to an end

Each function of the parser returns or stops, for what it does before it calls itself again takes
a token that is not the end of the text, and there are only finitely many of these. So no text
leads deeper than a few calls for each of its tokens.

* `Descent.Ends`: what a function returns or stops with;
* `Parser.unread`: how many tokens are left, the current one and the one looked at among them;
* `Descent.Takes`: a function ends, and has taken some tokens if it returns;
* `Parser.takes_statement`, `Parser.takes_statements`: every statement takes a token, and every
  list of statements ends;
* `Parser.takes_document`: a parser for documents ends, whatever is left of the text.
-/

namespace DotLang

/-! ### What a function does -/

namespace Descent

/-- A function returns as `Q` says or stops as `E` says. -/
def Ends {α : Type} (m : Descent α) (s : Parser) (Q : α → Parser → Prop)
    (E : ParseError → Parser → Prop) : Prop :=
  match m s with
  | some (.ok a, s') => Q a s'
  | some (.error e, s') => E e s'
  | none => False

variable {α β : Type} {m : Descent α} {f : α → Descent β} {s : Parser}
  {Q Q' : α → Parser → Prop} {E E' : ParseError → Parser → Prop}

theorem bind_apply (m : Descent α) (f : α → Descent β) (s : Parser) :
    (m >>= f) s = match m s with
      | some (.ok a, s') => f a s'
      | some (.error e, s') => some (.error e, s')
      | none => none := by
  show Option.bind (m s) _ = _
  rcases m s with _ | ⟨_ | _, _⟩ <;> rfl

theorem ends_bind {Q : β → Parser → Prop} :
    Ends (m >>= f) s Q E ↔ Ends m s (fun a s' => Ends (f a) s' Q E) E := by
  rw [Ends, Ends, bind_apply]
  rcases m s with _ | ⟨_ | _, _⟩ <;> rfl

theorem Ends.mono (h : Ends m s Q E) (hQ : ∀ a s', Q a s' → Q' a s')
    (hE : ∀ e s', E e s' → E' e s') : Ends m s Q' E' := by
  unfold Ends at h ⊢
  split at h
  · exact hQ _ _ h
  · exact hE _ _ h
  · exact h

/-- A function that ends has not gone too deep. -/
theorem Ends.exists_eq_some (h : Ends m s Q E) : ∃ r s', m s = some (r, s') := by
  unfold Ends at h
  split at h
  · exact ⟨_, _, ‹_›⟩
  · exact ⟨_, _, ‹_›⟩
  · exact h.elim

end Descent

open Descent

theorem Parser.ends_atTarget {s : Parser} {Q : Option Target → Parser → Prop}
    {E : ParseError → Parser → Prop} : Ends atTarget s Q E ↔
      Q (if s.lexed.tok.kind = .leftBracket then Reading.target? s.tok else none) s.peeked :=
  Iff.rfl

/-! ### How much is left -/

/-- The end of the text is not counted among the tokens that are left. -/
def Token.unread (t : Token) : Nat := if t.kind = .endOfInput then 0 else 1

/-- How many tokens are left behind the ones that were read. -/
def Lexer.unread (l : Lexer) : Nat :=
  l.ahead.elim 0 Token.unread + l.cursor.tokens.pending.length

/-- How many tokens are left, the current one among them. -/
def Parser.unread (s : Parser) : Nat := s.tok.unread + s.lexer.unread

theorem Token.unread_of_ne {t : Token} (h : t.kind ≠ .endOfInput) : t.unread = 1 := if_neg h

/-- A reader gives what it has left. -/
theorem Lexer.unread_next (l : Lexer) : l.next.1.unread + l.next.2.unread = l.unread := by
  rcases l with ⟨c, _ | t⟩
  · have ahead : (⟨c, none⟩ : Lexer).unread = c.tokens.pending.length := Nat.zero_add _
    have behind : (⟨c, none⟩ : Lexer).next.2.unread = c.next.2.tokens.pending.length :=
      Nat.zero_add _
    rw [ahead, behind]
    show c.next.1.unread + _ = _
    by_cases h : c.next.1.kind = .endOfInput
    · have none_left : c.tokens.pending = [] := by rw [Cursor.tokens, dif_pos h]
      rw [Cursor.tokens_congr (Cursor.next_of_endOfInput h), none_left, Token.unread, if_pos h]
      rfl
    · have split : c.next = (c.next.1, c.next.2) := rfl
      have tokens := Cursor.tokens_cons split h
      rw [tokens, Token.unread_of_ne h, List.length_cons, Nat.add_comm]
  · exact congrArg (t.unread + ·) (Nat.zero_add _)

/-- Looking at a token takes none. -/
theorem Lexer.unread_peek (l : Lexer) : l.peek.2.unread = l.unread := by
  have behind : l.next.2.unread = l.next.2.cursor.tokens.pending.length := by
    rcases l with ⟨c, _ | t⟩
    · exact Nat.zero_add _
    · exact Nat.zero_add _
  rw [← l.unread_next, behind]
  rfl

namespace Parser

/-- Going on takes the current token. -/
theorem unread_lexed (s : Parser) : s.tok.unread + s.lexed.unread = s.unread :=
  congrArg (s.tok.unread + ·) s.lexer.unread_next

theorem unread_peeked (s : Parser) : s.peeked.unread = s.unread :=
  congrArg (s.tok.unread + ·) s.lexer.unread_peek

end Parser

/-! ### Functions that take tokens -/

namespace Descent

variable {α β : Type} {n k : Nat} {m : Descent α} {f : α → Descent β} {s : Parser}

/-- A function ends, has taken at least `n` tokens if it returns, and gives none back. -/
def Takes (n : Nat) (m : Descent α) (s : Parser) : Prop :=
  Ends m s (fun _ s' => s'.unread + n ≤ s.unread) fun _ s' => s'.unread ≤ s.unread

theorem takes_pure (a : α) : Takes 0 (pure a) s := Nat.le_refl _

theorem takes_throw (e : ParseError) : Takes n (throw e : Descent α) s := Nat.le_refl _

theorem Takes.mono (h : Takes n m s) (hk : k ≤ n) : Takes k m s :=
  Ends.mono h (fun _ _ h => by omega) fun _ _ => id

/-- What a function takes adds up with what comes next. -/
theorem Takes.bind (h : Takes n m s)
    (h' : ∀ a s', s'.unread + n ≤ s.unread → Takes k (f a) s') : Takes (n + k) (m >>= f) s :=
  ends_bind.2 <| Ends.mono h
    (fun a s' hs' => Ends.mono (h' a s' hs') (fun _ _ _ => by omega) fun _ _ _ => by omega)
    fun _ _ => id

/-- What a function takes is taken whatever comes next. -/
theorem Takes.bind_left (h : Takes n m s)
    (h' : ∀ a s', s'.unread + n ≤ s.unread → Takes 0 (f a) s') : Takes n (m >>= f) s :=
  h.bind h'

theorem Takes.bind_right (h : Takes n m s)
    (h' : ∀ a s', s'.unread + n ≤ s.unread → Takes k (f a) s') : Takes k (m >>= f) s :=
  (h.bind h').mono (Nat.le_add_left k n)

end Descent

namespace Parser

variable {α β : Type} {n : Nat} {s : Parser} {test : Token → Bool} {expected : Expected}

theorem takes_unexpected (expected : Expected) : Takes n (unexpected expected : Descent α) s :=
  Nat.le_refl _

theorem takes_current_bind {f : Token → Descent β} (h : Takes n (f s.tok) s) :
    Takes n (current >>= f) s := h

theorem takes_lex (s : Parser) : Takes s.tok.unread lex s := by
  have := s.unread_lexed
  show s.lexed.unread + s.tok.unread ≤ s.unread
  omega

theorem takes_lex_of_kind {kind : TokenKind} (h : s.tok.kind = kind) (hk : kind ≠ .endOfInput) :
    Takes 1 lex s := by
  rw [← Token.unread_of_ne (h ▸ hk)]
  exact takes_lex s

theorem takes_accept (ht : ∀ t, test t → t.kind ≠ .endOfInput) (s : Parser) :
    Takes 1 (accept test expected) s := by
  refine takes_current_bind ?_
  split
  · next h =>
    rw [← Token.unread_of_ne (ht _ h)]
    exact (takes_lex s).bind_left fun _ _ _ => takes_pure _
  · exact takes_unexpected expected

theorem takes_optional (test : Token → Bool) (s : Parser) : Takes 0 (optional test) s := by
  refine takes_current_bind ?_
  split
  · exact (takes_lex s).bind_right fun _ _ _ => takes_pure _
  · exact takes_pure _

theorem takes_expect {kind : TokenKind} (hk : kind ≠ .endOfInput) (s : Parser) :
    Takes 1 (expect kind) s := by
  have test : ∀ t : Token, decide (t.kind = kind) = true → t.kind ≠ .endOfInput :=
    fun t ht => of_decide_eq_true ht ▸ hk
  exact (takes_accept test s).bind_left fun _ _ _ => takes_pure _

theorem takes_atSubgraph (s : Parser) : Takes 0 atSubgraph s := by
  refine takes_current_bind ?_
  split
  · exact takes_pure _
  split
  · exact Nat.le_of_eq s.unread_peeked
  · exact takes_pure _

theorem takes_atTarget_bind {f : Option Target → Descent β}
    (h : Takes n (f (if s.lexed.tok.kind = .leftBracket then Reading.target? s.tok else none))
      s.peeked) : Takes n (atTarget >>= f) s := by
  unfold Takes at h ⊢
  rw [s.unread_peeked] at h
  exact ends_bind.2 (ends_atTarget.2 h)

/-! ### Names and assignments -/

theorem ne_endOfInput_of_isKeyword {t : Token} {word : String} (h : t.isKeyword word) :
    t.kind ≠ .endOfInput := by
  intro hk
  simp [Token.isKeyword, hk] at h

theorem ne_endOfInput_of_target {t : Token} {target : Target}
    (h : Reading.target? t = some target) : t.kind ≠ .endOfInput := by
  unfold Reading.target? at h
  split at h
  · exact ne_endOfInput_of_isKeyword ‹_›
  split at h
  · exact ne_endOfInput_of_isKeyword ‹_›
  split at h
  · exact ne_endOfInput_of_isKeyword ‹_›
  · cases h

theorem ne_endOfInput_of_isId (t : Token) (h : t.isId) : t.kind ≠ .endOfInput := by
  intro hk
  simp [Token.isId, hk] at h

theorem takes_port (s : Parser) : Takes 1 port s := by
  refine (takes_accept ne_endOfInput_of_isId s).bind_left fun name s _ => ?_
  refine (takes_optional _ s).bind_right fun colon s _ => ?_
  cases colon with
  | none => exact takes_pure _
  | some _ => exact (takes_accept ne_endOfInput_of_isId s).bind_right fun _ _ _ => takes_pure _

theorem takes_nodeRef (s : Parser) : Takes 1 nodeRef s := by
  refine (takes_accept ne_endOfInput_of_isId s).bind_left fun id s _ => ?_
  refine (takes_optional _ s).bind_right fun colon s _ => ?_
  cases colon with
  | none => exact takes_pure _
  | some _ => exact (takes_port s).bind_right fun _ _ _ => takes_pure _

theorem ne_endOfInput_of_isKey (t : Token) (h : (t.kind = .identifier || t.kind = .string) = true) :
    t.kind ≠ .endOfInput := by
  intro hk
  simp [hk] at h

/-- An assignment in brackets takes its key at least. -/
theorem takes_entry (s : Parser) : Takes 1 entry s := by
  refine (takes_accept ne_endOfInput_of_isKey s).bind_left fun key s _ => ?_
  refine (takes_expect (by decide) s).bind_right fun _ s _ => ?_
  refine (takes_accept ne_endOfInput_of_isId s).bind_right fun value s _ => ?_
  exact (takes_optional _ s).bind_right fun _ _ _ => takes_pure _

theorem takes_entries (before : List Entry) (hn : s.unread < n) :
    Takes 0 (entries n before) s := by
  induction n generalizing before s with
  | zero => exact absurd hn (Nat.not_lt_zero _)
  | succ n ih =>
    rw [entries]
    refine takes_current_bind ?_
    split
    · exact takes_pure _
    · exact (takes_entry s).bind_right fun e s' hs' => ih (e :: before) (by omega)

/-- A pair of brackets takes the opening one at least. -/
theorem takes_brackets (before : List Entry) (h : s.tok.kind = .leftBracket)
    (hn : s.unread ≤ n) : Takes 1 (brackets n before) s := by
  refine (takes_lex_of_kind h (by decide)).bind_left fun _ s' hs' => ?_
  refine (takes_entries before (by omega)).bind_right fun es s _ => ?_
  exact (takes_lex s).bind_right fun _ _ _ => takes_pure _

theorem takes_lists (before : List Entry) (hn : s.unread < n) : Takes 0 (lists n before) s := by
  induction n generalizing before s with
  | zero => exact absurd hn (Nat.not_lt_zero _)
  | succ n ih =>
    rw [lists]
    refine takes_current_bind ?_
    split
    · next h =>
      exact (takes_brackets before h (Nat.le_of_lt_succ hn)).bind_right fun es s' hs' =>
        ih es (by omega)
    · exact takes_pure _

/-! ### Statements -/

theorem takes_finish (stmt : Stmt) (s : Parser) : Takes 0 (finish stmt) s := Nat.le_refl _

theorem takes_finishList (nested : Bool) (subject : Subject) (es : List Entry) (s : Parser) :
    Takes 0 (finishList nested subject es) s := by
  unfold finishList
  split
  · exact takes_throw _
  · exact takes_finish _ _

theorem takes_assignment (nested : Bool) (key : String) (s : Parser) :
    Takes 0 (assignment nested key) s := by
  refine (takes_expect (by decide) s).bind_right fun _ s _ => ?_
  refine (takes_accept ne_endOfInput_of_isId s).bind_right fun value s _ => ?_
  exact takes_finishList ..

/-- What comes before the statements of a subgraph takes their opening brace at least. -/
theorem takes_opening (s : Parser) : Takes 1 opening s := by
  have brace : ∀ (name : String) (s : Parser),
      Takes 1 (do expect .leftBrace; return name : Descent String) s :=
    fun name s => (takes_expect (by decide) s).bind_left fun _ _ _ => takes_pure name
  refine (takes_optional _ s).bind_right fun keyword s _ => ?_
  cases keyword with
  | none => exact brace "" s
  | some _ =>
    exact (takes_optional _ s).bind_right fun name s _ => brace (name.elim "" Token.value) s

theorem takes_semicolons (hn : s.unread < n) : Takes 0 (semicolons n) s := by
  induction n generalizing s with
  | zero => exact absurd hn (Nat.not_lt_zero _)
  | succ n ih =>
    rw [semicolons]
    refine takes_current_bind ?_
    split
    · next h => exact (takes_lex_of_kind h (by decide)).bind_right fun _ s' hs' => ih (by omega)
    · exact takes_pure _

/-! The functions below call each other. What comes between the start of one and that of the next
gives no token back, and between two lists of statements it takes a brace. So how deep they go is
measured by the tokens that are left, and for the same tokens by the order of the calls. -/

mutual

/-- Statements up to a closing brace come to an end. -/
theorem takes_statements : ∀ (n : Nat) (nested : Bool) (before : List Stmt) (s : Parser),
    5 * s.unread + 4 < n → Takes 0 (statements n nested before) s
  | 0, _, _, _, hn => absurd hn (Nat.not_lt_zero _)
  | n + 1, nested, before, s, hn => by
    rw [statements]
    refine (takes_semicolons (by omega)).bind_right fun _ s₁ hs₁ => takes_current_bind ?_
    split
    · exact (takes_lex s₁).bind_right fun _ _ _ => takes_pure _
    · exact (takes_statement n nested s₁ (by omega)).bind_right fun stmt s₂ hs₂ =>
        takes_statements n nested (stmt :: before) s₂ (by omega)

/-- A statement takes a token. -/
theorem takes_statement : ∀ (n : Nat) (nested : Bool) (s : Parser), 5 * s.unread + 3 < n →
    Takes 1 (statement n nested) s
  | 0, _, _, hn => absurd hn (Nat.not_lt_zero _)
  | n + 1, nested, s, hn => by
    rw [statement]
    refine takes_atTarget_bind ?_
    have peeked := s.unread_peeked
    split
    · next target h =>
      have keyword : s.peeked.tok.kind ≠ .endOfInput := by
        split at h
        · exact ne_endOfInput_of_target h
        · cases h
      refine (takes_lex_of_kind rfl keyword).bind_left fun _ s₁ hs₁ => ?_
      exact (takes_lists [] (by omega)).bind_right fun es s₂ _ => takes_finishList ..
    refine (takes_atSubgraph s.peeked).bind_right fun braces s₁ hs₁ => ?_
    split
    · refine (takes_subgraph n s₁ (by omega)).bind_left fun (name, body) s₂ hs₂ =>
        takes_current_bind ?_
      split
      · exact takes_edges n nested [.subgraph name body] s₂ (by omega)
      · exact takes_finish _ _
    refine takes_current_bind ?_
    split
    · exact (takes_nodeRef s₁).bind_left fun ref s₂ hs₂ =>
        takes_named n nested s₁.tok ref s₂ (by omega)
    · exact takes_unexpected _

theorem takes_named : ∀ (n : Nat) (nested : Bool) (word : Token) (ref : NodeRef) (s : Parser),
    5 * s.unread + 2 < n → Takes 0 (named n nested word ref) s
  | 0, _, _, _, _, hn => absurd hn (Nat.not_lt_zero _)
  | n + 1, nested, word, ref, s, hn => by
    rw [named]
    refine takes_current_bind ?_
    split
    · split
      · exact takes_throw _
      · exact takes_assignment ..
    split
    · exact takes_edges n nested [.node ref] s (by omega)
    · exact (takes_lists [] (by omega)).bind_right fun es s _ => takes_finishList ..

theorem takes_edges : ∀ (n : Nat) (nested : Bool) (chain : List Endpoint) (s : Parser),
    5 * s.unread + 1 < n → Takes 0 (edges n nested chain) s
  | 0, _, _, _, hn => absurd hn (Nat.not_lt_zero _)
  | n + 1, nested, chain, s, hn => by
    rw [edges]
    refine takes_current_bind ?_
    split
    · next h =>
      exact (takes_link n s h (by omega)).bind_right fun e s' hs' =>
        takes_edges n nested (e :: chain) s' (by omega)
    · exact (takes_lists [] (by omega)).bind_right fun es s _ => takes_finishList ..

/-- An edge operator and the side behind it take the operator at least. -/
theorem takes_link : ∀ (n : Nat) (s : Parser), s.tok.kind = .edgeOp → 5 * s.unread < n →
    Takes 1 (link n) s
  | 0, _, _, hn => absurd hn (Nat.not_lt_zero _)
  | n + 1, s, h, hn => by
    rw [link]
    refine (takes_lex_of_kind h (by decide)).bind_left fun _ s' hs' => ?_
    exact (takes_endpoint n s' (by omega)).mono (Nat.zero_le 1)

theorem takes_endpoint : ∀ (n : Nat) (s : Parser), 5 * s.unread + 1 < n → Takes 1 (endpoint n) s
  | 0, _, hn => absurd hn (Nat.not_lt_zero _)
  | n + 1, s, hn => by
    rw [endpoint]
    refine (takes_atSubgraph s).bind_right fun braces s₁ hs₁ => ?_
    split
    · exact (takes_subgraph n s₁ (by omega)).bind_left fun _ _ _ => takes_pure _
    refine takes_current_bind ?_
    split
    · exact (takes_nodeRef s₁).bind_left fun _ _ _ => takes_pure _
    · exact takes_unexpected _

/-- A subgraph takes what comes before its statements. -/
theorem takes_subgraph : ∀ (n : Nat) (s : Parser), 5 * s.unread < n → Takes 1 (subgraph n) s
  | 0, _, hn => absurd hn (Nat.not_lt_zero _)
  | n + 1, s, hn => by
    rw [subgraph]
    refine (takes_opening s).bind_left fun name s' hs' => ?_
    exact (takes_statements n true [] s' (by omega)).bind_right fun body _ _ => takes_pure _

end

/-! ### Documents -/

theorem ne_endOfInput_of_graph (t : Token)
    (h : (t.isKeyword "digraph" || t.isKeyword "graph") = true) : t.kind ≠ .endOfInput :=
  (Bool.or_eq_true_iff.1 h).elim ne_endOfInput_of_isKeyword ne_endOfInput_of_isKeyword

theorem takes_header (s : Parser) : Takes 2 header s := by
  refine (takes_optional _ s).bind_right fun strict s _ => ?_
  refine (takes_accept ne_endOfInput_of_graph s).bind (k := 1) fun word s _ => ?_
  refine (takes_optional _ s).bind_right fun name s _ => ?_
  exact (takes_expect (by decide) s).bind_left fun _ _ _ => takes_pure _

/-- A parser for documents comes to an end, whatever is left of the text. -/
theorem takes_document (hn : 5 * s.unread ≤ n) : Takes 2 (document n) s := by
  have start : Takes 0 (modify fun s => { s with remarks := [] } : Descent Unit) s := Nat.le_refl _
  refine start.bind_right fun _ s₀ hs₀ => ?_
  refine (takes_header s₀).bind_left fun header s₁ hs₁ => ?_
  refine (takes_statements n false [] s₁ (by omega)).bind_right fun body s₂ _ =>
    takes_current_bind ?_
  split
  · exact takes_pure _
  · exact takes_unexpected _

/-! ### At the end of the text -/

theorem accept_of_eq_false (h : test s.tok = false) :
    accept test expected s = some (.error (.atToken expected s.tok), s) := by
  show (if test s.tok = true then _ else unexpected expected : Descent Token) s = _
  rw [if_neg (h ▸ Bool.false_ne_true)]
  rfl

/-- An open bracket at the end of the text is an error. -/
theorem entries_of_endOfInput (n : Nat) (before : List Entry) (h : s.tok.kind = .endOfInput) :
    entries (n + 1) before s = some (.error (.atToken .attributeName s.tok), s) := by
  have stuck : entry s = some (.error (.atToken .attributeName s.tok), s) := by
    rw [entry, bind_apply, accept_of_eq_false (by simp [h])]
  rw [entries]
  show (if s.tok.kind = .rightBracket then _ else _ : Descent (List Entry)) s = _
  rw [if_neg (by simp [h]), bind_apply, stuck]

/-- Statements that are not closed at the end of the text are an error. -/
theorem statements_of_endOfInput (n : Nat) (nested : Bool) (before : List Stmt)
    (h : s.tok.kind = .endOfInput) :
    statements (n + 2) nested before s = some (.error (.atToken .statement s.tok), s.peeked) := by
  have target : Reading.target? s.tok = none := by
    simp [Reading.target?, Token.isKeyword, h]
  have skipped : semicolons (n + 1) s = some (.ok (), s) := by
    rw [semicolons]
    show (if s.tok.kind = .semicolon then _ else _ : Descent Unit) s = _
    rw [if_neg (by simp [h])]
    rfl
  have noTarget : atTarget s = some (.ok none, s.peeked) := by
    have answer : (if s.lexed.tok.kind = .leftBracket then Reading.target? s.tok else none) =
        none := by rw [target, ite_self]
    exact congrArg (fun answer => some (Except.ok answer, s.peeked)) answer
  have noSubgraph : atSubgraph s.peeked = some (.ok false, s.peeked) := by
    show (if s.tok.kind = .leftBrace then _ else if s.tok.isKeyword "subgraph" = true then _
      else _ : Descent Bool) s.peeked = _
    rw [if_neg (by simp [h]), if_neg (by simp [Token.isKeyword, h])]
    rfl
  have stuck : statement (n + 1) nested s =
      some (.error (.atToken .statement s.tok), s.peeked) := by
    rw [statement, bind_apply, noTarget]
    show (atSubgraph >>= _ : Descent Stmt) s.peeked = _
    rw [bind_apply, noSubgraph]
    show (if s.tok.isId = true then _ else _ : Descent Stmt) s.peeked = _
    rw [if_neg (by simp [Token.isId, h])]
    rfl
  rw [statements, bind_apply, skipped]
  show (if s.tok.kind = .rightBrace then _ else _ : Descent (List Stmt)) s = _
  rw [if_neg (by simp [h]), bind_apply, stuck]

end Parser

end DotLang
