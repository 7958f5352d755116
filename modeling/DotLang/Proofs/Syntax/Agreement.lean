import DotLang.Graph.OfText
import DotLang.Proofs.Source.Lookahead
import DotLang.Proofs.Syntax.Descent
import DotLang.Proofs.Syntax.Viability

/-!
# The descent and the reading agree

A document is read one token at a time, with all that is open kept in one place. The parser that
goes down into the phrases keeps it in its calls instead. Where a call starts, what has been read
decides what the current token means, and where it returns, the same is so of what the phrase
adds: the outcome stays the same all along. So both give the same document or the same error,
with the same remarks and the same tokens left.

* `Parser.Holds`: the tokens that a parser has left;
* `Parser.Decides`: what the reading makes of the current token, and what comes of it in the end;
* `Descent.Follows`: a function that leaves the outcome as it is;
* `Parser.document_eq`: what comes of a document;
* `Parser.parsing_ends`: parsing comes to an end on every text.
-/

namespace DotLang

open Descent

/-! ### The tokens that are left -/

/-- The tokens that a parser has left, the current one first. -/
structure Parser.Holds (s : Parser) (ts : Tokens) : Prop where
  tok : s.tok = ts.head
  lexer : s.lexer.Holds ts.tail
  ne_endOfInput : ∀ t ∈ ts.pending, t.kind ≠ .endOfInput

namespace Parser

variable {s : Parser} {ts : Tokens}

theorem Holds.lexed (h : s.Holds ts) : s.lexed.Holds ts.tail :=
  ⟨h.lexer.next.1, h.lexer.next.2, fun t ht => h.ne_endOfInput t (List.mem_of_mem_tail ht)⟩

theorem Holds.peeked (h : s.Holds ts) : s.peeked.Holds ts :=
  ⟨h.tok, h.lexer.peek, h.ne_endOfInput⟩

theorem holds_ofText (text : String) : (ofText text).Holds (Tokens.ofText text) :=
  have start : (Lexer.ofText text.toList).Holds (Tokens.ofText text) := rfl
  ⟨start.next.1, start.next.2, Cursor.kind_ne_endOfInput _⟩

end Parser

/-! ### The outcome -/

/-- What comes of reading tokens, going on from what has been read. -/
def Progress.runOn (p : Progress) (ts : Tokens) : Parsed := p.run ts.stop ts.pending

/-- The first token decides, the end of the text too. -/
theorem Progress.runOn_eq {p : Progress} {ts : Tokens}
    (hp : ∀ document remarks, p ≠ .closed document remarks) :
    p.runOn ts = match p.step ts.head with
      | .ok q => q.runOn ts.tail
      | .error e => e.parsed ts := by
  rcases ts with ⟨_ | ⟨t, ts⟩, stop⟩
  · show p.finish stop = match p.step (.endAt stop) with
      | .ok q => q.runOn ⟨[], stop⟩
      | .error e => e.parsed ⟨[], stop⟩
    unfold Progress.finish
    split
    · exact absurd rfl (hp _ _)
    split
    · next e h => rw [h]
    · next q h => exact absurd h (p.step_endAt_ne_ok q stop)
  · exact Progress.run.eq_2 ..

namespace Parser

variable {s : Parser} {P : Parsed} {r : Reading} {p : Progress} {d : Except Stuck Progress}

/-- The reading decides in some way about the current token, and `P` comes of it. -/
def Decides (s : Parser) (d : Except Stuck Progress) (P : Parsed) : Prop :=
  ∃ ts, s.Holds ts ∧ P = match d with
    | .ok p => p.runOn ts.tail
    | .error e => e.parsed ts

/-- From the current token on, `P` comes of the reading. -/
def Runs (s : Parser) (p : Progress) (P : Parsed) : Prop := ∃ ts, s.Holds ts ∧ P = p.runOn ts

/-- `P` is the document or the error that the parser has stopped with. -/
def Stopped (s : Parser) (result : Except ParseError Document) (P : Parsed) : Prop :=
  ∃ ts, s.Holds ts ∧ P = ⟨result, s.remarks.reverse, ts⟩

/-- A reading with some part of a statement and the remarks that the parser has made. -/
def reading (s : Parser) (r : Reading) (part : Part := .nothing) : Reading :=
  { r with part := part, remarks := s.remarks }

theorem Decides.congr {d' : Except Stuck Progress} (h : s.Decides d P) (hd : d = d') :
    s.Decides d' P :=
  hd ▸ h

theorem Decides.lexed (h : s.Decides (.ok p) P) : s.lexed.Runs p P := by
  obtain ⟨ts, holds, rfl⟩ := h
  exact ⟨ts.tail, holds.lexed, rfl⟩

theorem Decides.peeked (h : s.Decides d P) : s.peeked.Decides d P := by
  obtain ⟨ts, holds, rfl⟩ := h
  exact ⟨ts, holds.peeked, rfl⟩

theorem Runs.decides (h : s.Runs p P) (hp : ∀ document remarks, p ≠ .closed document remarks) :
    s.Decides (p.step s.tok) P := by
  obtain ⟨ts, holds, rfl⟩ := h
  exact ⟨ts, holds, holds.tok ▸ Progress.runOn_eq hp⟩

/-- Where the reading goes on with another part of a statement, the parser takes the token. -/
theorem Decides.go {part : Part} (h : s.Decides ((s.reading r).go part) P) :
    s.lexed.Decides ((s.lexed.reading r part).step s.lexed.tok) P :=
  (Decides.lexed h).decides nofun

end Parser

/-- Where a function returns, it is as `Q` says, and where it stops, with the outcome `P`. -/
def Descent.Follows {α : Type} (m : Descent α) (s : Parser) (P : Parsed) (Q : α → Parser → Prop) :
    Prop :=
  match m s with
  | some (.ok a, s') => Q a s'
  | some (.error e, s') => s'.Stopped (.error e) P
  | none => True

namespace Descent

variable {α β : Type} {m : Descent α} {f : α → Descent β} {s : Parser} {P : Parsed}
  {Q Q' : α → Parser → Prop}

theorem follows_tooDeep : Follows (Parser.tooDeep : Descent α) s P Q := trivial

theorem follows_pure {a : α} (h : Q a s) : Follows (pure a) s P Q := h

theorem follows_throw {e : ParseError} (h : s.Stopped (.error e) P) :
    Follows (throw e : Descent α) s P Q := h

theorem Follows.mono (h : Follows m s P Q) (hQ : ∀ a s', Q a s' → Q' a s') :
    Follows m s P Q' := by
  unfold Follows at h ⊢
  split at h
  · exact hQ _ _ h
  · exact h
  · exact h

/-- What comes next starts where the function has returned. -/
theorem Follows.bind {Q' : β → Parser → Prop} (h : Follows m s P Q)
    (h' : ∀ a s', Q a s' → Follows (f a) s' P Q') : Follows (m >>= f) s P Q' := by
  unfold Follows at h
  rw [Follows, bind_apply]
  generalize m s = r at h ⊢
  rcases r with _ | ⟨_ | _, _⟩
  · trivial
  · exact h
  · exact h' _ _ h

end Descent

namespace Parser

variable {α β : Type} {s : Parser} {P : Parsed} {r : Reading} {chain : List Endpoint}
  {subject : Subject} {es : List Entry} {word : Token}

theorem follows_current_bind {f : Token → Descent β} {Q : β → Parser → Prop}
    (h : Follows (f s.tok) s P Q) : Follows (current >>= f) s P Q := h

/-- Where what has been read takes a token of a class only, so does the parser. -/
theorem accept_runs {test : Token → Bool} {expected : Expected} {p : Progress}
    {d : Except Stuck Progress} (h : s.Decides d P) (ht : test s.tok = true → d = .ok p)
    (hf : ¬test s.tok = true → d = .error ⟨.atToken expected s.tok, s.remarks⟩) :
    Follows (accept test expected) s P fun t s' =>
      t = s.tok ∧ test s.tok = true ∧ s' = s.lexed ∧ s'.Runs p P := by
  refine follows_current_bind ?_
  split
  · next hs => exact ⟨rfl, hs, rfl, (h.congr (ht hs)).lexed⟩
  · next hs => exact h.congr (hf hs)

/-- Where what has been read takes a token of a class if there is one, so does the parser. -/
theorem optional_runs {test : Token → Bool} {p : Progress} {d : Except Stuck Progress}
    (h : s.Decides d P) (ht : test s.tok = true → d = .ok p) :
    Follows (optional test) s P fun t s' =>
      (t = some s.tok ∧ test s.tok = true ∧ s' = s.lexed ∧ s'.Runs p P) ∨
      (t = none ∧ ¬test s.tok = true ∧ s' = s) := by
  refine follows_current_bind ?_
  split
  · next hs => exact .inl ⟨rfl, hs, rfl, (h.congr (ht hs)).lexed⟩
  · next hs => exact .inr ⟨rfl, hs, rfl⟩

theorem follows_accept {test : Token → Bool} {expected : Expected} {part : Part}
    {d : Except Stuck Progress} (h : s.Decides d P)
    (ht : test s.tok = true → d = (s.reading r).go part)
    (hf : ¬test s.tok = true → d = (s.reading r).fail (.atToken expected s.tok)) :
    Follows (accept test expected) s P fun t s' => t = s.tok ∧ s' = s.lexed ∧
      s'.Decides ((s'.reading r part).step s'.tok) P :=
  (accept_runs h ht hf).mono
    (fun _ _ ⟨tok, _, next, run⟩ => ⟨tok, next, next ▸ (next ▸ run).decides nofun⟩)

theorem follows_optional {test : Token → Bool} {part : Part} {d : Except Stuck Progress}
    (h : s.Decides d P) (ht : test s.tok = true → d = (s.reading r).go part) :
    Follows (optional test) s P fun t s' =>
      (t = some s.tok ∧ test s.tok = true ∧ s' = s.lexed ∧
        s'.Decides ((s'.reading r part).step s'.tok) P) ∨
      (t = none ∧ ¬test s.tok = true ∧ s' = s) :=
  (optional_runs h ht).mono
    (fun _ _ => Or.imp_left fun ⟨tok, hs, next, run⟩ =>
      ⟨tok, hs, next, next ▸ (next ▸ run).decides nofun⟩)

theorem expect_runs {kind : TokenKind} {p : Progress} {d : Except Stuck Progress}
    (h : s.Decides d P) (ht : s.tok.kind = kind → d = .ok p)
    (hf : s.tok.kind ≠ kind → d = .error ⟨.atToken (.token kind) s.tok, s.remarks⟩) :
    Follows (expect kind) s P fun _ s' => s' = s.lexed ∧ s'.Runs p P := by
  refine (accept_runs h (fun h => ht (of_decide_eq_true h)) fun h =>
    hf (mt decide_eq_true h)).bind ?_
  rintro _ s₁ ⟨-, -, next, run⟩
  exact follows_pure ⟨next, run⟩

theorem follows_expect {kind : TokenKind} {part : Part} {d : Except Stuck Progress}
    (h : s.Decides d P) (ht : s.tok.kind = kind → d = (s.reading r).go part)
    (hf : s.tok.kind ≠ kind → d = (s.reading r).fail (.atToken (.token kind) s.tok)) :
    Follows (expect kind) s P fun _ s' => s'.Decides ((s'.reading r part).step s'.tok) P :=
  (expect_runs h ht hf).mono (fun _ _ ⟨next, run⟩ => next ▸ (next ▸ run).decides nofun)

/-- A token without a choice is taken. -/
theorem follows_lex {p : Progress} (h : s.Decides (.ok p) P) :
    Follows lex s P fun _ s' => s' = s.lexed ∧ s'.Runs p P :=
  ⟨rfl, h.lexed⟩

/-! ### Names -/

/-- Behind a colon. -/
theorem follows_port (h : s.Decides ((s.reading r (.colon chain word)).step s.tok) P) :
    Follows port s P fun name s' =>
      s'.Decides ((s'.reading r).afterNode chain word (some name) s'.tok) P := by
  refine (follows_accept (r := r) h (fun h => if_pos h) fun h => if_neg h).bind ?_
  rintro name s₁ ⟨rfl, -, h₁⟩
  refine (follows_optional (r := r) h₁ fun h => if_pos (of_decide_eq_true h)).bind ?_
  rintro _ s₂ (⟨rfl, -, -, h₂⟩ | ⟨rfl, hcolon, rfl⟩)
  · refine (follows_accept (r := r) h₂ (fun h => if_pos h) fun h => if_neg h).bind ?_
    rintro point s₃ ⟨rfl, -, h₃⟩
    exact follows_pure h₃
  · exact follows_pure (h₁.congr (if_neg (mt decide_eq_true hcolon)))

/-- A node, where the token behind its name does not make the name a keyword. -/
theorem follows_nodeRef (h : s.Decides ((s.reading r).go (.name chain s.tok)) P)
    (hid : s.tok.isId)
    (hnext : s.lexed.tok.kind ≠ .colon → (s.lexed.reading r).afterName chain s.tok s.lexed.tok =
      (s.lexed.reading r).afterNode chain s.tok none s.lexed.tok) :
    Follows nodeRef s P fun ref s' => ref.id = s.tok.value ∧
      s'.Decides ((s'.reading r).afterNode chain s.tok ref.port s'.tok) P := by
  refine (follows_accept (r := r) h (fun _ => rfl) fun hne => absurd hid hne).bind ?_
  rintro _ _ ⟨rfl, rfl, h₁⟩
  refine (follows_optional (r := r) h₁ fun h => if_pos (of_decide_eq_true h)).bind ?_
  rintro _ s₂ (⟨rfl, -, -, h₂⟩ | ⟨rfl, hcolon, rfl⟩)
  · refine (follows_port h₂).bind ?_
    intro port s₃ h₃
    exact follows_pure ⟨rfl, h₃⟩
  · exact follows_pure ⟨rfl, h₁.congr (hnext (mt decide_eq_true hcolon))⟩

/-! ### Assignments -/

/-- An assignment in brackets, which starts with its key. -/
theorem follows_entry (h : s.Decides ((s.reading r).inList subject es s.tok) P)
    (hclose : s.tok.kind ≠ .rightBracket) :
    Follows entry s P fun e s' =>
      s'.Decides ((s'.reading r).inList subject (e :: es) s'.tok) P := by
  have keyed : (s.reading r).inList subject es s.tok =
      if s.tok.kind = .identifier ∨ s.tok.kind = .string then
        (s.reading r).go (.key subject es s.tok.value)
      else (s.reading r).fail (.atToken .attributeName s.tok) := if_neg hclose
  have isKey : ∀ t : Token, (t.kind = .identifier || t.kind = .string) = true ↔
      t.kind = .identifier ∨ t.kind = .string := by simp
  rw [keyed] at h
  refine (follows_accept (r := r) h (fun h => if_pos ((isKey _).1 h)) fun h =>
    if_neg (mt (isKey _).2 h)).bind ?_
  rintro key s₁ ⟨rfl, -, h₁⟩
  refine (follows_expect h₁ (fun h => if_pos h) fun h => if_neg h).bind ?_
  intro _ s₂ h₂
  refine (follows_accept (r := r) h₂ (fun h => if_pos h) fun h => if_neg h).bind ?_
  rintro value s₃ ⟨rfl, -, h₃⟩
  have isSeparator : ∀ t : Token, (t.kind = .comma || t.kind = .semicolon) = true ↔
      t.kind = .comma ∨ t.kind = .semicolon := by simp
  refine (follows_optional (r := r) h₃ fun h => if_pos ((isSeparator _).1 h)).bind ?_
  rintro _ s₄ (⟨rfl, -, -, h₄⟩ | ⟨rfl, hseparator, rfl⟩)
  · exact follows_pure h₄
  · exact follows_pure (h₃.congr (if_neg (mt (isSeparator _).2 hseparator)))

/-- The assignments up to a closing bracket. -/
theorem follows_entries (n : Nat) (h : s.Decides ((s.reading r).inList subject es s.tok) P) :
    Follows (entries n es) s P fun es' s' => s'.tok.kind = .rightBracket ∧
      s'.Decides ((s'.reading r).inList subject es' s'.tok) P := by
  induction n generalizing es s with
  | zero => exact follows_tooDeep
  | succ n ih =>
    rw [entries]
    refine follows_current_bind ?_
    split
    · next hclose => exact follows_pure ⟨hclose, h⟩
    · next hclose => exact (follows_entry h hclose).bind fun e s' h' => ih h'

theorem follows_brackets (n : Nat) (h : s.Decides ((s.reading r).afterSubject subject es s.tok) P)
    (hopen : s.tok.kind = .leftBracket) :
    Follows (brackets n es) s P fun es' s' =>
      s'.Decides ((s'.reading r).afterSubject subject es' s'.tok) P := by
  have opened : s.Decides ((s.reading r).go (.list subject es)) P := h.congr (if_pos hopen)
  refine (follows_lex opened).bind ?_
  rintro _ _ ⟨rfl, -⟩
  refine (follows_entries n opened.go).bind ?_
  rintro es' s₂ ⟨hclose, h₂⟩
  have closed : s₂.Decides ((s₂.reading r).go (.lists subject es')) P := h₂.congr (if_pos hclose)
  refine (follows_lex closed).bind ?_
  rintro _ _ ⟨rfl, -⟩
  exact follows_pure closed.go

/-- The assignments in all pairs of brackets. -/
theorem follows_lists (n : Nat) (h : s.Decides ((s.reading r).afterSubject subject es s.tok) P) :
    Follows (lists n es) s P fun es' s' =>
      s'.Decides ((s'.reading r).afterList subject es' s'.tok) P := by
  induction n generalizing es s with
  | zero => exact follows_tooDeep
  | succ n ih =>
    rw [lists]
    refine follows_current_bind ?_
    split
    · next hopen => exact (follows_brackets n h hopen).bind fun es' s' h' => ih h'
    · next hopen => exact follows_pure (h.congr (if_neg hopen))

/-! ### Statements -/

/-- The reading goes on between statements, with a finished one more. -/
def Finishes (r : Reading) (P : Parsed) (stmt : Stmt) (s : Parser) : Prop :=
  s.Decides ((s.reading { r with stmts := stmt :: r.stmts }).between s.tok) P

variable {nested : Bool}

theorem follows_finish {stmt : Stmt}
    (h : s.Decides (((s.reading r).finish stmt).between s.tok) P) :
    Follows (finish stmt) s P (Finishes r P) := by
  obtain ⟨ts, holds, outcome⟩ := h
  exact ⟨ts, ⟨holds.tok, holds.lexer, holds.ne_endOfInput⟩, outcome⟩

theorem follows_finishList (hnested : nested = !r.braces.isEmpty)
    (h : s.Decides ((s.reading r).afterList subject es s.tok) P) :
    Follows (finishList nested subject es) s P (Finishes r P) := by
  subst hnested
  unfold Reading.afterList Reading.finishList at h
  unfold finishList
  have braces : (s.reading r).braces = r.braces := rfl
  rw [braces] at h
  cases he : Entry.firstError? (subject.owner !r.braces.isEmpty) es.reverse with
  | some e =>
    rw [he] at h
    exact follows_throw h
  | none =>
    rw [he] at h
    exact follows_finish h

theorem follows_assignment {key : String} (hnested : nested = !r.braces.isEmpty)
    (h : s.Decides ((s.reading r).go (.assign key)) P) (hequal : s.tok.kind = .equal) :
    Follows (assignment nested key) s P (Finishes r P) := by
  refine (follows_expect h (fun _ => rfl) fun hne => absurd hequal hne).bind ?_
  intro _ s₁ h₁
  refine (follows_accept (r := r) h₁ (fun h => if_pos h) fun h => if_neg h).bind ?_
  rintro value s₂ ⟨rfl, -, h₂⟩
  exact follows_finishList hnested h₂

/-- A subgraph starts with a brace, or with a keyword in front of a name or a brace. -/
def StartsSubgraph (s : Parser) : Prop :=
  s.tok.kind = .leftBrace ∨
    s.tok.isKeyword "subgraph" = true ∧ (s.lexed.tok.kind = .leftBrace ∨ s.lexed.tok.isName = true)

/-- A look behind the current token does not change what the reading makes of it. -/
theorem follows_atSubgraph {Q : Parser → Prop} (h : Q s) (hpeek : Q s.peeked) :
    Follows atSubgraph s P fun b s' => Q s' ∧ (b = true ↔ s'.StartsSubgraph) := by
  refine follows_current_bind ?_
  split
  · next hbrace => exact follows_pure ⟨h, iff_of_true rfl (.inl hbrace)⟩
  next hbrace =>
  split
  · next hkeyword =>
    have answer : ∀ t : Token, (t.kind = .leftBrace || t.isName) = true ↔
        t.kind = .leftBrace ∨ t.isName = true := by simp
    refine ⟨hpeek, (answer s.lexed.tok).trans ⟨fun h => .inr ⟨hkeyword, h⟩, ?_⟩⟩
    rintro (hs | ⟨-, hs⟩)
    · exact absurd hs hbrace
    · exact hs
  · next hkeyword =>
    refine follows_pure ⟨h, iff_of_false Bool.false_ne_true ?_⟩
    rintro (hs | ⟨hs, -⟩)
    · exact hbrace hs
    · exact hkeyword hs

/-- Behind the opening brace of a subgraph. -/
def opened (r : Reading) (chain : List Endpoint) (name : String) : Reading :=
  { r with braces := ⟨name, chain, r.stmts⟩ :: r.braces, stmts := [] }

theorem first_of_isKeyword {expected : Expected} {w : String} (h : s.tok.isKeyword w = true) :
    (s.reading r).first chain expected s.tok = (s.reading r).go (.name chain s.tok) := by
  simp only [Token.isKeyword, Bool.and_eq_true, decide_eq_true_eq] at h
  rw [Reading.first, if_neg (by simp [h.1]), if_pos (by simp [Token.isId, h.1])]

/-- Behind the keyword, a name belongs to the subgraph. -/
theorem afterName_of_subgraph {t : Token} (hword : word.isKeyword "subgraph" = true)
    (ht : t.isName = true) :
    (s.reading r).afterName chain word t = (s.reading r).go (.subgraphName chain t.value) := by
  have kind : t.kind ≠ .colon ∧ t.kind ≠ .leftBrace := by
    constructor <;> intro hk <;> simp [Token.isName, hk] at ht
  rw [Reading.afterName, if_neg kind.1, if_neg fun h => kind.2 h.2, if_pos ⟨hword, ht⟩]

theorem afterName_of_leftBrace {t : Token} (hword : word.isKeyword "subgraph" = true)
    (ht : t.kind = .leftBrace) :
    (s.reading r).afterName chain word t = (s.reading r).openBrace chain "" := by
  rw [Reading.afterName, if_neg (by simp [ht]), if_pos ⟨hword, ht⟩]

/-- What comes before the statements of a subgraph. -/
theorem follows_opening {expected : Expected}
    (h : s.Decides ((s.reading r).first chain expected s.tok) P) (hs : s.StartsSubgraph) :
    Follows opening s P fun name s' =>
      s'.Decides ((s'.reading (opened r chain name)).between s'.tok) P := by
  refine (follows_optional h first_of_isKeyword).bind ?_
  rintro _ s₁ (⟨rfl, hkeyword, rfl, h₁⟩ | ⟨rfl, hkeyword, rfl⟩)
  · have next := hs.resolve_left fun hbrace => by simp [Token.isKeyword, hbrace] at hkeyword
    refine (follows_optional h₁ (afterName_of_subgraph hkeyword)).bind ?_
    rintro _ s₂ (⟨rfl, -, -, h₂⟩ | ⟨rfl, hname, rfl⟩)
    · refine (follows_expect (r := opened r chain s.lexed.tok.value) h₂
        (fun h => if_pos h) fun h => if_neg h).bind ?_
      intro _ s₃ h₃
      exact follows_pure h₃
    · have brace : s.lexed.tok.kind = .leftBrace := next.2.resolve_right hname
      refine (follows_expect (r := opened r chain "") h₁
        (afterName_of_leftBrace hkeyword) fun hne => absurd brace hne).bind ?_
      intro _ s₃ h₃
      exact follows_pure h₃
  · have brace : s₁.tok.kind = .leftBrace := hs.resolve_right fun h => hkeyword h.1
    refine (follows_expect (r := opened r chain "") h (fun h => if_pos h)
      fun hne => absurd brace hne).bind ?_
    intro _ s₂ h₂
    exact follows_pure h₂

theorem follows_semicolons (n : Nat) (h : s.Decides ((s.reading r).between s.tok) P) :
    Follows (semicolons n) s P fun _ s' => s'.tok.kind ≠ .semicolon ∧
      s'.Decides ((s'.reading r).between s'.tok) P := by
  induction n generalizing s with
  | zero => exact follows_tooDeep
  | succ n ih =>
    rw [semicolons]
    refine follows_current_bind ?_
    split
    · next hs =>
      have again : s.Decides ((s.reading r).go .nothing) P := h.congr (if_pos hs)
      refine (follows_lex again).bind ?_
      rintro _ _ ⟨rfl, -⟩
      exact ih again.go
    · next hs => exact follows_pure ⟨hs, h⟩

/-! ### Words that may be keywords -/

theorem follows_atTarget : Follows atTarget s P fun target s' => s' = s.peeked ∧
    target = if s.lexed.tok.kind = .leftBracket then Reading.target? s.tok else none :=
  ⟨rfl, rfl⟩

theorem isKeyword_of_target {target : Target} (h : Reading.target? word = some target) :
    ∃ w, word.isKeyword w = true := by
  unfold Reading.target? at h
  split at h
  · exact ⟨_, ‹_›⟩
  split at h
  · exact ⟨_, ‹_›⟩
  split at h
  · exact ⟨_, ‹_›⟩
  · cases h

theorem afterName_of_target {target : Target} {t : Token}
    (hword : Reading.target? word = some target) (ht : t.kind = .leftBracket) :
    (s.reading r (.name [] word)).step t =
      (s.reading r).afterSubject (.attributes target) [] t := by
  show (s.reading r).afterName [] word t = _
  rw [Reading.afterName, if_neg (by simp [ht]), if_neg (by simp [ht]),
    if_neg (by simp [ht, Token.isName]), if_pos ⟨ht, rfl⟩, hword, Reading.afterSubject, if_pos ht]

/-- In front of a bracket, a keyword starts an attribute statement. -/
theorem Decides.target {expected : Expected} {target : Target}
    (h : s.Decides ((s.reading r).first [] expected s.tok) P)
    (hword : Reading.target? s.tok = some target) (hbracket : s.lexed.tok.kind = .leftBracket) :
    s.Decides ((s.reading r).go (.name [] s.tok)) P ∧
      s.lexed.Decides ((s.lexed.reading r).afterSubject (.attributes target) [] s.lexed.tok) P := by
  obtain ⟨w, hw⟩ := isKeyword_of_target hword
  have name := h.congr (first_of_isKeyword hw)
  exact ⟨name, name.go.congr (afterName_of_target hword hbracket)⟩

/-- In front of anything else, a word is the name of a node. -/
theorem afterName_eq_afterNode {t : Token} (hcolon : t.kind ≠ .colon)
    (hsubgraph : ¬(word.isKeyword "subgraph" = true ∧ (t.kind = .leftBrace ∨ t.isName = true)))
    (htarget : t.kind = .leftBracket → chain = [] → Reading.target? word = none) :
    (s.reading r).afterName chain word t = (s.reading r).afterNode chain word none t := by
  rw [Reading.afterName, if_neg hcolon, if_neg fun h => hsubgraph ⟨h.1, .inl h.2⟩,
    if_neg fun h => hsubgraph ⟨h.1, .inr h.2⟩]
  split
  · next h => rw [htarget h.1 (List.isEmpty_iff.1 h.2)]
  · rfl

theorem first_of_isId {expected : Expected} (hid : s.tok.isId = true)
    (hbrace : s.tok.kind ≠ .leftBrace) :
    (s.reading r).first chain expected s.tok = (s.reading r).go (.name chain s.tok) := by
  rw [Reading.first, if_neg hbrace, if_pos hid]

theorem first_of_not_isId {expected : Expected} (hid : ¬s.tok.isId = true)
    (hbrace : s.tok.kind ≠ .leftBrace) : (s.reading r).first chain expected s.tok =
      (s.reading r).fail (.atToken expected s.tok) := by
  rw [Reading.first, if_neg hbrace, if_neg hid]

/-! ### All statements -/

mutual

/-- Statements up to a closing brace, which the reading closes too. -/
theorem follows_statements : ∀ (n : Nat) {r : Reading} {nested : Bool} {before : List Stmt}
    {s : Parser}, nested = !r.braces.isEmpty →
    s.Decides ((s.reading { r with stmts := before }).between s.tok) P →
    Follows (statements n nested before) s P fun body s' =>
      s'.Runs (s'.reading { r with stmts := body }).closeBrace P
  | 0, _, _, _, _, _, _ => follows_tooDeep
  | n + 1, r, nested, before, s, hnested, h => by
    rw [statements]
    refine (follows_semicolons n h).bind ?_
    rintro _ s₁ ⟨hsemicolon, h₁⟩
    refine follows_current_bind ?_
    split
    · next hclose =>
      have closed : s₁.Decides (.ok (s₁.reading { r with stmts := before }).closeBrace) P :=
        h₁.congr (by rw [Reading.between, if_neg hsemicolon, if_pos hclose])
      refine (follows_lex closed).bind ?_
      rintro _ _ ⟨rfl, run⟩
      exact follows_pure run
    · next hclose =>
      have first : s₁.Decides
          ((s₁.reading { r with stmts := before }).first [] .statement s₁.tok) P :=
        h₁.congr (by rw [Reading.between, if_neg hsemicolon, if_neg hclose])
      exact (follows_statement n (r := { r with stmts := before }) hnested first).bind
        fun stmt s₂ h₂ => follows_statements n hnested h₂

theorem follows_statement : ∀ (n : Nat) {r : Reading} {nested : Bool} {s : Parser},
    nested = !r.braces.isEmpty → s.Decides ((s.reading r).first [] .statement s.tok) P →
    Follows (statement n nested) s P (Finishes r P)
  | 0, _, _, _, _, _ => follows_tooDeep
  | n + 1, r, nested, s, hnested, h => by
    rw [statement]
    refine follows_atTarget.bind ?_
    rintro target _ ⟨rfl, htarget⟩
    split
    · next target =>
      obtain ⟨hbracket, hword⟩ := Option.ite_none_right_eq_some.1 htarget.symm
      obtain ⟨name, list⟩ := h.peeked.target hword hbracket
      refine (follows_lex name).bind ?_
      rintro _ _ ⟨rfl, -⟩
      exact (follows_lists n list).bind fun es s₂ h₂ => follows_finishList hnested h₂
    have hno : s.lexed.tok.kind = .leftBracket → Reading.target? s.tok = none :=
      fun hbracket => (htarget.trans (if_pos hbracket)).symm
    refine (follows_atSubgraph
      (Q := fun s' => s'.Decides ((s'.reading r).first [] .statement s'.tok) P ∧
        (s'.lexed.tok.kind = .leftBracket → Reading.target? s'.tok = none))
      ⟨h.peeked, hno⟩ ⟨h.peeked.peeked, hno⟩).bind ?_
    rintro braces s₁ ⟨⟨h₁, hno₁⟩, hbraces⟩
    split
    · next hb =>
      refine (follows_subgraph n h₁ (hbraces.1 hb)).bind ?_
      rintro ⟨name, body⟩ s₂ h₂
      refine follows_current_bind ?_
      split
      · next hop => exact follows_edges n hnested h₂ (.inl ⟨hop, nofun⟩)
      · next hop => exact follows_finish (h₂.congr (if_neg hop))
    next hb =>
    have hstarts := mt hbraces.2 hb
    refine follows_current_bind ?_
    split
    · next hid =>
      have name := h₁.congr (first_of_isId hid fun hbrace => hstarts (.inl hbrace))
      refine (follows_nodeRef name hid fun hcolon => afterName_eq_afterNode hcolon
        (fun hs => hstarts (.inr hs)) fun hbracket _ => hno₁ hbracket).bind ?_
      rintro ref s₂ ⟨href, h₂⟩
      exact follows_named n hnested href h₂
    · next hid =>
      exact h₁.congr (first_of_not_isId hid fun hbrace => hstarts (.inl hbrace))

theorem follows_named : ∀ (n : Nat) {r : Reading} {nested : Bool} {word : Token} {ref : NodeRef}
    {s : Parser}, nested = !r.braces.isEmpty → ref.id = word.value →
    s.Decides ((s.reading r).afterNode [] word ref.port s.tok) P →
    Follows (named n nested word ref) s P (Finishes r P)
  | 0, _, _, _, _, _, _, _, _ => follows_tooDeep
  | n + 1, r, nested, word, ref, s, hnested, hid, h => by
    rw [named]
    refine follows_current_bind ?_
    rw [Reading.afterNode] at h
    split
    · next hequal =>
      rw [if_pos ⟨hequal, rfl⟩] at h
      split
      · next hport =>
        rw [if_pos hport] at h
        exact follows_throw h
      · next hport =>
        rw [if_neg hport, ← hid] at h
        exact follows_assignment hnested h hequal
    next hequal =>
    rw [if_neg fun h => hequal h.1, ← hid] at h
    split
    · next hop => exact follows_edges n hnested h (.inl ⟨hop, nofun⟩)
    · next hop =>
      rw [Reading.afterEndpoint, if_neg hop] at h
      exact (follows_lists n h).bind fun es s₁ h₁ => follows_finishList hnested h₁

theorem follows_edges : ∀ (n : Nat) {r : Reading} {nested : Bool} {chain : List Endpoint}
    {s : Parser}, nested = !r.braces.isEmpty →
    s.Decides ((s.reading r).afterEndpoint chain s.tok) P →
    (s.tok.kind = .edgeOp ∧ chain ≠ [] ∨ 2 ≤ chain.length) →
    Follows (edges n nested chain) s P (Finishes r P)
  | 0, _, _, _, _, _, _, _ => follows_tooDeep
  | n + 1, r, nested, chain, s, hnested, h, hchain => by
    rw [edges]
    refine follows_current_bind ?_
    split
    · next hop =>
      have hne : chain ≠ [] := by
        rcases hchain with h | h
        · exact h.2
        · exact List.ne_nil_of_length_pos (by omega)
      refine (follows_link n hne h hop).bind fun e s₁ h₁ => ?_
      have longer : 2 ≤ (e :: chain).length := Nat.succ_le_succ (List.length_pos_iff.2 hne)
      exact follows_edges n hnested h₁ (.inr longer)
    · next hop =>
      have lists : (s.reading r).afterEndpoint chain s.tok =
          (s.reading r).afterSubject (.edge chain) [] s.tok := by
        obtain ⟨e, e', rest, rfl⟩ : ∃ e e' rest, chain = e :: e' :: rest := by
          rcases chain with _ | ⟨e, _ | ⟨e', rest⟩⟩
          · exact absurd rfl (hchain.elim And.right nofun)
          · exact absurd (hchain.elim And.left nofun) hop
          · exact ⟨e, e', rest, rfl⟩
        rw [Reading.afterEndpoint, if_neg hop] <;> nofun
      exact (follows_lists n (h.congr lists)).bind fun es s₁ h₁ => follows_finishList hnested h₁

theorem follows_link : ∀ (n : Nat) {r : Reading} {chain : List Endpoint} {s : Parser},
    chain ≠ [] → s.Decides ((s.reading r).afterEndpoint chain s.tok) P → s.tok.kind = .edgeOp →
    Follows (link n) s P fun e s' =>
      s'.Decides ((s'.reading r).afterEndpoint (e :: chain) s'.tok) P
  | 0, _, _, _, _, _, _ => follows_tooDeep
  | n + 1, r, chain, s, hne, h, hop => by
    rw [link]
    have operator : s.Decides ((s.reading r).go (.operator chain)) P := h.congr (if_pos hop)
    refine (follows_lex operator).bind ?_
    rintro _ _ ⟨rfl, -⟩
    exact follows_endpoint n hne operator.go

theorem follows_endpoint : ∀ (n : Nat) {r : Reading} {chain : List Endpoint} {s : Parser},
    chain ≠ [] → s.Decides ((s.reading r).first chain .endpoint s.tok) P →
    Follows (endpoint n) s P fun e s' =>
      s'.Decides ((s'.reading r).afterEndpoint (e :: chain) s'.tok) P
  | 0, _, _, _, _, _ => follows_tooDeep
  | n + 1, r, chain, s, hne, h => by
    rw [endpoint]
    refine (follows_atSubgraph (Q := fun s' => s'.Decides ((s'.reading r).first chain .endpoint
      s'.tok) P) h h.peeked).bind ?_
    rintro braces s₁ ⟨h₁, hbraces⟩
    split
    · next hb =>
      refine (follows_subgraph n h₁ (hbraces.1 hb)).bind ?_
      rintro ⟨name, body⟩ s₂ h₂
      exact follows_pure h₂
    next hb =>
    have hstarts := mt hbraces.2 hb
    refine follows_current_bind ?_
    split
    · next hid =>
      have name := h₁.congr (first_of_isId hid fun hbrace => hstarts (.inl hbrace))
      refine (follows_nodeRef name hid fun hcolon => afterName_eq_afterNode hcolon
        (fun hs => hstarts (.inr hs)) fun _ hnil => absurd hnil hne).bind ?_
      rintro ref s₂ ⟨href, h₂⟩
      have node : (s₂.reading r).afterNode chain s₁.tok ref.port s₂.tok =
          (s₂.reading r).afterEndpoint (.node ref :: chain) s₂.tok := by
        rw [Reading.afterNode, if_neg fun h => hne (List.isEmpty_iff.1 h.2), ← href]
      exact follows_pure (h₂.congr node)
    · next hid =>
      exact h₁.congr (first_of_not_isId hid fun hbrace => hstarts (.inl hbrace))

theorem follows_subgraph : ∀ (n : Nat) {r : Reading} {chain : List Endpoint} {expected : Expected}
    {s : Parser}, s.Decides ((s.reading r).first chain expected s.tok) P → s.StartsSubgraph →
    Follows (subgraph n) s P fun sub s' =>
      s'.Decides ((s'.reading r).afterEndpoint (.subgraph sub.1 sub.2 :: chain) s'.tok) P
  | 0, _, _, _, _, _, _ => follows_tooDeep
  | n + 1, r, chain, expected, s, h, hs => by
    rw [subgraph]
    refine (follows_opening h hs).bind fun name s₁ h₁ => ?_
    have inner : true = !(opened r chain name).braces.isEmpty := rfl
    refine (follows_statements n inner h₁).bind ?_
    intro body s₂ run
    exact follows_pure (run.decides nofun)

end

/-! ### Documents -/

theorem follows_keyword {strict : Bool} (h : s.Decides (Progress.readKeyword strict s.tok) P)
    (hremarks : s.remarks = []) :
    Follows (accept (fun t => t.isKeyword "digraph" || t.isKeyword "graph") .graphKeyword) s P
      fun t s' => s' = s.lexed ∧ s'.Runs (.keyword ⟨strict, t.isKeyword "digraph", none⟩) P := by
  refine (accept_runs (p := .keyword ⟨strict, s.tok.isKeyword "digraph", none⟩) h ?_ ?_).mono
    (fun t s' ⟨tok, _, next, run⟩ => ⟨next, tok ▸ run⟩)
  · intro ht
    cases hd : s.tok.isKeyword "digraph" with
    | true => rw [Progress.readKeyword, if_pos hd]
    | false =>
      have hg : s.tok.isKeyword "graph" = true := by rwa [hd, Bool.false_or] at ht
      rw [Progress.readKeyword, if_neg (hd ▸ Bool.false_ne_true), if_pos hg]
  · intro ht
    obtain ⟨hd, hg⟩ := not_or.1 (mt Bool.or_eq_true_iff.2 ht)
    rw [Progress.readKeyword, if_neg hd, if_neg hg, hremarks]

/-- What comes before the statements of a document. -/
theorem follows_header (h : s.Runs .start P) (hremarks : s.remarks = []) :
    Follows header s P fun header s' =>
      s'.Decides ((s'.reading { header := header }).between s'.tok) P := by
  have start := h.decides nofun
  rw [Progress.step] at start
  refine (optional_runs start fun hs => if_pos hs).bind ?_
  intro strict s₁ hstrict
  have keyword : s₁.Decides (Progress.readKeyword strict.isSome s₁.tok) P ∧ s₁.remarks = [] := by
    obtain ⟨rfl, -, rfl, run⟩ | ⟨rfl, hs, rfl⟩ := hstrict
    · exact ⟨run.decides nofun, hremarks⟩
    · exact ⟨start.congr (if_neg hs), hremarks⟩
  refine (follows_keyword keyword.1 keyword.2).bind ?_
  rintro word _ ⟨rfl, run⟩
  have named := run.decides nofun
  rw [Progress.step] at named
  refine (optional_runs named fun hs => if_pos hs).bind ?_
  intro name s₂ hname
  have brace : s₂.Decides (Progress.readBrace
      ⟨strict.isSome, word.isKeyword "digraph", name.map Token.value⟩ s₂.tok) P ∧
      s₂.remarks = [] := by
    obtain ⟨rfl, -, rfl, run⟩ | ⟨rfl, hs, rfl⟩ := hname
    · exact ⟨run.decides nofun, keyword.2⟩
    · exact ⟨named.congr (if_neg hs), keyword.2⟩
  refine (expect_runs brace.1 (fun hs => if_pos hs) fun hs =>
    (if_neg hs).trans (by rw [brace.2])).bind ?_
  rintro _ _ ⟨rfl, run⟩
  have reading : ∀ header, s₂.lexed.reading { header := header } = { header := header } :=
    fun header => congrArg (Reading.mk header [] [] .nothing) brace.2
  refine follows_pure ?_
  rw [reading]
  exact run.decides nofun

theorem follows_document (n : Nat) {ts : Tokens} (h : s.Holds ts) :
    Follows (document n) s ts.parse fun d s' => s'.Stopped (.ok d) ts.parse := by
  have start : Follows (modify fun s => { s with remarks := [] } : Descent Unit) s ts.parse
      fun _ s' => s'.remarks = [] ∧ s'.Runs .start ts.parse :=
    ⟨rfl, ts, ⟨h.tok, h.lexer, h.ne_endOfInput⟩, rfl⟩
  refine start.bind ?_
  rintro _ s₀ ⟨hremarks, run⟩
  refine (follows_header run hremarks).bind fun header s₁ h₁ => ?_
  have outer : false = !({ header := header } : Reading).braces.isEmpty := rfl
  refine (follows_statements n outer h₁).bind ?_
  rintro body s₂ ⟨ts', holds, outcome⟩
  refine follows_current_bind ?_
  -- The closed document ends with the text, and any other token behind it is an error.
  rcases ts' with ⟨_ | ⟨t, rest⟩, stop⟩
  · have hend : s₂.tok.kind = .endOfInput := congrArg Token.kind holds.tok
    rw [if_pos hend]
    exact follows_pure ⟨_, holds, outcome⟩
  · have tok : s₂.tok = t := holds.tok
    have hend : s₂.tok.kind ≠ .endOfInput := tok ▸ holds.ne_endOfInput t List.mem_cons_self
    rw [if_neg hend]
    refine ⟨_, holds, outcome.trans ?_⟩
    rw [tok]
    rfl

/-- What comes of a document, whatever came of the text before it. -/
theorem document_eq {n : Nat} {ts : Tokens} (hn : 5 * s.unread ≤ n) (h : s.Holds ts) :
    ∃ s' : Parser, document n s = some (ts.parse.result, s') ∧
      s'.remarks.reverse = ts.parse.remarks ∧ s'.Holds ts.parse.rest := by
  obtain ⟨result, s', returned⟩ := (takes_document hn).exists_eq_some
  have follows := follows_document n h
  rw [Follows, returned] at follows
  obtain ⟨ts', holds, outcome⟩ : s'.Stopped result ts.parse := by
    cases result with
    | ok d => exact follows
    | error e => exact follows
  rw [outcome]
  exact ⟨s', returned, rfl, holds⟩

/-- Parsing comes to an end, whatever is left of a text: no function goes deeper than a number of
    calls for each token that is left. Each round of trivia leaves less of the text, and so does
    each token but its end, which is the same again and again. Whatever is done over and over
    takes a token: statements, assignments in brackets, pairs of brackets, edge operators and what
    comes before the statements of a subgraph. At the end of the text, statements and brackets
    that are open are errors. -/
theorem parsing_ends :
    (∀ c d : Cursor, c.round? = some d → d.rest.length < c.rest.length) ∧
    (∀ (n : Nat) (c : Cursor), c.rest.length < n → c.skipRounds n = some c.skipTrivia) ∧
    (∀ c : Cursor, c.next.1.kind ≠ .endOfInput →
      c.next.2.rest.length < c.skipTrivia.rest.length) ∧
    (∀ (n : Nat) (c : Cursor), c.next.1.kind = .endOfInput →
      (Nat.repeat (fun d : Cursor => d.next.2) n c).next = c.next) ∧
    (∀ (n : Nat) (nested : Bool) (s : Parser), 5 * s.unread + 3 < n →
      Takes 1 (statement n nested) s) ∧
    (∀ s : Parser, Takes 1 entry s) ∧
    (∀ (n : Nat) (before : List Entry) (s : Parser), s.tok.kind = .leftBracket → s.unread ≤ n →
      Takes 1 (brackets n before) s) ∧
    (∀ (n : Nat) (s : Parser), s.tok.kind = .edgeOp → 5 * s.unread < n → Takes 1 (link n) s) ∧
    (∀ s : Parser, Takes 1 opening s) ∧
    (∀ (n : Nat) (before : List Entry) (s : Parser), s.tok.kind = .endOfInput →
      entries (n + 1) before s = some (.error (.atToken .attributeName s.tok), s)) ∧
    (∀ (n : Nat) (nested : Bool) (before : List Stmt) (s : Parser), s.tok.kind = .endOfInput →
      statements (n + 2) nested before s =
        some (.error (.atToken .statement s.tok), s.peeked)) ∧
    (∀ (n : Nat) (s : Parser), 5 * s.unread ≤ n → ∃ result s', document n s = some (result, s')) ∧
    ∀ (n : Nat) (text : String), 5 * (ofText text).unread ≤ n → ∃ s',
      document n (ofText text) = some ((Parsed.ofText text).result, s') ∧
      s'.Holds (Parsed.ofText text).rest := by
  refine ⟨fun _ _ => Cursor.round_shorter, fun _ _ => Cursor.skipRounds_eq,
    fun _ => Cursor.next_shorter_than_trivia, fun n _ h => Cursor.next_repeat h n,
    takes_statement, takes_entry, fun _ before _ => takes_brackets before, takes_link,
    takes_opening, fun n before _ => entries_of_endOfInput n before,
    fun n nested before _ => statements_of_endOfInput n nested before,
    fun _ _ hn => (takes_document hn).exists_eq_some, fun n text hn => ?_⟩
  obtain ⟨s', result, -, holds⟩ := document_eq hn (holds_ofText text)
  exact ⟨s', result, holds⟩

/-- Texts that are cut short: in a comment, behind a bracket and behind an edge operator. -/
theorem parsing_ends_in_list :
    (∃ d, (⟨.start, ['/', '*']⟩ : Cursor).round? = some d ∧ d.rest.length < 2) ∧
    (2 < 3 ∧ (⟨.start, ['/', '*']⟩ : Cursor).skipRounds 3 =
      some (⟨.start, ['/', '*']⟩ : Cursor).skipTrivia) ∧
    ((⟨.start, ['[']⟩ : Cursor).next.1.kind ≠ .endOfInput ∧
      (⟨.start, ['[']⟩ : Cursor).next.2.rest.length < 1) ∧
    ((⟨.start, []⟩ : Cursor).next.1.kind = .endOfInput ∧
      (Nat.repeat (fun d : Cursor => d.next.2) 2 ⟨.start, []⟩).next =
        (⟨.start, []⟩ : Cursor).next) ∧
    (5 * (ofText "[").unread + 3 < 9 ∧ Takes 1 (statement 9 false) (ofText "[")) ∧
    ((ofText "[").tok.kind = .leftBracket ∧ (ofText "[").unread ≤ 1 ∧
      Takes 1 (brackets 1 []) (ofText "[")) ∧
    ((ofText "--").tok.kind = .edgeOp ∧ 5 * (ofText "--").unread < 6 ∧
      Takes 1 (link 6) (ofText "--")) ∧
    ((ofText "/*").tok.kind = .endOfInput ∧
      entries 1 [] (ofText "/*") =
        some (.error (.atToken .attributeName (ofText "/*").tok), ofText "/*") ∧
      statements 2 false [] (ofText "/*") =
        some (.error (.atToken .statement (ofText "/*").tok), (ofText "/*").peeked)) ∧
    5 * (ofText "[").unread ≤ 5 ∧ ∃ s', document 5 (ofText "[") =
      some ((Parsed.ofText "[").result, s') ∧ s'.Holds (Parsed.ofText "[").rest := by
  obtain ⟨round, rounds, token, again, statement, -, brackets, link, -, entries, statements, -,
    document⟩ := parsing_ends
  have comment : (⟨.start, ['/', '*']⟩ : Cursor).round? = some ⟨⟨1, 3⟩, []⟩ := by decide +kernel
  have character : (⟨.start, ['[']⟩ : Cursor).next.1.kind ≠ .endOfInput := by decide +kernel
  have nothing : (⟨.start, []⟩ : Cursor).next.1.kind = .endOfInput := by decide +kernel
  have bracket : (ofText "[").tok.kind = .leftBracket := by decide +kernel
  have one : (ofText "[").unread = 1 := by decide +kernel
  have operator : (ofText "--").tok.kind = .edgeOp := by decide +kernel
  have one' : (ofText "--").unread = 1 := by decide +kernel
  have stop : (ofText "/*").tok.kind = .endOfInput := by decide +kernel
  exact ⟨⟨_, comment, round _ _ comment⟩, ⟨by decide, rounds 3 _ (by decide)⟩,
    ⟨character, token _ character⟩, ⟨nothing, again 2 _ nothing⟩,
    ⟨by omega, statement 9 false _ (by omega)⟩,
    ⟨bracket, by omega, brackets 1 [] _ bracket (by omega)⟩,
    ⟨operator, by omega, link 6 _ operator (by omega)⟩,
    ⟨stop, entries 0 [] _ stop, statements 0 false [] _ stop⟩,
    by omega, document 5 _ (by omega)⟩

end Parser

end DotLang
