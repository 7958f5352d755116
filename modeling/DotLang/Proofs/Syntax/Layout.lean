import DotLang.Proofs.Source.Cutting
import DotLang.Proofs.Syntax.Acceptance

/-!
# Layout

White space and comments have no part in what a text means. Where tokens stand decides
neither the document nor the wording of an error, since forgetting the places of all that
has been read goes along with every step of reading. And what is put in front of a token
changes nothing but places.

* `Progress.step_unplaced`, `Progress.run_unplaced`: reading without places;
* `Graph.message_congr`: texts with the same lexemes give the same graph or the same
  message;
* `Lexical.Spacer`: what can be put in front of a token;
* `Graph.layout_irrelevant`: it changes neither the lexemes nor the graph or the message.
-/

namespace DotLang

/-! ### Forgetting places -/

/-- The token without its place. -/
def Token.unplaced (t : Token) : Token := { t with pos := .start }

/-- The assignment without its place. -/
def Entry.unplaced (e : Entry) : Entry := { e with pos := .start }

/-- The part of a statement without places. -/
def Part.unplaced : Part → Part
  | .name chain word => .name chain word.unplaced
  | .colon chain word => .colon chain word.unplaced
  | .port chain word id => .port chain word.unplaced id
  | .portColon chain word id => .portColon chain word.unplaced id
  | .compass chain word id => .compass chain word.unplaced id
  | .assigned e => .assigned e.unplaced
  | .list subject entries => .list subject (entries.map Entry.unplaced)
  | .key subject entries id => .key subject (entries.map Entry.unplaced) id
  | .equals subject entries id => .equals subject (entries.map Entry.unplaced) id
  | .entry subject entries => .entry subject (entries.map Entry.unplaced)
  | .lists subject entries => .lists subject (entries.map Entry.unplaced)
  | part => part

/-- What has been read of statements, without places. -/
def Reading.unplaced (r : Reading) : Reading := { r with part := r.part.unplaced }

/-- What has been read, without places. -/
def Progress.unplaced : Progress → Progress
  | body r => .body r.unplaced
  | p => p

/-- The fault without the place of its token. -/
def Fault.unplaced : Fault → Fault
  | illegalCharacter found => .illegalCharacter found.unplaced
  | unexpected expected found => .unexpected expected found.unplaced
  | fault => fault

/-- The error without its place. -/
def ParseError.unplaced (e : ParseError) : ParseError := ⟨e.fault.unplaced, .start⟩

/-- What comes of a token without places, where `f` forgets those of what has been read. -/
def Stuck.unplaced {α : Type} (f : α → α) : Except Stuck α → Except Stuck α
  | .ok a => .ok (f a)
  | .error s => .error ⟨s.error.unplaced, s.remarks⟩

/-- No message tells a place. -/
theorem Fault.message_unplaced (f : Fault) : f.unplaced.message = f.message := by
  cases f <;> rfl

/-- At a token that cannot be read, only the place of the token is forgotten. -/
theorem Stuck.unplaced_atToken {α : Type} (f : α → α) (expected : Expected) (t : Token)
    (remarks : List Remark) : unplaced f (.error ⟨.atToken expected t, remarks⟩) =
      .error ⟨.atToken expected t.unplaced, remarks⟩ := by
  have fault : (Fault.ofToken expected t).unplaced = .ofToken expected t.unplaced := by
    rw [Fault.ofToken, Fault.ofToken, apply_ite Fault.unplaced]
    rfl
  rw [unplaced, ParseError.unplaced, ParseError.atToken, fault]
  rfl

/-! ### One token -/

namespace Reading

variable (r : Reading) (t : Token)

theorem fail_unplaced {α : Type} (f : α → α) (expected : Expected) :
    Stuck.unplaced f (r.fail (.atToken expected t)) =
      r.unplaced.fail (.atToken expected t.unplaced) :=
  Stuck.unplaced_atToken f expected t r.remarks

theorem first_unplaced (chain : List Endpoint) (expected : Expected) :
    Stuck.unplaced Progress.unplaced (r.first chain expected t) =
      r.unplaced.first chain expected t.unplaced := by
  rw [first, first, apply_ite (Stuck.unplaced _), apply_ite (Stuck.unplaced _), fail_unplaced]
  rfl

theorem closeBrace_unplaced : r.closeBrace.unplaced = r.unplaced.closeBrace := by
  obtain ⟨header, braces, stmts, part, remarks⟩ := r
  cases braces <;> rfl

theorem between_unplaced : Stuck.unplaced Progress.unplaced (r.between t) =
    r.unplaced.between t.unplaced := by
  rw [between, between, apply_ite (Stuck.unplaced _), apply_ite (Stuck.unplaced _), first_unplaced,
    ← closeBrace_unplaced]
  rfl

/-- Which assignment is wrong does not depend on the places of the assignments. -/
theorem firstError?_unplaced (o : Owner) (entries : List Entry) :
    (Entry.firstError? o entries).map ParseError.unplaced =
      Entry.firstError? o (entries.map Entry.unplaced) := by
  rw [Entry.firstError?, Entry.firstError?, List.map_findSome?, List.findSome?_map]
  congr 1
  funext e
  rw [Function.comp_apply, Option.map_map]
  rfl

theorem finishList_unplaced (subject : Subject) (entries : List Entry) :
    Stuck.unplaced Reading.unplaced (r.finishList subject entries) =
      r.unplaced.finishList subject (entries.map Entry.unplaced) := by
  rw [finishList, finishList, show r.unplaced.braces = r.braces from rfl, ← List.map_reverse,
    ← firstError?_unplaced, List.map_map]
  cases Entry.firstError? (subject.owner !r.braces.isEmpty) entries.reverse <;> rfl

theorem afterList_unplaced (subject : Subject) (entries : List Entry) :
    Stuck.unplaced Progress.unplaced (r.afterList subject entries t) =
      r.unplaced.afterList subject (entries.map Entry.unplaced) t.unplaced := by
  rw [afterList, afterList, ← finishList_unplaced]
  cases r.finishList subject entries with
  | error s => rfl
  | ok r' => exact between_unplaced r' t

theorem afterSubject_unplaced (subject : Subject) (entries : List Entry) :
    Stuck.unplaced Progress.unplaced (r.afterSubject subject entries t) =
      r.unplaced.afterSubject subject (entries.map Entry.unplaced) t.unplaced := by
  rw [afterSubject, afterSubject, apply_ite (Stuck.unplaced _), afterList_unplaced]
  rfl

theorem afterEndpoint_unplaced (chain : List Endpoint) :
    Stuck.unplaced Progress.unplaced (r.afterEndpoint chain t) =
      r.unplaced.afterEndpoint chain t.unplaced := by
  unfold afterEndpoint
  rw [apply_ite (Stuck.unplaced _)]
  congr 1
  rcases chain with _ | ⟨_ | _, _ | _⟩
  · exact afterSubject_unplaced r t _ []
  · exact afterSubject_unplaced r t _ []
  · exact afterSubject_unplaced r t _ []
  · exact between_unplaced _ t
  · exact afterSubject_unplaced r t _ []

theorem afterNode_unplaced (chain : List Endpoint) (word : Token) (port : Option String) :
    Stuck.unplaced Progress.unplaced (r.afterNode chain word port t) =
      r.unplaced.afterNode chain word.unplaced port t.unplaced := by
  rw [afterNode, afterNode, apply_ite (Stuck.unplaced _), apply_ite (Stuck.unplaced _),
    afterEndpoint_unplaced]
  rfl

theorem afterName_unplaced (chain : List Endpoint) (word : Token) :
    Stuck.unplaced Progress.unplaced (r.afterName chain word t) =
      r.unplaced.afterName chain word.unplaced t.unplaced := by
  have target_eq : target? word.unplaced = target? word := rfl
  simp only [afterName, apply_ite (Stuck.unplaced _), afterNode_unplaced, target_eq]
  cases target? word with
  | none =>
    simp only [afterNode_unplaced]
    rfl
  | some target => rfl

theorem inList_unplaced (subject : Subject) (entries : List Entry) :
    Stuck.unplaced Progress.unplaced (r.inList subject entries t) =
      r.unplaced.inList subject (entries.map Entry.unplaced) t.unplaced := by
  rw [inList, inList, apply_ite (Stuck.unplaced _), apply_ite (Stuck.unplaced _), fail_unplaced]
  rfl

/-- What comes of a token does not depend on places, but for the place of an error. -/
theorem step_unplaced :
    Stuck.unplaced Progress.unplaced (r.step t) = r.unplaced.step t.unplaced := by
  obtain ⟨header, braces, stmts, part, remarks⟩ := r
  cases part with
  | nothing => exact between_unplaced _ t
  | operator chain => exact first_unplaced _ t chain .endpoint
  | name chain word => exact afterName_unplaced _ t chain word
  | compass chain word port => exact afterNode_unplaced _ t chain word (some port)
  | endpoint chain => exact afterEndpoint_unplaced _ t chain
  | assigned entry => exact afterList_unplaced _ t (.attributes .scope) [entry]
  | list subject entries => exact inList_unplaced _ t subject entries
  | lists subject entries => exact afterSubject_unplaced _ t subject entries
  | subgraphName chain name =>
    simp only [step, apply_ite (Stuck.unplaced _), fail_unplaced]
    rfl
  | colon chain word =>
    simp only [step, apply_ite (Stuck.unplaced _), fail_unplaced]
    rfl
  | port chain word port =>
    simp only [step, apply_ite (Stuck.unplaced _), afterNode_unplaced]
    rfl
  | portColon chain word port =>
    simp only [step, apply_ite (Stuck.unplaced _), fail_unplaced]
    rfl
  | assign key =>
    simp only [step, apply_ite (Stuck.unplaced _), fail_unplaced]
    rfl
  | key subject entries key =>
    simp only [step, apply_ite (Stuck.unplaced _), fail_unplaced]
    rfl
  | equals subject entries key =>
    simp only [step, apply_ite (Stuck.unplaced _), fail_unplaced]
    rfl
  | entry subject entries =>
    simp only [step, apply_ite (Stuck.unplaced _), inList_unplaced]
    rfl

end Reading

namespace Progress

/-- What comes of a token does not depend on places, but for the place of an error. -/
theorem step_unplaced (p : Progress) (t : Token) :
    Stuck.unplaced unplaced (p.step t) = p.unplaced.step t.unplaced := by
  have keyword : ∀ strict, Stuck.unplaced unplaced (readKeyword strict t) =
      readKeyword strict t.unplaced := by
    intro strict
    simp only [readKeyword, apply_ite (Stuck.unplaced _), Stuck.unplaced_atToken]
    rfl
  have brace : ∀ header, Stuck.unplaced unplaced (readBrace header t) =
      readBrace header t.unplaced := by
    intro header
    simp only [readBrace, apply_ite (Stuck.unplaced _), Stuck.unplaced_atToken]
    rfl
  cases p with
  | start =>
    simp only [step, apply_ite (Stuck.unplaced _), keyword]
    rfl
  | strict => exact keyword true
  | keyword header =>
    simp only [step, apply_ite (Stuck.unplaced _), brace]
    rfl
  | titled header => exact brace header
  | body r => exact r.step_unplaced t
  | closed d remarks => exact Stuck.unplaced_atToken _ _ t remarks

variable {p : Progress} {stop : Position}

/-- Before a document is closed, the end of the text is an error. -/
theorem finish_result_of_step {s : Stuck} (hp : ∀ d remarks, p ≠ .closed d remarks)
    (h : p.step (.endAt stop) = .error s) : (p.finish stop).result = .error s.error := by
  unfold finish
  split
  · next d remarks => exact absurd rfl (hp d remarks)
  split
  · next s' h' =>
    rw [h] at h'
    cases h'
    rfl
  · next q h' =>
    rw [h] at h'
    cases h'

theorem finish_unplaced (stop : Position) (p : Progress) :
    (p.finish stop).result.mapError ParseError.unplaced = (p.unplaced.finish .start).result := by
  by_cases hp : ∃ d remarks, p = .closed d remarks
  · obtain ⟨d, remarks, rfl⟩ := hp
    rfl
  · have hp : ∀ d remarks, p ≠ .closed d remarks := fun d remarks h => hp ⟨d, remarks, h⟩
    have hp' : ∀ d remarks, p.unplaced ≠ .closed d remarks := by
      intro d remarks h
      cases p with
      | closed => exact hp _ _ rfl
      | _ => cases h
    cases h : p.step (.endAt stop) with
    | ok q => exact absurd h (step_endAt_ne_ok p q stop)
    | error s =>
      have h' : p.unplaced.step (.endAt .start) = .error ⟨s.error.unplaced, s.remarks⟩ :=
        (step_unplaced p (.endAt stop)).symm.trans (congrArg (Stuck.unplaced unplaced) h)
      rw [finish_result_of_step hp h, finish_result_of_step hp' h']
      rfl

/-- What comes of tokens does not depend on places, but for the place of an error. -/
theorem run_unplaced (stop : Position) (p : Progress) (ts : List Token) :
    (p.run stop ts).result.mapError ParseError.unplaced =
      (p.unplaced.run .start (ts.map Token.unplaced)).result := by
  induction ts generalizing p with
  | nil => exact finish_unplaced stop p
  | cons t ts ih =>
    rw [List.map_cons, run, run, ← step_unplaced]
    cases p.step t with
    | ok q => exact ih q
    | error s => rfl

end Progress

namespace Graph

variable {text text' : String}

theorem result_congr (h : (Tokens.ofText text).lexemes = (Tokens.ofText text').lexemes) :
    (Parsed.ofText text).result.mapError ParseError.unplaced =
      (Parsed.ofText text').result.mapError ParseError.unplaced := by
  have tokens : ∀ ts : List Token, ts.map Token.unplaced =
      (ts.map Token.lexeme).map fun l => ⟨l.kind, l.value, .start⟩ := by
    intro ts
    rw [List.map_map]
    rfl
  have read : ∀ text, (Parsed.ofText text).result.mapError ParseError.unplaced =
      (Progress.start.run .start ((Tokens.ofText text).lexemes.map
        fun l => ⟨l.kind, l.value, .start⟩)).result := by
    intro text
    rw [Tokens.lexemes, ← tokens]
    exact Progress.run_unplaced _ .start _
  rw [read, read, h]

/-- Texts with the same lexemes both have the same graph, or neither has one, with the same
    message. -/
theorem message_congr (h : (Tokens.ofText text).lexemes = (Tokens.ofText text').lexemes) :
    (Graph.ofText text).mapError (·.fault.message) =
      (Graph.ofText text').mapError (·.fault.message) := by
  have read : ∀ text, (Graph.ofText text).mapError (·.fault.message) =
      (((Parsed.ofText text).result.mapError ParseError.unplaced).map
        Document.toGraph).mapError (·.fault.message) := by
    intro text
    rw [ofText, Parsed.graph]
    cases (Parsed.ofText text).result with
    | ok d => rfl
    | error e => exact congrArg Except.error e.fault.message_unplaced.symm
  rw [read, read, result_congr h]

end Graph

/-! ### Layout -/

namespace Lexical

/-- What can be put in front of a token: white space, or a comment with its end. -/
inductive Spacer : List Char → Prop
  | blank {c : Char} : isBlank c → Spacer [c]
  | blockComment {body : List Char} : Unclosed body → Spacer ('/' :: '*' :: (body ++ ['*', '/']))
  | lineComment {body : List Char} : '\n' ∉ body → Spacer ('/' :: '/' :: (body ++ ['\n']))

variable {w rest : List Char}

/-- A spacer is trivia, whatever is behind it. -/
theorem Spacer.trivia (h : Spacer w) (p : Position) (rest : List Char) : Trivia p w rest := by
  have single : ∀ {p v}, Piece p v rest → Trivia p v rest := by
    intro p v h
    have piece : Piece p v ([] ++ rest) := h
    simpa using Trivia.cons piece (.nil _ rest)
  cases h with
  | blank hc => exact single (.blank rest hc)
  | blockComment hbody => exact single (.blockComment rest hbody)
  | @lineComment body hbody =>
    -- The newline is behind the comment.
    have line : Piece p ('/' :: '/' :: body) (['\n'] ++ rest) :=
      .lineComment (restOfLine_iff.2 ⟨hbody, by simp⟩)
    exact .cons line (single (.blank rest (by decide)))

/-- A spacer may come between a piece of a text and what is behind it. -/
theorem Spacer.keeps (h : Spacer w) (rest rest' : List Char) : Keeps rest (w ++ rest') := by
  intro c hc
  cases h with
  | blank hblank =>
    obtain rfl := Option.some.inj hc
    exact .inr (.inl hblank)
  | blockComment => exact .inr (.inr (Option.some.inj hc).symm)
  | lineComment => exact .inr (.inr (Option.some.inj hc).symm)

/-- What is put in front of a token is skipped, and the token and all behind it is read as
    before. -/
theorem Spacer.lexemes_eq {u v : List Char} {t : Token} (h : Spacer w)
    (legal : ∀ s ∈ (Cursor.ofText (u ++ v)).tokens.pending, s.kind ≠ .illegal)
    (ht : t ∈ (Cursor.ofText (u ++ v)).tokens.pending)
    (hpos : t.pos = Position.start.advanceAll u) :
    (Cursor.ofText (u ++ (w ++ v))).lexemes = (Cursor.ofText (u ++ v)).lexemes := by
  obtain ⟨before, later, hsplit⟩ := List.append_of_mem ht
  have hbefore : ∀ s ∈ before, s.kind ≠ .illegal := fun s hs =>
    legal s (hsplit ▸ List.mem_append_left _ hs)
  obtain ⟨u', lexeme, rest, heq, hcut, hrule, hpos'⟩ := exists_cut hsplit hbefore (legal t ht)
  have heq : u ++ v = u' ++ (lexeme ++ rest) := heq
  obtain rfl : u = u' := Position.advanceAll_inj (hpos.symm.trans hpos') heq
  obtain rfl : v = lexeme ++ rest := List.append_cancel_left heq
  have solid := startsSolid_append hrule.startsSolid rest
  have cut : Cut .start (u ++ w) before (lexeme ++ rest) :=
    (hcut.change solid (h.keeps _ _)).append_trivia (h.trivia _ _)
  -- From the token on, the two texts differ in places only.
  have behind : (⟨Position.start.advanceAll (u ++ w), lexeme ++ rest⟩ : Cursor).lexemes =
      (⟨Position.start.advanceAll u, lexeme ++ rest⟩ : Cursor).lexemes :=
    Cursor.lexemes_of_startsSolid solid (Position.one_le_col_advanceAll (Nat.le_refl 1) _)
      (Position.one_le_col_advanceAll (Nat.le_refl 1) _)
  have pieces : ∀ {u}, Cut .start u before (lexeme ++ rest) →
      (Cursor.ofText (u ++ (lexeme ++ rest))).lexemes = before.map Token.lexeme ++
        (⟨Position.start.advanceAll u, lexeme ++ rest⟩ : Cursor).lexemes := by
    intro u hcut
    rw [Cursor.lexemes, Cursor.ofText, hcut.tokens_eq, Tokens.lexemes, List.map_append]
    rfl
  rw [← List.append_assoc, pieces cut, behind, ← pieces hcut]

end Lexical

namespace Graph

/-- White space or a comment in front of a token, in a text without illegal characters,
    changes neither the lexemes nor the graph, nor the message if there is no graph. -/
theorem layout_irrelevant {text text' : String} {u v w : List Char} {t : Token}
    (heq : text.toList = u ++ v) (heq' : text'.toList = u ++ (w ++ v))
    (legal : ∀ s ∈ (Tokens.ofText text).pending, s.kind ≠ .illegal)
    (ht : t ∈ (Tokens.ofText text).pending) (hpos : t.pos = Position.start.advanceAll u)
    (hw : Lexical.Spacer w) :
    (Tokens.ofText text').lexemes = (Tokens.ofText text).lexemes ∧
      (Graph.ofText text').mapError (·.fault.message) =
        (Graph.ofText text).mapError (·.fault.message) := by
  have lexemes : (Tokens.ofText text').lexemes = (Tokens.ofText text).lexemes := by
    rw [Tokens.ofText, heq] at legal ht
    rw [Tokens.ofText, Tokens.ofText, heq, heq']
    exact hw.lexemes_eq legal ht hpos
  exact ⟨lexemes, message_congr lexemes⟩

/-- A comment between numbers that touch, with a brace in it that is not read. The text has
    no graph, since it is closed by a bracket. -/
theorem comment_between_numbers_irrelevant :
    (Graph.ofText "graph \x7b1.5.5--a\n#\n]").toOption.isNone ∧
      (Tokens.ofText "graph \x7b1.5//\x7d\n.5--a\n#\n]").lexemes =
        (Tokens.ofText "graph \x7b1.5.5--a\n#\n]").lexemes ∧
      (Graph.ofText "graph \x7b1.5//\x7d\n.5--a\n#\n]").mapError (·.fault.message) =
        (Graph.ofText "graph \x7b1.5.5--a\n#\n]").mapError (·.fault.message) := by
  have spacer : Lexical.Spacer ('/' :: '/' :: (['\x7d'] ++ ['\n'])) := .lineComment (by decide)
  refine ⟨by decide +kernel, ?_⟩
  exact layout_irrelevant (u := "graph \x7b1.5".toList) (v := ".5--a\n#\n]".toList)
    (t := ⟨.number, ".5", ⟨1, 11⟩⟩) (by decide) (by decide) (by decide +kernel)
    (by decide +kernel) (by decide +kernel) spacer

end Graph

end DotLang
