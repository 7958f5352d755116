import DotLang.Syntax.Reading

/-!
# Parsing

The tokens of a document are read one after the other, from its first word to the
end of the text. Parsing stops at the first token with which no document goes on.

* `Progress.step`: one token;
* `Tokens.parse`: the tokens of a document, and what is left at an error.
-/

namespace DotLang

namespace Progress

/-- Reads the word `graph` or `digraph`. -/
def readKeyword (strict : Bool) (t : Token) : Except Stuck Progress :=
  if t.isKeyword "digraph" then .ok (.keyword { strict := strict, directed := true })
  else if t.isKeyword "graph" then .ok (.keyword { strict := strict, directed := false })
  else .error ⟨.atToken .graphKeyword t, []⟩

/-- Reads the opening brace of the document. -/
def readBrace (header : Header) (t : Token) : Except Stuck Progress :=
  if t.kind = .leftBrace then .ok (.body { header := header })
  else .error ⟨.atToken (.token .leftBrace) t, []⟩

/-- Reads a token. -/
def step (t : Token) : Progress → Except Stuck Progress
  | start => if t.isKeyword "strict" then .ok .strict else readKeyword false t
  | strict => readKeyword true t
  | keyword header =>
    if t.isName then .ok (.titled { header with name := some t.value }) else readBrace header t
  | titled header => readBrace header t
  | body r => r.step t
  | closed _ remarks => .error ⟨.atToken (.token .endOfInput) t, remarks⟩

variable {t : Token} {p q : Progress}

theorem leadsTo_of_isKeyword {word : String} (h : t.isKeyword word)
    (hq : ∀ document remarks, q ≠ .closed document remarks) : t.LeadsTo q := by
  simp only [Token.isKeyword, Bool.and_eq_true, decide_eq_true_eq] at h
  exact ⟨h.1 ▸ nofun, h.1 ▸ nofun, fun document remarks heq => absurd heq (hq document remarks)⟩

theorem readKeyword_leadsTo {strict : Bool} (h : readKeyword strict t = .ok q) : t.LeadsTo q := by
  unfold readKeyword at h
  split at h
  · next hw =>
    cases h
    exact leadsTo_of_isKeyword hw nofun
  split at h
  · next hw =>
    cases h
    exact leadsTo_of_isKeyword hw nofun
  · cases h

theorem readBrace_leadsTo {header : Header} (h : readBrace header t = .ok q) : t.LeadsTo q := by
  unfold readBrace at h
  split at h
  · next hk =>
    cases h
    exact Reading.leadsTo_of_kind hk nofun nofun
  · cases h

/-- A token that can be read is part of a document, and ends it only if it is a brace. -/
theorem step_leadsTo (h : p.step t = .ok q) : t.LeadsTo q := by
  unfold step at h
  split at h
  · split at h
    · next hw =>
      cases h
      exact leadsTo_of_isKeyword hw nofun
    · exact readKeyword_leadsTo h
  · exact readKeyword_leadsTo h
  · split at h
    · next header hname =>
      cases h
      have body : t.LeadsTo (.body { header := header }) := Reading.leadsTo_of_isName hname
      exact ⟨body.ne_endOfInput, body.ne_illegal, nofun⟩
    · exact readBrace_leadsTo h
  · exact readBrace_leadsTo h
  · exact Reading.step_leadsTo h
  · cases h

/-- No document goes on with the end of the text. -/
theorem step_endAt_ne_ok (p q : Progress) (stop : Position) : p.step (.endAt stop) ≠ .ok q :=
  fun h => (step_leadsTo h).ne_endOfInput rfl

end Progress

/-- What comes of parsing: a document or an error, the remarks on the finished
    statements in the order in which they end, and the tokens that were not read.
    The token at which an error shows is among these. -/
structure Parsed where
  result : Except ParseError Document
  remarks : List Remark
  rest : Tokens

/-- Parsing that stops with an error. -/
def Stuck.parsed (s : Stuck) (rest : Tokens) : Parsed := ⟨.error s.error, s.remarks.reverse, rest⟩

/-- Reads the end of the text. Only a closed document may end there. -/
def Progress.finish (stop : Position) : Progress → Parsed
  | closed document remarks => ⟨.ok document, remarks.reverse, ⟨[], stop⟩⟩
  | p =>
    match h : p.step (.endAt stop) with
    | .error s => s.parsed ⟨[], stop⟩
    | .ok q => absurd h (p.step_endAt_ne_ok q stop)

/-- Reads the tokens up to the end of the text at `stop`, going on from what has
    been read. -/
def Progress.run (stop : Position) : Progress → List Token → Parsed
  | p, [] => p.finish stop
  | p, t :: ts =>
    match p.step t with
    | .ok q => q.run stop ts
    | .error s => s.parsed ⟨t :: ts, stop⟩

/-- Parses the tokens of a document, to the end of the text. -/
def Tokens.parse (ts : Tokens) : Parsed := Progress.start.run ts.stop ts.pending

end DotLang
