import DotLang.Proofs.Source.Cutting
import DotLang.Proofs.Syntax.Acceptance

/-!
# Texts that are cut off

A document is closed by the brace that is the last of its tokens, and a text that is cut
off in front of this brace has no graph. The tokens of the beginning that is left need not
be tokens of the whole text: the last of them may be a part of a longer one, or an open
string. But they are so if the beginning has a graph. It is closed by a brace of its own
then, and a brace is the same token whatever is behind it. So the whole text has these
tokens first, and no other ones, as no token is read behind a closed document.

* `Progress.run_closes`: the last token that is read, once there is a document;
* `Progress.run_stops`: there are no tokens behind those of a document;
* `exists_closingBrace`: the brace in a text with a document, and the piece before it;
* `Lexical.Cut.pending_eq`: the tokens up to a brace, whatever is behind it;
* `lastBrace_in_beginning`: where a beginning with a document ends;
* `Graph.ofText_truncated`: the beginnings of a text without its last brace.
-/

namespace DotLang

/-! ### The tokens of a document -/

namespace Progress

variable {p : Progress} {stop stop' : Position} {t : Token} {ts later : List Token}
  {d d' : Document}

/-- At the end of the text, a document comes of a closed one only. -/
theorem exists_closed_of_finish (h : (p.finish stop).result = .ok d) :
    ∃ document remarks, p = .closed document remarks := by
  rcases finish_result stop p with ⟨document, remarks, hp, -⟩ | ⟨-, e, he⟩
  · exact ⟨document, remarks, hp⟩
  · rw [he] at h
    cases h

/-- Where a document comes of tokens, the first of them is read. -/
theorem exists_step_of_run (h : (p.run stop (t :: ts)).result = .ok d) :
    ∃ q, p.step t = .ok q ∧ (q.run stop ts).result = .ok d := by
  rw [run] at h
  split at h
  · next q hq => exact ⟨q, hq, h⟩
  · cases h

theorem run_legal (h : (p.run stop ts).result = .ok d) : ∀ t ∈ ts, t.kind ≠ .illegal := by
  induction ts generalizing p with
  | nil => exact nofun
  | cons t ts ih =>
    obtain ⟨q, hq, h⟩ := exists_step_of_run h
    exact List.forall_mem_cons.2 ⟨(step_leadsTo hq).ne_illegal, ih h⟩

/-- Behind the tokens of a document there are no more. -/
theorem run_stops (h : (p.run stop ts).result = .ok d)
    (hlater : (p.run stop' (ts ++ later)).result = .ok d') : later = [] := by
  induction ts generalizing p with
  | nil =>
    obtain ⟨document, remarks, rfl⟩ := exists_closed_of_finish h
    cases later with
    | nil => rfl
    | cons t later =>
      obtain ⟨q, hq, -⟩ := exists_step_of_run hlater
      cases hq
  | cons t ts ih =>
    obtain ⟨q, hq, h⟩ := exists_step_of_run h
    obtain ⟨q', hq', hlater⟩ := exists_step_of_run hlater
    obtain rfl := Except.ok.inj (hq.symm.trans hq')
    exact ih h hlater

/-- The last token of a document that is not closed before is a brace. -/
theorem run_closes (h : (p.run stop ts).result = .ok d)
    (hp : ¬∃ document remarks, p = .closed document remarks) :
    ∃ before t, ts = before ++ [t] ∧ t.kind = .rightBrace := by
  induction ts generalizing p with
  | nil => exact absurd (exists_closed_of_finish h) hp
  | cons t ts ih =>
    obtain ⟨q, hq, h⟩ := exists_step_of_run h
    by_cases hclosed : ∃ document remarks, q = .closed document remarks
    · obtain ⟨document, remarks, rfl⟩ := hclosed
      have closed : ((closed document remarks).run stop []).result = .ok document := rfl
      obtain rfl : ts = [] := run_stops closed h
      exact ⟨[], t, rfl, (step_leadsTo hq).rightBrace document remarks rfl⟩
    · obtain ⟨before, last, rfl, hlast⟩ := ih h hclosed
      exact ⟨t :: before, last, rfl, hlast⟩

end Progress

/-! ### The brace that closes a document -/

/-- The token of a closing brace. -/
def Token.brace (p : Position) : Token := ⟨.rightBrace, "\x7d", p⟩

namespace Lexical

variable {lexeme rest value : List Char} {u : List Char} {ts : List Token}

/-- Closing braces are read where they stand alone. -/
theorem Rule.eq_of_rightBrace (h : Rule lexeme rest .rightBrace value) :
    lexeme = ['\x7d'] ∧ value = ['\x7d'] := by
  cases h with
  | @punctuation c _ _ hc =>
    unfold TokenKind.ofPunctuation? at hc
    split at hc
    all_goals first
      | exact ⟨rfl, rfl⟩
      | cases hc

theorem startsSolid_brace (rest : List Char) : StartsSolid ('\x7d' :: rest) :=
  ⟨'\x7d', rest, rfl, by decide⟩

/-- The tokens of a text up to a brace are the same ones whatever is behind it. -/
theorem Cut.pending_eq (h : Cut .start u ts ('\x7d' :: rest)) (rest' : List Char) :
    ∃ later, (Cursor.ofText (u ++ '\x7d' :: rest')).tokens.pending =
      ts ++ Token.brace (Position.start.advanceAll u) :: later := by
  have keeps : Keeps ('\x7d' :: rest) ('\x7d' :: rest') := fun c hc => .inl hc
  have brace : Rule ['\x7d'] rest' .rightBrace ['\x7d'] := .punctuation rest' rfl
  have next : (⟨Position.start.advanceAll u, '\x7d' :: rest'⟩ : Cursor).next =
      (Token.brace (Position.start.advanceAll u),
        ⟨(Position.start.advanceAll u).advance '\x7d', rest'⟩) := by
    rw [Cursor.next, (startsSolid_brace rest').skipTrivia_eq]
    exact (Lexes.rule brace).token_eq _
  rw [Cursor.ofText, (h.change (startsSolid_brace rest) keeps).tokens_eq,
    Cursor.tokens_cons next brace.kind_ne_endOfInput]
  exact ⟨_, rfl⟩

end Lexical

/-! ### Texts with a document -/

variable {text cut : String} {rest : List Char} {d d' : Document}

/-- The last token of a text with a document is a closing brace, and what is before the brace
    is a piece of the text. -/
theorem exists_closingBrace (h : (Parsed.ofText text).result = .ok d) :
    ∃ u v before, text.toList = u ++ '\x7d' :: v ∧
      (Tokens.ofText text).pending = before ++ [Token.brace (Position.start.advanceAll u)] ∧
      Lexical.Cut .start u before ('\x7d' :: v) := by
  obtain ⟨before, t, hpending, ht⟩ := Progress.run_closes h nofun
  have legal := Progress.run_legal h
  rw [hpending] at legal
  obtain ⟨hbefore, hlast⟩ := List.forall_mem_append.1 legal
  obtain ⟨u, lexeme, v, htext, hpiece, hrule, hpos⟩ :=
    Lexical.exists_cut hpending hbefore (hlast t List.mem_cons_self)
  rw [ht] at hrule
  obtain ⟨rfl, hvalue⟩ := hrule.eq_of_rightBrace
  have hvalue : t.value = "\x7d" := String.toList_injective hvalue
  have brace : t = Token.brace (Position.start.advanceAll u) := by
    rw [Token.brace, ← ht, ← hvalue]
    exact congrArg (Token.mk t.kind t.value) hpos
  rw [brace] at hpending
  exact ⟨u, v, before, htext, hpending, hpiece⟩

/-- A text that goes on behind one with a document has the tokens of that text first. -/
theorem exists_pending_append (h : (Parsed.ofText cut).result = .ok d)
    (htext : text.toList = cut.toList ++ rest) :
    ∃ later, (Tokens.ofText text).pending = (Tokens.ofText cut).pending ++ later := by
  obtain ⟨u, v, before, hcut, hpending, hpiece⟩ := exists_closingBrace h
  obtain ⟨later, hlater⟩ := hpiece.pending_eq (v ++ rest)
  refine ⟨later, ?_⟩
  rw [hpending, List.append_assoc, List.singleton_append, ← hlater, Tokens.ofText, htext, hcut,
    List.append_assoc, List.cons_append]

/-- Of two texts with documents, one of which goes on behind the other, the tokens are the
    same ones. -/
theorem pending_eq_of_append (h : (Parsed.ofText cut).result = .ok d)
    (h' : (Parsed.ofText text).result = .ok d') (htext : text.toList = cut.toList ++ rest) :
    (Tokens.ofText text).pending = (Tokens.ofText cut).pending := by
  obtain ⟨later, hlater⟩ := exists_pending_append h htext
  rw [Parsed.ofText, Tokens.parse, hlater] at h'
  rw [hlater, Progress.run_stops h h', List.append_nil]

/-- If a beginning of a text with a document has one too, the last brace of the text is in it. -/
theorem lastBrace_in_beginning {u v : List Char} {before : List Token}
    (h : (Parsed.ofText cut).result = .ok d) (h' : (Parsed.ofText text).result = .ok d')
    (hcut : text.toList = cut.toList ++ rest) (htext : text.toList = u ++ '\x7d' :: v)
    (hpending : (Tokens.ofText text).pending =
      before ++ [Token.brace (Position.start.advanceAll u)]) :
    u ++ ['\x7d'] <+: cut.toList := by
  obtain ⟨u', v', before', hcut', hpending', -⟩ := exists_closingBrace h
  have same := pending_eq_of_append h h' hcut
  rw [hpending, hpending'] at same
  have place : Position.start.advanceAll u = Position.start.advanceAll u' := by
    obtain ⟨-, hbrace⟩ := List.append_inj' same rfl
    exact congrArg Token.pos (List.cons.inj hbrace).1
  have ends : u ++ '\x7d' :: v = u' ++ '\x7d' :: (v' ++ rest) := by
    rw [← htext, hcut, hcut', List.append_assoc, List.cons_append]
  obtain rfl : u = u' := Position.advanceAll_inj place ends
  exact ⟨v', by rw [hcut', List.append_assoc, List.singleton_append]⟩

namespace Graph

/-- The last token of a text with a graph is a closing brace, and no beginning of the text
    without this brace has a graph. -/
theorem ofText_truncated {text : String} {g : Graph} (h : Graph.ofText text = .ok g) :
    ∃ u v before, text.toList = u ++ '\x7d' :: v ∧
      (Tokens.ofText text).pending =
        before ++ [⟨.rightBrace, "\x7d", Position.start.advanceAll u⟩] ∧
      ∀ cut : String, cut.toList <+: u → ∃ e, Graph.ofText cut = .error e := by
  obtain ⟨d, hd, -⟩ := exists_document h
  obtain ⟨u, v, before, htext, hpending, -⟩ := exists_closingBrace hd
  refine ⟨u, v, before, htext, hpending, fun cut hcut => ?_⟩
  cases hresult : Graph.ofText cut with
  | error e => exact ⟨e, rfl⟩
  | ok g' =>
    obtain ⟨d', hd', -⟩ := exists_document hresult
    obtain ⟨missing, hmissing⟩ := hcut
    have goesOn : text.toList = cut.toList ++ (missing ++ '\x7d' :: v) := by
      rw [htext, ← hmissing, List.append_assoc]
    -- The beginning would have to go on behind the brace that it ends before.
    have longer := (lastBrace_in_beginning hd' hd goesOn htext hpending).length_le
    have lengths := congrArg List.length hmissing
    simp only [List.length_append, List.length_singleton] at longer lengths
    omega

/-- A string, an html string and a comment with braces in them: no beginning of the text up to
    the brace that closes it has a graph. -/
theorem hidden_braces_truncated :
    ∃ g, Graph.ofText "graph \x7ba[b=\"\x7d\" c=<\x7d>]\x7d//\x7d" = .ok g ∧
      ∀ cut : String, cut.toList <+: "graph \x7ba[b=\"\x7d\" c=<\x7d>]".toList →
        ∃ e, Graph.ofText cut = .error e := by
  obtain ⟨g, hread, -⟩ := exists_of_toOption_any
    "graph \x7ba[b=\"\x7d\" c=<\x7d>]\x7d//\x7d" (P := fun _ => True)
    (by decide +kernel)
  obtain ⟨u, v, before, htext, hpending, hcut⟩ := ofText_truncated hread
  have last : (Tokens.ofText "graph \x7ba[b=\"\x7d\" c=<\x7d>]\x7d//\x7d").pending.getLast? =
      some ⟨.rightBrace, "\x7d", Position.start.advanceAll
        "graph \x7ba[b=\"\x7d\" c=<\x7d>]".toList⟩ := by
    decide +kernel
  rw [hpending, List.getLast?_concat] at last
  have place := congrArg Token.pos (Option.some.inj last)
  have ends : u ++ '\x7d' :: v =
      "graph \x7ba[b=\"\x7d\" c=<\x7d>]".toList ++ "\x7d//\x7d".toList := by
    rw [← htext]
    rfl
  obtain rfl := Position.advanceAll_inj place ends
  exact ⟨g, hread, hcut⟩

end Graph

end DotLang
