import DotLang.Proofs.Source.Scanning

/-!
# Cutting a text

Tokens are cut off a text from its start, and where a token ends is decided by the
character behind it. So the tokens of a piece of a text do not depend on what is behind
the piece, as long as the character there stays or is white space or a slash. What is
behind depends on the place where it starts only as far as the first column is concerned,
where a `#` starts a comment.

* `Lexical.Cut`: the tokens of a piece of a text, each with the trivia before it;
* `Lexical.Cut.tokens_eq`: the tokens of a text are those of the piece and those behind it;
* `Lexical.exists_cut`: the text before a token is such a piece;
* `Lexical.Cut.change`: what is behind a piece may change;
* `Position.Alike`, `Cursor.lexemes_alike`: places from which a text has the same lexemes.
-/

namespace DotLang

/-! ### Places in a text -/

namespace Position

variable {p q : Position}

/-- Places go on to later lines, or to later columns of a line. -/
theorem lt_advanceAll (p : Position) (cs : List Char) : p.line < (p.advanceAll cs).line ∨
    p.line = (p.advanceAll cs).line ∧ (p.advanceAll cs).col = p.col + cs.length := by
  induction cs generalizing p with
  | nil => exact .inr ⟨rfl, rfl⟩
  | cons c cs ih =>
    rw [advanceAll_cons, List.length_cons]
    by_cases hc : c = '\n'
    · have next : (p.advance c).line = p.line + 1 := by rw [advance, if_pos hc]
      have := ih (p.advance c)
      omega
    · have next : p.advance c = ⟨p.line, p.col + 1⟩ := if_neg hc
      have later := ih (p.advance c)
      rw [next] at later ⊢
      simp only at later
      omega

theorem advanceAll_eq_self {cs : List Char} (h : p.advanceAll cs = p) : cs = [] := by
  have later := p.lt_advanceAll cs
  rw [h] at later
  exact List.eq_nil_of_length_eq_zero (by omega)

/-- A place tells what is before it in a text. -/
theorem advanceAll_inj {u u' v v' : List Char} (h : p.advanceAll u = p.advanceAll u')
    (heq : u ++ v = u' ++ v') : u = u' := by
  rcases List.append_eq_append_iff.1 heq with ⟨w, rfl, -⟩ | ⟨w, rfl, -⟩
  · rw [advanceAll_append] at h
    rw [advanceAll_eq_self h.symm, List.append_nil]
  · rw [advanceAll_append] at h
    rw [advanceAll_eq_self h, List.append_nil]

theorem one_le_col_advanceAll (h : 1 ≤ p.col) (cs : List Char) : 1 ≤ (p.advanceAll cs).col := by
  induction cs generalizing p with
  | nil => exact h
  | cons c cs ih =>
    refine ih ?_
    rw [advance]
    split
    · exact Nat.le_refl 1
    · exact Nat.le_add_left 1 p.col

/-- Whatever is read from one of the places on is in the first column exactly if it is so
    when it is read from the other place on. -/
def Alike (p q : Position) : Prop := p.col = q.col ∨ 1 < p.col ∧ 1 < q.col

theorem Alike.col_iff (h : p.Alike q) : p.col = 1 ↔ q.col = 1 := by
  rcases h with h | h <;> omega

theorem Alike.advance (h : p.Alike q) (c : Char) : (p.advance c).Alike (q.advance c) := by
  rw [Position.advance, Position.advance]
  split
  · exact .inl rfl
  · rcases h with h | h
    · exact .inl (congrArg (· + 1) h)
    · exact .inr ⟨Nat.lt_succ_of_lt h.1, Nat.lt_succ_of_lt h.2⟩

theorem Alike.advanceAll (h : p.Alike q) (cs : List Char) :
    (p.advanceAll cs).Alike (q.advanceAll cs) := by
  induction cs generalizing p q with
  | nil => exact h
  | cons c cs ih => exact ih (h.advance c)

/-- Behind a character other than a newline, no place is in the first column. -/
theorem alike_advance {c : Char} (hp : 1 ≤ p.col) (hq : 1 ≤ q.col) (hc : c ≠ '\n') :
    (p.advance c).Alike (q.advance c) := by
  rw [Position.advance, Position.advance, if_neg hc, if_neg hc]
  exact .inr ⟨Nat.lt_succ_of_le hp, Nat.lt_succ_of_le hq⟩

end Position

namespace Lexical

variable {p : Position} {w lexeme u rest rest' value : List Char} {kind : TokenKind}
  {ts : List Token}

/-! ### What a token starts with -/

/-- The text starts with a character that starts no trivia. -/
def StartsSolid (cs : List Char) : Prop := ∃ c tail, cs = c :: tail ∧ isSolid c

theorem startsSolid_append (h : StartsSolid lexeme) (rest : List Char) :
    StartsSolid (lexeme ++ rest) := by
  obtain ⟨c, tail, rfl, hc⟩ := h
  exact ⟨c, tail ++ rest, rfl, hc⟩

theorem StartsSolid.skipTrivia_eq (h : StartsSolid rest) (p : Position) :
    (⟨p, rest⟩ : Cursor).skipTrivia = ⟨p, rest⟩ := by
  obtain ⟨c, tail, rfl, hc⟩ := h
  exact skipTrivia_of_isSolid hc p tail

theorem Rule.startsSolid (h : Rule lexeme rest kind value) : StartsSolid lexeme := by
  cases h with
  | @punctuation c _ _ hc =>
    refine ⟨c, [], rfl, ?_⟩
    unfold TokenKind.ofPunctuation? at hc
    split at hc
    all_goals first
      | decide
      | cases hc
  | @edgeOp c => exact ⟨'-', [c], rfl, by decide⟩
  | identifier h =>
    cases h.1 with
    | mk hc => exact ⟨_, _, rfl, isSolid_of_startsIdentifier hc⟩
  | number h =>
    obtain ⟨hcs, hmax⟩ := h
    cases hcs with
    | plain hcs =>
      have starts := (scanNumber_of_numeral
        ⟨hcs, fun more hmore hn => hmax more hmore (.plain hn)⟩).1
      obtain ⟨c, ds, rfl⟩ : ∃ c ds, lexeme = c :: ds := by
        cases hcs with
        | whole hne => exact List.exists_cons_of_ne_nil hne
        | point => exact List.exists_cons_of_ne_nil (by simp)
      exact ⟨c, ds, rfl, (scanToken_of_startsNumber starts .start).1⟩
    | negative => exact ⟨'-', _, rfl, by decide⟩
  | string => exact ⟨'"', _, rfl, by decide⟩
  | openString => exact ⟨'"', _, rfl, by decide⟩
  | cutString => exact ⟨'"', _, rfl, by decide⟩
  | html => exact ⟨'<', _, rfl, by decide⟩
  | openHtml => exact ⟨'<', _, rfl, by decide⟩

/-! ### What is behind a piece -/

/-- The text behind a piece changes to one that starts with the same character, or with
    one that can go on with nothing: white space or a slash. -/
def Keeps (rest rest' : List Char) : Prop :=
  ∀ c ∈ rest'.head?, c ∈ rest.head? ∨ isBlank c ∨ c = '/'

theorem Keeps.append (h : Keeps rest rest') (cs : List Char) :
    Keeps (cs ++ rest) (cs ++ rest') := by
  cases cs with
  | nil => exact h
  | cons c cs => exact fun d hd => .inl hd

/-- What is of a class that can be told from the next character is still maximal. -/
theorem Maximal.change {P : List Char → Prop} {cs : List Char} (h : Maximal P cs rest)
    (between : ∀ c more, P cs → P (cs ++ c :: more) → P (cs ++ [c]))
    (apart : ∀ c more, isBlank c ∨ c = '/' → ¬P (cs ++ c :: more)) (hkeeps : Keeps rest rest') :
    Maximal P cs rest' := by
  refine ⟨h.1, fun more hmore hP => ?_⟩
  cases more with
  | nil => rfl
  | cons c more =>
    obtain ⟨tail, rfl⟩ := hmore
    rcases hkeeps c rfl with hc | hc
    · obtain ⟨tail', rfl⟩ := List.head?_eq_some_iff.1 hc
      exact absurd (between c more h.1 hP) h.not_concat
    · exact absurd hP (apart c more hc)

theorem isBlank_eq_false_of_continues {c : Char} (h : continuesIdentifier c) :
    isBlank c = false := by
  simp only [continuesIdentifier, Bool.or_eq_true, beq_iff_eq] at h
  rcases h with (h | h) | rfl
  · exact isBlank_eq_false_of_isAlphabetic h
  · simp only [isNumeric, Bool.or_eq_true, Bool.and_eq_true] at h
    rcases h with h | ⟨-, h⟩
    · exact Number.isBlank_eq_false_of_isDigit h
    · exact not_inRanges_of_disjoint (by decide +kernel) h
  · decide

theorem not_continues_of_apart {c : Char} (h : isBlank c ∨ c = '/') : ¬continuesIdentifier c := by
  rcases h with h | rfl
  · intro hc
    rw [isBlank_eq_false_of_continues hc] at h
    cases h
  · decide

theorem word_change (h : Maximal Word lexeme rest) (hkeeps : Keeps rest rest') :
    Maximal Word lexeme rest' := by
  refine h.change (fun c more hword hmore => ?_) (fun c more hc hmore => ?_) hkeeps
  · have hc := continuesIdentifier_of_word hmore c (by simp)
    cases hword with
    | mk hstart hcs => exact .mk hstart (List.forall_mem_append.2 ⟨hcs, by simpa using hc⟩)
  · exact not_continues_of_apart hc (continuesIdentifier_of_word hmore c (by simp))

/-- What a numeral is made of. -/
theorem isDigit_or_of_numeral {cs : List Char} (h : Numeral cs) :
    ∀ c ∈ cs, c.isDigit ∨ c = '.' := by
  cases h with
  | whole _ hds => exact fun c hc => .inl (hds c hc)
  | point _ hds hes =>
    refine List.forall_mem_append.2 ⟨fun c hc => .inl (hds c hc), List.forall_mem_cons.2 ?_⟩
    exact ⟨.inr rfl, fun c hc => .inl (hes c hc)⟩

theorem numeral_ne_nil {cs : List Char} (h : Numeral cs) : cs ≠ [] := by
  cases h with
  | whole hne => exact hne
  | point => simp

theorem count_point_le_one {cs : List Char} (h : Numeral cs) : cs.count '.' ≤ 1 := by
  have none : ∀ {ds : List Char}, Digits ds → ds.count '.' = 0 := fun hds =>
    List.count_eq_zero.2 fun hmem => absurd (hds _ hmem) (by decide)
  cases h with
  | whole _ hds =>
    rw [none hds]
    exact Nat.zero_le 1
  | @point ds es _ hds hes =>
    have one : (ds ++ '.' :: es).count '.' = 0 + (0 + 1) := by
      rw [List.count_append, List.count_cons_self, none hds, none hes]
    exact Nat.le_of_eq one

/-- A numeral that goes on with more characters to one goes on with the first of them. -/
theorem numeral_between {cs more : List Char} {c : Char} (h : Numeral cs)
    (hmore : Numeral (cs ++ c :: more)) : Numeral (cs ++ [c]) := by
  have all := List.forall_mem_append.1 (isDigit_or_of_numeral hmore)
  rcases (List.forall_mem_cons.1 all.2).1 with hc | rfl
  · cases h with
    | whole hne hds => exact .whole (by simp) (digits_concat hds hc)
    | point _ hds hes =>
      rw [List.append_assoc, List.cons_append]
      exact .point (.inr (by simp)) hds (digits_concat hes hc)
  · -- The period is the only one, so there are digits before it.
    have one := count_point_le_one hmore
    rw [List.count_append, List.count_cons_self] at one
    have no_point : '.' ∉ cs := List.count_eq_zero.1 (by omega)
    have digits : Digits cs := fun c hc =>
      (isDigit_or_of_numeral h c hc).resolve_right fun heq => no_point (heq ▸ hc)
    exact .point (.inl (numeral_ne_nil h)) digits nofun

theorem not_numeral_hyphen {cs : List Char} : ¬Numeral ('-' :: cs) := fun h =>
  absurd (isDigit_or_of_numeral h '-' List.mem_cons_self) (by decide)

theorem signedNumeral_between {cs more : List Char} {c : Char} (h : SignedNumeral cs)
    (hmore : SignedNumeral (cs ++ c :: more)) : SignedNumeral (cs ++ [c]) := by
  cases h with
  | plain h =>
    obtain ⟨d, ds, rfl⟩ := List.exists_cons_of_ne_nil (numeral_ne_nil h)
    rw [List.cons_append] at hmore
    cases hmore with
    | plain hmore => exact .plain (numeral_between h hmore)
    | negative => exact absurd h not_numeral_hyphen
  | negative h =>
    rw [List.cons_append] at hmore ⊢
    cases hmore with
    | plain hmore => exact absurd hmore not_numeral_hyphen
    | negative hmore => exact .negative (numeral_between h hmore)

theorem isBlank_eq_false_of_signedNumeral {cs : List Char} (h : SignedNumeral cs) :
    ∀ c ∈ cs, isBlank c = false ∧ c ≠ '/' := by
  have numeral : ∀ {cs : List Char}, Numeral cs → ∀ c ∈ cs, isBlank c = false ∧ c ≠ '/' := by
    intro cs h c hc
    rcases isDigit_or_of_numeral h c hc with hd | rfl
    · refine ⟨Number.isBlank_eq_false_of_isDigit hd, ?_⟩
      rintro rfl
      revert hd
      decide
    · decide
  cases h with
  | plain h => exact numeral h
  | negative h => exact List.forall_mem_cons.2 ⟨by decide, numeral h⟩

theorem signedNumeral_change (h : Maximal SignedNumeral lexeme rest) (hkeeps : Keeps rest rest') :
    Maximal SignedNumeral lexeme rest' := by
  refine h.change (fun c more => signedNumeral_between) (fun c more hc hmore => ?_) hkeeps
  obtain ⟨hblank, hslash⟩ := isBlank_eq_false_of_signedNumeral hmore c (by simp)
  rcases hc with hc | hc
  · rw [hblank] at hc
    cases hc
  · exact hslash hc

/-- What is behind a token of a text may change. -/
theorem Rule.change (h : Rule lexeme rest kind value) (hne : rest ≠ [])
    (hkeeps : Keeps rest rest') : Rule lexeme rest' kind value := by
  cases h with
  | punctuation _ hc => exact .punctuation rest' hc
  | edgeOp _ hc => exact .edgeOp rest' hc
  | identifier h => exact .identifier (word_change h hkeeps)
  | number h => exact .number (signedNumeral_change h hkeeps)
  | string _ h => exact .string rest' h
  | html _ hnested hcount => exact .html rest' hnested hcount
  | openString => exact absurd rfl hne
  | cutString => exact absurd rfl hne
  | openHtml => exact absurd rfl hne

/-- A line ends before the character that a token starts with only by its newline. -/
theorem restOfLine_change {body : List Char} (h : RestOfLine body (w ++ rest))
    (hsolid : StartsSolid rest) (rest' : List Char) : RestOfLine body (w ++ rest') := by
  obtain ⟨hbody, hnext⟩ := restOfLine_iff.1 h
  cases w with
  | nil =>
    obtain ⟨c, tail, rfl, hc⟩ := hsolid
    obtain rfl := hnext c rfl
    exact absurd hc (by decide)
  | cons d w => exact restOfLine_iff.2 ⟨hbody, hnext⟩

/-- A comment that is never closed is not in front of a token. -/
theorem Piece.change {v behind : List Char} (h : Piece p v behind) (heq : behind = w ++ rest)
    (hsolid : StartsSolid rest) (rest' : List Char) : Piece p v (w ++ rest') := by
  cases h with
  | blank _ hc => exact .blank _ hc
  | lineComment hline => exact .lineComment (restOfLine_change (heq ▸ hline) hsolid rest')
  | hashLine hcol hline => exact .hashLine hcol (restOfLine_change (heq ▸ hline) hsolid rest')
  | blockComment _ hbody => exact .blockComment _ hbody
  | openComment =>
    obtain ⟨c, tail, rfl, -⟩ := hsolid
    exact absurd heq.symm (by simp)

/-- What is behind trivia may change if it starts a token. -/
theorem Trivia.change (h : Trivia p w rest) (hsolid : StartsSolid rest) (rest' : List Char) :
    Trivia p w rest' := by
  induction h with
  | nil p => exact .nil p rest'
  | cons hpiece _ ih => exact .cons (hpiece.change rfl hsolid rest') (ih hsolid)

theorem Trivia.append {v w rest : List Char} {p : Position} (h : Trivia p v (w ++ rest))
    (h' : Trivia (p.advanceAll v) w rest) : Trivia p (v ++ w) rest := by
  generalize hbehind : w ++ rest = behind at h
  induction h with
  | nil p => exact h'
  | cons hpiece _ ih =>
    subst hbehind
    rw [Position.advanceAll_append] at h'
    rw [List.append_assoc]
    exact .cons (by rwa [List.append_assoc]) (ih h' rfl)

/-! ### Pieces of a text -/

/-- A piece of a text at a place: tokens, each with the trivia before it, and perhaps trivia
    behind them, in front of the text behind the piece. -/
inductive Cut : Position → List Char → List Token → List Char → Prop
  | trivia {p : Position} {w rest : List Char} : Trivia p w rest → Cut p w [] rest
  | token {p : Position} {w lexeme u rest value : List Char} {kind : TokenKind}
      {ts : List Token} : Trivia p w (lexeme ++ (u ++ rest)) → Rule lexeme (u ++ rest) kind value →
      Cut (p.advanceAll (w ++ lexeme)) u ts rest →
      Cut p (w ++ (lexeme ++ u)) (⟨kind, String.ofList value, p.advanceAll w⟩ :: ts) rest

namespace Cut

/-- What is behind a piece may change if a token starts there. -/
theorem change (h : Cut p u ts rest) (hsolid : StartsSolid rest) (hkeeps : Keeps rest rest') :
    Cut p u ts rest' := by
  have hne : rest ≠ [] := by
    obtain ⟨c, tail, rfl, -⟩ := hsolid
    exact List.cons_ne_nil c tail
  induction h with
  | trivia h => exact .trivia (h.change hsolid rest')
  | token htrivia hrule _ ih =>
    refine .token ?_ (hrule.change (by simp [hne]) (hkeeps.append _)) (ih hsolid hkeeps hne)
    have htrivia := htrivia.change (startsSolid_append hrule.startsSolid _)
    exact htrivia _

/-- Trivia behind a piece may come to it. -/
theorem append_trivia (h : Cut p u ts (w ++ rest)) (h' : Trivia (p.advanceAll u) w rest) :
    Cut p (u ++ w) ts rest := by
  generalize hbehind : w ++ rest = behind at h
  induction h with
  | trivia h =>
    subst hbehind
    exact .trivia (h.append h')
  | @token p before lexeme u _ _ _ _ htrivia hrule _ ih =>
    subst hbehind
    rw [← List.append_assoc u] at htrivia hrule
    rw [← List.append_assoc before, Position.advanceAll_append] at h'
    rw [List.append_assoc, List.append_assoc]
    exact .token htrivia hrule (ih h' rfl)

end Cut

/-- Where a token by the rules is, it is read. -/
theorem Lexes.token_eq (h : Lexes lexeme rest kind value) (p : Position) :
    (⟨p, lexeme ++ rest⟩ : Cursor).token =
      (⟨kind, String.ofList value, p⟩, ⟨p.advanceAll lexeme, rest⟩) := by
  obtain ⟨lexeme', rest', kind', value', heq, htoken, -, -, hlex⟩ :=
    exists_token p (lexeme ++ rest)
  have hlex := hlex (List.append_ne_nil_of_left_ne_nil h.ne_nil rest)
  obtain ⟨rfl, rfl, rfl⟩ := h.unique hlex heq.symm
  obtain rfl := List.append_cancel_left heq
  exact htoken

end Lexical

/-! ### The tokens of a piece -/

namespace Cursor

variable {c d : Cursor} {t : Token}

theorem tokens_congr (h : c.next = d.next) : c.tokens = d.tokens := by
  rw [tokens.eq_def c, tokens.eq_def d, h]

theorem tokens_cons (h : c.next = (t, d)) (ht : t.kind ≠ .endOfInput) :
    c.tokens = ⟨t :: d.tokens.pending, d.tokens.stop⟩ := by
  rw [tokens, h, dif_neg ht]

end Cursor

namespace Lexical

variable {p : Position} {u rest : List Char} {ts : List Token}

/-- Trivia before a cursor is skipped, and then a token is read. -/
theorem next_of_trivia {w : List Char} (h : Trivia p w rest) :
    (⟨p, w ++ rest⟩ : Cursor).next = (⟨p.advanceAll w, rest⟩ : Cursor).next :=
  congrArg Cursor.token (skip_of_trivia h)

/-- The tokens of a text are those of a piece of it and those behind the piece. -/
theorem Cut.tokens_eq (h : Cut p u ts rest) : (⟨p, u ++ rest⟩ : Cursor).tokens =
    ⟨ts ++ (⟨p.advanceAll u, rest⟩ : Cursor).tokens.pending,
      (⟨p.advanceAll u, rest⟩ : Cursor).tokens.stop⟩ := by
  induction h with
  | trivia h => exact Cursor.tokens_congr (next_of_trivia h)
  | @token p w lexeme u rest value kind ts htrivia hrule _ ih =>
    have next : (⟨p, w ++ (lexeme ++ u) ++ rest⟩ : Cursor).next =
        (⟨kind, String.ofList value, p.advanceAll w⟩,
          ⟨p.advanceAll (w ++ lexeme), u ++ rest⟩) := by
      have solid := startsSolid_append hrule.startsSolid (u ++ rest)
      rw [List.append_assoc, List.append_assoc, next_of_trivia htrivia, Cursor.next,
        solid.skipTrivia_eq, (Lexes.rule hrule).token_eq, Position.advanceAll_append]
    rw [Cursor.tokens_cons next hrule.kind_ne_endOfInput, ih, ← Position.advanceAll_append,
      List.append_assoc]
    rfl

/-- A token that is read comes behind trivia, by a rule unless it is illegal. -/
theorem exists_rule_of_tokens {c : Cursor} {t : Token} {later : List Token}
    (h : c.tokens.pending = t :: later) (ht : t.kind ≠ .illegal) :
    ∃ w lexeme rest, c.rest = w ++ (lexeme ++ rest) ∧ Trivia c.pos w (lexeme ++ rest) ∧
      Rule lexeme rest t.kind t.value.toList ∧ t.pos = c.pos.advanceAll w ∧
      (⟨c.pos.advanceAll (w ++ lexeme), rest⟩ : Cursor).tokens.pending = later := by
  obtain ⟨w, behind, heq, hlongest, hskip⟩ := exists_longestTrivia c
  obtain ⟨lexeme, rest, kind, value, rfl, htoken, hend, -, hlex⟩ :=
    exists_token (c.pos.advanceAll w) behind
  have next : c.next = _ := (congrArg Cursor.token hskip).trans htoken
  by_cases hkind : kind = .endOfInput
  · rw [Cursor.tokens, next, dif_pos hkind] at h
    cases h
  · rw [Cursor.tokens_cons next hkind] at h
    obtain ⟨rfl, hlater⟩ := List.cons.inj h
    cases hlex (fun hnil => hkind (hend.2 hnil)) with
    | rule hrule =>
      refine ⟨w, lexeme, rest, heq, hlongest.1, ?_, rfl, ?_⟩
      · rwa [String.toList_ofList]
      · rwa [Position.advanceAll_append]
    | illegal => exact absurd rfl ht

/-- The text before a token is a piece of the text, if there is nothing illegal in it. -/
theorem exists_cut {c : Cursor} {t : Token} {later : List Token}
    (h : c.tokens.pending = ts ++ t :: later) (legal : ∀ s ∈ ts, s.kind ≠ .illegal)
    (ht : t.kind ≠ .illegal) :
    ∃ u lexeme rest, c.rest = u ++ (lexeme ++ rest) ∧ Cut c.pos u ts (lexeme ++ rest) ∧
      Rule lexeme rest t.kind t.value.toList ∧ t.pos = c.pos.advanceAll u := by
  induction ts generalizing c with
  | nil =>
    obtain ⟨w, lexeme, rest, heq, htrivia, hrule, hpos, -⟩ := exists_rule_of_tokens h ht
    exact ⟨w, lexeme, rest, heq, .trivia htrivia, hrule, hpos⟩
  | cons s ts ih =>
    obtain ⟨hs, hts⟩ := List.forall_mem_cons.1 legal
    obtain ⟨w, first, behind, heq, htrivia, hfirst, hpos, hlater⟩ := exists_rule_of_tokens h hs
    obtain ⟨u, lexeme, rest, rfl, hcut, hrule, hpos'⟩ := ih hlater hts
    refine ⟨w ++ (first ++ u), lexeme, rest, by simp [heq], ?_, hrule, ?_⟩
    · have cut := Cut.token htrivia hfirst hcut
      rwa [String.ofList_toList, ← hpos] at cut
    · rw [hpos', ← Position.advanceAll_append, List.append_assoc]

end Lexical

/-! ### Reading from different places -/

variable {p q : Position}

/-- From alike places on, the same is skipped. -/
theorem Gap.skip_alike (g : Gap) (h : p.Alike q) (cs : List Char) :
    ∃ w rest, g.skip p cs = ⟨p.advanceAll w, rest⟩ ∧ g.skip q cs = ⟨q.advanceAll w, rest⟩ := by
  fun_induction Gap.skip g p cs generalizing q with
  | case1 p cs ih =>
    obtain ⟨w, rest, hp, hq⟩ := ih ((h.advance '/').advance '/')
    exact ⟨'/' :: '/' :: w, rest, hp, by rw [Gap.skip, hq]; rfl⟩
  | case2 p cs ih =>
    obtain ⟨w, rest, hp, hq⟩ := ih ((h.advance '/').advance '*')
    exact ⟨'/' :: '*' :: w, rest, hp, by rw [Gap.skip, hq]; rfl⟩
  | case3 p c cs hline hblock hc ih =>
    obtain ⟨w, rest, hp, hq⟩ := ih (h.advance c)
    exact ⟨c :: w, rest, hp, by rw [Lexical.skip_blank hc, hq]; rfl⟩
  | case4 p c cs hline hblock hc hhash ih =>
    obtain ⟨w, rest, hp, hq⟩ := ih (h.advance c)
    obtain ⟨rfl, hcol⟩ := hhash
    refine ⟨'#' :: w, rest, hp, ?_⟩
    rw [skip_of_ne_slash (by decide), if_neg (by decide), if_pos ⟨rfl, h.col_iff.1 hcol⟩, hq]
    rfl
  | case5 p c cs hline hblock hc hhash =>
    refine ⟨[], c :: cs, rfl, ?_⟩
    rw [Gap.skip, if_neg hc, if_neg fun hq => hhash ⟨hq.1, h.col_iff.2 hq.2⟩]
    · rfl
    · exact hline
    · exact hblock
  | case6 p c cs ih =>
    obtain ⟨w, rest, hp, hq⟩ := ih (h.advance c)
    exact ⟨c :: w, rest, hp, by rw [Gap.skip, hq]; rfl⟩
  | case7 p cs ih =>
    obtain ⟨w, rest, hp, hq⟩ := ih ((h.advance '*').advance '/')
    exact ⟨'*' :: '/' :: w, rest, hp, by rw [Gap.skip, hq]; rfl⟩
  | case8 p c cs hclose ih =>
    obtain ⟨w, rest, hp, hq⟩ := ih (h.advance c)
    refine ⟨c :: w, rest, hp, ?_⟩
    rw [Gap.skip, hq]
    · rfl
    · exact hclose
  | case9 g p =>
    refine ⟨[], [], rfl, ?_⟩
    rw [Gap.skip]
    rfl

namespace Cursor

variable {c : Cursor} {cs : List Char}

theorem lexemes_eq_nil (h : c.skipTrivia = ⟨p, []⟩) : c.lexemes = [] := by
  rw [lexemes_eq, next, h]
  exact if_pos rfl

theorem lexemes_eq_cons {lexeme rest value : List Char} {kind : TokenKind}
    (h : c.skipTrivia = ⟨p, lexeme ++ rest⟩) (hlex : Lexical.Lexes lexeme rest kind value) :
    c.lexemes =
      ⟨kind, String.ofList value⟩ :: (⟨p.advanceAll lexeme, rest⟩ : Cursor).lexemes := by
  rw [lexemes_eq, next, h, hlex.token_eq]
  exact if_neg hlex.kind_ne_endOfInput

/-- From alike places on, a text has the same lexemes. -/
theorem lexemes_alike {p q : Position} (h : p.Alike q) (cs : List Char) :
    (⟨p, cs⟩ : Cursor).lexemes = (⟨q, cs⟩ : Cursor).lexemes := by
  obtain ⟨w, behind, hp, hq⟩ := Gap.clear.skip_alike h cs
  have hp : (⟨p, cs⟩ : Cursor).skipTrivia = ⟨p.advanceAll w, behind⟩ := hp
  have hq : (⟨q, cs⟩ : Cursor).skipTrivia = ⟨q.advanceAll w, behind⟩ := hq
  by_cases hnil : behind = []
  · subst hnil
    rw [lexemes_eq_nil hp, lexemes_eq_nil hq]
  · obtain ⟨lexeme, rest, kind, value, rfl, -, -, -, hlex⟩ := Lexical.exists_token p behind
    have hlex := hlex hnil
    have shorter : rest.length < cs.length := by
      obtain ⟨v, hv, -⟩ := (⟨p, cs⟩ : Cursor).skipTrivia_reaches
      rw [hp] at hv
      have lengths := congrArg List.length hv
      have := List.length_pos_iff.2 hlex.ne_nil
      simp only [List.length_append] at lengths
      omega
    rw [lexemes_eq_cons hp hlex, lexemes_eq_cons hq hlex,
      lexemes_alike ((h.advanceAll w).advanceAll lexeme) rest]
termination_by cs.length

/-- From wherever a token starts, a text has the same lexemes. -/
theorem lexemes_of_startsSolid (h : Lexical.StartsSolid cs) (hp : 1 ≤ p.col) (hq : 1 ≤ q.col) :
    (⟨p, cs⟩ : Cursor).lexemes = (⟨q, cs⟩ : Cursor).lexemes := by
  have hne : cs ≠ [] := by
    obtain ⟨c, tail, rfl, -⟩ := h
    exact List.cons_ne_nil c tail
  obtain ⟨lexeme, rest, kind, value, rfl, -, -, -, hlex⟩ := Lexical.exists_token p cs
  have hlex := hlex hne
  rw [lexemes_eq_cons (h.skipTrivia_eq p) hlex, lexemes_eq_cons (h.skipTrivia_eq q) hlex]
  congr 1
  refine lexemes_alike ?_ rest
  -- Behind its first character, the token is in no first column.
  obtain ⟨c, tail, rfl⟩ := List.exists_cons_of_ne_nil hlex.ne_nil
  obtain ⟨d, behind, heq, hd⟩ := h
  obtain ⟨rfl, -⟩ := List.cons.inj heq
  have hnewline : c ≠ '\n' := by
    rintro rfl
    exact absurd hd (by decide)
  exact (Position.alike_advance hp hq hnewline).advanceAll tail

end Cursor

end DotLang
