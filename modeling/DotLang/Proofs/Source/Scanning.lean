import DotLang.Proofs.Listing.Spelling
import DotLang.Proofs.Source.LexicalRules

/-!
# What scanning finds

Skipping trivia and scanning a token do what the lexical rules say. Each scanner is
complete: where a rule holds, it finds what the rule says. Since a rule or the lack of
one decides about every text, what is found is then all that there is.

* `Lexical.skip_of_trivia`, `Lexical.exists_trivia`: as much trivia is skipped as there
  is;
* `Lexical.Rule.scanToken_eq`: where a rule holds, its token is scanned;
* `Lexical.lexes_scanToken`: a token that is scanned is one by the rules;
* `Lexical.exists_token`: what reading a token takes from a text;
* `Lexer.next_splits`: what reading a token does, after any reading before.
-/

namespace DotLang

namespace Lexical

/-! ### Maximal pieces -/

variable {P : List Char → Prop} {cs rest : List Char} {p : Position}

theorem Maximal.not_concat {c : Char} (h : Maximal P cs (c :: rest)) : ¬P (cs ++ [c]) := by
  intro hc
  have := h.2 [c] ⟨rest, rfl⟩ hc
  cases this

/-- Characters that each are of a class go on up to the first that is not. -/
theorem maximal_forall_iff {f : Char → Prop} :
    Maximal (fun cs => ∀ c ∈ cs, f c) cs rest ↔
      (∀ c ∈ cs, f c) ∧ ∀ c ∈ rest.head?, ¬f c := by
  constructor
  · intro h
    refine ⟨h.1, ?_⟩
    rintro c hc hf
    obtain ⟨tail, rfl⟩ := List.head?_eq_some_iff.1 hc
    exact h.not_concat (List.forall_mem_append.2 ⟨h.1, by simpa using hf⟩)
  · rintro ⟨hcs, hrest⟩
    refine ⟨hcs, fun more hmore h => ?_⟩
    cases more with
    | nil => rfl
    | cons c more =>
      obtain ⟨tail, rfl⟩ := hmore
      exact absurd (h c (by simp)) (hrest c rfl)

theorem restOfLine_iff : RestOfLine cs rest ↔ '\n' ∉ cs ∧ ∀ c ∈ rest.head?, c = '\n' := by
  have class_iff : (fun cs : List Char => '\n' ∉ cs) = fun cs => ∀ c ∈ cs, c ≠ '\n' := by
    funext cs
    exact propext ⟨fun h c hc heq => h (heq ▸ hc), fun h hc => h _ hc rfl⟩
  rw [RestOfLine, class_iff, maximal_forall_iff]
  simp only [ne_eq, Classical.not_not]
  exact and_congr_left fun _ => iff_of_eq (congrFun class_iff cs).symm

/-! ### Trivia is skipped -/

theorem skip_blank {c : Char} (h : isBlank c) (p : Position) (cs : List Char) :
    Gap.clear.skip p (c :: cs) = Gap.clear.skip (p.advance c) cs := by
  rw [skip_of_ne_slash (ne_slash_of_isBlank h), if_pos h]

/-- The newline behind a line is trivia itself. -/
theorem skip_restOfLine (h : RestOfLine cs rest) (p : Position) :
    Gap.line.skip p (cs ++ rest) = Gap.clear.skip (p.advanceAll cs) rest := by
  obtain ⟨hcs, hrest⟩ := restOfLine_iff.1 h
  clear h
  induction cs generalizing p with
  | nil =>
    cases rest with
    | nil => rw [List.nil_append, Gap.skip, Position.advanceAll_nil, Gap.skip]
    | cons c rest =>
      obtain rfl := hrest c rfl
      rw [List.nil_append, Position.advanceAll_nil, skip_blank (by decide), Gap.skip, if_pos rfl]
  | cons c cs ih =>
    obtain ⟨hc, hcs⟩ := not_or.1 (mt List.mem_cons.2 hcs)
    rw [List.cons_append, Gap.skip, if_neg (Ne.symm hc), ih _ hcs, Position.advanceAll_cons]

theorem Unclosed.tail {c : Char} (h : Unclosed (c :: cs)) : Unclosed cs :=
  fun hcs => h (List.infix_cons hcs)

/-- Where a comment is still open, what comes next does not close it. -/
theorem Unclosed.skip_cons {c : Char} (h : Unclosed (c :: cs)) (hrest : rest.head? ≠ some '/')
    (p : Position) :
    Gap.block.skip p (c :: (cs ++ rest)) = Gap.block.skip (p.advance c) (cs ++ rest) := by
  rw [Gap.skip]
  rintro tail rfl heq
  cases cs with
  | nil => exact hrest (by rw [List.nil_append] at heq; rw [heq]; rfl)
  | cons d cs =>
    obtain ⟨rfl, -⟩ := List.cons.inj heq
    exact h ⟨[], cs, rfl⟩

theorem skip_blockComment (h : Unclosed cs) (p : Position) :
    Gap.block.skip p (cs ++ '*' :: '/' :: rest) =
      Gap.clear.skip (p.advanceAll (cs ++ ['*', '/'])) rest := by
  induction cs generalizing p with
  | nil => rw [List.nil_append, Gap.skip]; rfl
  | cons c cs ih =>
    rw [List.cons_append, h.skip_cons (by simp), ih h.tail]
    rfl

theorem skip_openComment (h : Unclosed cs) (p : Position) :
    Gap.block.skip p cs = ⟨p.advanceAll cs, []⟩ := by
  induction cs generalizing p with
  | nil => rw [Gap.skip, Position.advanceAll_nil]
  | cons c cs ih =>
    have step : Gap.block.skip p (c :: (cs ++ [])) = Gap.block.skip (p.advance c) (cs ++ []) :=
      h.skip_cons (by simp) p
    rw [List.append_nil] at step
    rw [step, ih h.tail, Position.advanceAll_cons]

/-- A piece of trivia is skipped. -/
theorem skip_of_piece {v tail : List Char} (h : Piece p v tail) :
    Gap.clear.skip p (v ++ tail) = Gap.clear.skip (p.advanceAll v) tail := by
  cases h with
  | blank _ hc => exact skip_blank hc p tail
  | lineComment hline =>
    rw [List.cons_append, List.cons_append, Gap.skip, skip_restOfLine hline]
    rfl
  | hashLine hcol hline =>
    rw [List.cons_append, skip_of_ne_slash (by decide), if_neg (by decide), if_pos ⟨rfl, hcol⟩,
      skip_restOfLine hline]
    rfl
  | blockComment _ hbody =>
    rw [List.cons_append, List.cons_append, List.append_assoc, Gap.skip]
    exact skip_blockComment hbody _
  | openComment hbody =>
    rw [List.append_nil, Gap.skip, skip_openComment hbody, Gap.skip]
    rfl

/-- All trivia is skipped. -/
theorem skip_of_trivia {w : List Char} (h : Trivia p w rest) :
    Gap.clear.skip p (w ++ rest) = Gap.clear.skip (p.advanceAll w) rest := by
  induction h with
  | nil p rest => rfl
  | cons hpiece _ ih =>
    rw [List.append_assoc, skip_of_piece hpiece, ih, Position.advanceAll_append]

/-! ### Nothing else is skipped -/

theorem exists_restOfLine (cs : List Char) :
    ∃ body rest, cs = body ++ rest ∧ RestOfLine body rest := by
  refine ⟨cs.takeWhile (· != '\n'), cs.dropWhile (· != '\n'),
    List.takeWhile_append_dropWhile.symm, restOfLine_iff.2 ⟨fun h => ?_, fun c hc => ?_⟩⟩
  · have := List.all_eq_true.1 List.all_takeWhile _ h
    simp at this
  · have := List.head?_dropWhile_not (· != '\n') cs
    rw [hc] at this
    simpa using this

/-- A comment ends at the first place where it can. -/
theorem unclosed_or_exists_eq (cs : List Char) :
    Unclosed cs ∨ ∃ body rest, cs = body ++ '*' :: '/' :: rest ∧ Unclosed body := by
  induction cs with
  | nil => exact .inl (by simp [Unclosed])
  | cons c cs ih =>
    by_cases hclose : ['*', '/'] <+: c :: cs
    · obtain ⟨rest, hrest⟩ := hclose
      exact .inr ⟨[], rest, hrest.symm, by simp [Unclosed]⟩
    rcases ih with h | ⟨body, rest, rfl, h⟩
    · exact .inl fun hc => (List.infix_cons_iff.1 hc).elim hclose h
    · refine .inr ⟨c :: body, rest, rfl, fun hc => ?_⟩
      refine (List.infix_cons_iff.1 hc).elim (fun hpre => hclose ?_) h
      exact hpre.trans (by rw [← List.cons_append]; exact List.prefix_append _ _)

/-- Where no piece of trivia starts, nothing is skipped. -/
theorem exists_piece_or_skip_eq (p : Position) (cs : List Char) :
    (∃ v tail, v ≠ [] ∧ cs = v ++ tail ∧ Piece p v tail) ∨ Gap.clear.skip p cs = ⟨p, cs⟩ := by
  unfold Gap.skip
  split
  -- A slash starts a comment if a slash or a star follows.
  · next cs _ =>
    obtain ⟨body, rest, rfl, hline⟩ := exists_restOfLine cs
    exact .inl ⟨'/' :: '/' :: body, rest, List.cons_ne_nil _ _, rfl, .lineComment hline⟩
  · next cs _ =>
    rcases unclosed_or_exists_eq cs with h | ⟨body, rest, rfl, h⟩
    · exact .inl ⟨_, [], List.cons_ne_nil _ _, (List.append_nil _).symm, .openComment h⟩
    · exact .inl ⟨'/' :: '*' :: (body ++ ['*', '/']), rest, List.cons_ne_nil _ _, by simp,
        .blockComment rest h⟩
  · next c cs _ _ _ =>
    split
    · next hc => exact .inl ⟨[c], cs, List.cons_ne_nil _ _, rfl, .blank cs hc⟩
    split
    · next hc =>
      obtain ⟨rfl, hcol⟩ := hc
      obtain ⟨body, rest, rfl, hline⟩ := exists_restOfLine cs
      exact .inl ⟨'#' :: body, rest, List.cons_ne_nil _ _, rfl, .hashLine hcol hline⟩
    · exact .inr rfl
  · next h => cases h
  · next h => cases h
  · next h => cases h
  · exact .inr rfl

/-- What is skipped is trivia. -/
theorem exists_trivia (p : Position) (cs : List Char) :
    ∃ w rest, cs = w ++ rest ∧ Trivia p w rest ∧ Gap.clear.skip p cs = ⟨p.advanceAll w, rest⟩ := by
  rcases exists_piece_or_skip_eq p cs with ⟨v, tail, hv, rfl, hpiece⟩ | h
  · have : tail.length < (v ++ tail).length := by
      have := List.length_pos_iff.2 hv
      rw [List.length_append]
      omega
    obtain ⟨w, rest, rfl, htrivia, hskip⟩ := exists_trivia (p.advanceAll v) tail
    refine ⟨v ++ w, rest, (List.append_assoc _ _ _).symm, .cons hpiece htrivia, ?_⟩
    rw [skip_of_piece hpiece, hskip, Position.advanceAll_append]
  · exact ⟨[], cs, rfl, .nil p cs, h⟩
termination_by cs.length

/-- As much is skipped as there is trivia. -/
theorem exists_longestTrivia (c : Cursor) :
    ∃ w rest, c.rest = w ++ rest ∧ LongestTrivia c.pos w rest ∧
      c.skipTrivia = ⟨c.pos.advanceAll w, rest⟩ := by
  obtain ⟨w, rest, heq, htrivia, hskip⟩ := exists_trivia c.pos c.rest
  refine ⟨w, rest, heq, ⟨htrivia, fun w' rest' heq' htrivia' => ?_⟩, hskip⟩
  -- Other trivia is skipped as well, and then what is skipped ends behind it.
  have skip' := skip_of_trivia htrivia'
  rw [heq', ← heq, hskip] at skip'
  obtain ⟨u, hu, -⟩ := Gap.clear.skip_reaches (c.pos.advanceAll w') rest'
  rw [← skip'] at hu
  have hu : rest' = u ++ rest := hu
  have lengths := congrArg List.length heq'
  have lengths' := congrArg List.length hu
  simp only [List.length_append] at lengths lengths'
  omega

/-! ### Where rules hold, their tokens are scanned -/

theorem continuesIdentifier_of_word (h : Word cs) : ∀ c ∈ cs, continuesIdentifier c := by
  cases h with
  | mk hc hcs => exact List.forall_mem_cons.2 ⟨continues_of_starts hc, hcs⟩

theorem scanToken_of_word {c : Char} (h : Maximal Word (c :: cs) rest) (p : Position) :
    ∃ q, scanToken p c (cs ++ rest) = (.identifier, c :: cs, ⟨q, rest⟩) := by
  have stop : ∀ d ∈ rest.head?, continuesIdentifier d = false := by
    intro d hd
    obtain ⟨tail, rfl⟩ := List.head?_eq_some_iff.1 hd
    refine Bool.eq_false_iff.2 fun hd => h.not_concat ?_
    cases h.1 with
    | mk hc hcs => exact .mk hc (List.forall_mem_append.2 ⟨hcs, by simpa using hd⟩)
  cases h.1 with
  | mk hc hcs =>
    refine ⟨p.advanceAll (c :: cs), ?_⟩
    rw [scanToken_of_startsIdentifier hc, ← List.cons_append,
      scanWhile_append (continuesIdentifier_of_word h.1) stop]

theorem digits_concat {c : Char} (h : Digits cs) (hc : c.isDigit) : Digits (cs ++ [c]) :=
  List.forall_mem_append.2 ⟨h, by simpa using hc⟩

/-- A numeral starts as one and is scanned to its end. -/
theorem scanNumber_of_numeral (h : Maximal Numeral cs rest) :
    startsNumber (cs ++ rest) ∧ ∀ p, ∃ q, scanNumber p (cs ++ rest) = (cs, ⟨q, rest⟩) := by
  cases h.1 with
  | whole hne hds =>
    have stop : ∀ c ∈ rest.head?, c.isDigit = false ∧ c ≠ '.' := by
      intro c hc
      obtain ⟨tail, rfl⟩ := List.head?_eq_some_iff.1 hc
      refine ⟨Bool.eq_false_iff.2 fun hd => h.not_concat ?_, fun hd => h.not_concat ?_⟩
      · exact .whole (by simp) (digits_concat hds hd)
      · rw [hd]
        exact .point (.inl hne) hds nofun
    refine ⟨?_, scanNumber_of_digits hds stop⟩
    obtain ⟨d, ds, rfl⟩ := List.exists_cons_of_ne_nil hne
    simp [startsNumber, hds d]
  | @point ds es hne hds hes =>
    have stop : ∀ c ∈ rest.head?, c.isDigit = false := by
      intro c hc
      obtain ⟨tail, rfl⟩ := List.head?_eq_some_iff.1 hc
      refine Bool.eq_false_iff.2 fun hd => h.not_concat ?_
      rw [List.append_assoc, List.cons_append]
      exact .point (.inr (by simp)) hds (digits_concat hes hd)
    refine ⟨?_, scanNumber_of_point hds hes stop⟩
    -- The first character is a digit, or a period in front of one.
    cases ds with
    | cons d ds => simp [startsNumber, hds d]
    | nil =>
      obtain ⟨e, es, rfl⟩ := List.exists_cons_of_ne_nil (hne.resolve_left fun hn => hn rfl)
      simp [startsNumber, hes e]

theorem scanToken_of_signedNumeral (h : Maximal SignedNumeral cs rest) :
    ∃ c ds, cs = c :: ds ∧
      ∀ p, ∃ q, scanToken p c (ds ++ rest) = (.number, cs, ⟨q, rest⟩) := by
  obtain ⟨hcs, hmax⟩ := h
  cases hcs with
  | plain hcs =>
    obtain ⟨hstart, hscan⟩ := scanNumber_of_numeral
      ⟨hcs, fun more hmore hn => hmax more hmore (.plain hn)⟩
    obtain ⟨c, ds, rfl⟩ : ∃ c ds, cs = c :: ds := by
      cases hcs with
      | whole hne => exact List.exists_cons_of_ne_nil hne
      | point => exact List.exists_cons_of_ne_nil (by simp)
    refine ⟨c, ds, rfl, fun p => ?_⟩
    obtain ⟨q, hq⟩ := hscan p
    rw [List.cons_append] at hstart hq
    exact ⟨q, by rw [(scanToken_of_startsNumber hstart p).2, hq]⟩
  | @negative ds hds =>
    obtain ⟨hstart, hscan⟩ := scanNumber_of_numeral
      ⟨hds, fun more hmore hn => hmax more hmore (.negative hn)⟩
    refine ⟨'-', ds, rfl, fun p => ?_⟩
    obtain ⟨q, hq⟩ := hscan (p.advance '-')
    exact ⟨q, by rw [scanToken_hyphen hstart, hq]⟩

/-- What is escaped is scanned as what it stands for, and scanning goes on behind it. -/
theorem scanString_append {raw value : List Char} (h : Escaped raw value) (p : Position)
    (tail : List Char) :
    scanString p (raw ++ tail) =
      (value ++ (scanString (p.advanceAll raw) tail).1,
        (scanString (p.advanceAll raw) tail).2) := by
  induction h generalizing p with
  | nil => rfl
  | plain hquote hslash _ ih =>
    rw [List.cons_append, scanString, ih]
    · rfl
    · exact hquote
    · exact fun hc => absurd hc hslash
    · exact fun _ _ hc => absurd hc hslash
  | escape c _ ih =>
    rw [List.cons_append, List.cons_append, scanString, ih]
    rfl

/-- No bracket is closed that has not been opened, or was open before. -/
def NestedIn (depth : Nat) (cs : List Char) : Prop :=
  ∀ u, u <+: cs → u.count '>' ≤ depth + u.count '<'

theorem nestedIn_zero : NestedIn 0 cs ↔ Nested cs := by
  simp only [NestedIn, Nat.zero_add, Nested]

/-- The depth behind a bracket makes up for the bracket. -/
theorem depth_count_cons {depth : Nat} {c : Char} (hc : ¬(c = '>' ∧ depth = 0)) (u : List Char) :
    (if c = '<' then depth + 1 else if c = '>' then depth - 1 else depth) +
        u.count '<' + (c :: u).count '>' =
      depth + (c :: u).count '<' + u.count '>' := by
  rw [List.count_cons, List.count_cons]
  by_cases hopen : c = '<'
  · subst hopen
    simp
    omega
  by_cases hclose : c = '>'
  · subst hclose
    simp at hc ⊢
    omega
  · simp [hopen, hclose]

theorem nestedIn_cons {depth : Nat} {c : Char} :
    NestedIn depth (c :: cs) ↔ ¬(c = '>' ∧ depth = 0) ∧
      NestedIn (if c = '<' then depth + 1 else if c = '>' then depth - 1 else depth) cs := by
  constructor
  · intro h
    have hc : ¬(c = '>' ∧ depth = 0) := by
      rintro ⟨rfl, rfl⟩
      have := h ['>'] ⟨cs, rfl⟩
      simp at this
    refine ⟨hc, fun u hu => ?_⟩
    have := h (c :: u) (List.cons_prefix_cons.2 ⟨rfl, hu⟩)
    have := depth_count_cons hc u
    omega
  · rintro ⟨hc, h⟩ u hu
    cases u with
    | nil => simp
    | cons d u =>
      obtain ⟨rfl, htail⟩ := List.cons_prefix_cons.1 hu
      have := h u htail
      have := depth_count_cons hc u
      omega

/-- Html text is scanned as it is, and scanning goes on behind it at the depth that is
    left. -/
theorem scanHtml_append {depth : Nat} {inner : List Char} (h : NestedIn depth inner)
    (p : Position) (tail : List Char) :
    ∃ left q, left + inner.count '>' = depth + inner.count '<' ∧
      scanHtml depth p (inner ++ tail) =
        (inner ++ (scanHtml left q tail).1, (scanHtml left q tail).2) := by
  induction inner generalizing depth p with
  | nil => exact ⟨depth, p, rfl, rfl⟩
  | cons c inner ih =>
    obtain ⟨hc, hinner⟩ := nestedIn_cons.1 h
    obtain ⟨left, q, hleft, hscan⟩ := ih hinner (p.advance c)
    refine ⟨left, q, ?_, ?_⟩
    · have := depth_count_cons hc inner
      omega
    · rw [List.cons_append, scanHtml, if_neg hc]
      simp only [hscan]
      rfl

namespace Rule

variable {lexeme value : List Char} {kind : TokenKind}

/-- Where a rule holds, its token is scanned. -/
theorem scanToken_eq (h : Rule lexeme rest kind value) :
    ∃ c cs, lexeme = c :: cs ∧
      ∀ p, ∃ q, scanToken p c (cs ++ rest) = (kind, value, ⟨q, rest⟩) := by
  cases h with
  | @punctuation c kind _ hc =>
    refine ⟨c, [], rfl, fun p => ⟨p.advance c, ?_⟩⟩
    unfold scanToken
    rw [hc]
    rfl
  | @edgeOp c _ hc =>
    refine ⟨'-', [c], rfl, fun p => ?_⟩
    rcases hc with rfl | rfl
    · exact ⟨_, rfl⟩
    · exact ⟨_, rfl⟩
  | identifier h =>
    obtain ⟨c, cs, rfl⟩ : ∃ c cs, lexeme = c :: cs := by
      cases h.1 with
      | mk => exact ⟨_, _, rfl⟩
    exact ⟨c, cs, rfl, scanToken_of_word h⟩
  | number h => exact scanToken_of_signedNumeral h
  | @string raw value _ h =>
    refine ⟨'"', raw ++ ['"'], rfl, fun p => ⟨((p.advance '"').advanceAll raw).advance '"', ?_⟩⟩
    show (TokenKind.string, scanString (p.advance '"') (raw ++ ['"'] ++ rest)) = _
    rw [List.append_assoc, scanString_append h, List.singleton_append, scanString,
      List.append_nil]
  | @openString raw value h =>
    refine ⟨'"', raw, rfl, fun p => ⟨(p.advance '"').advanceAll raw, ?_⟩⟩
    show (TokenKind.string, scanString (p.advance '"') (raw ++ [])) = _
    rw [scanString_append h, scanString, List.append_nil]
  | @cutString raw value h =>
    refine ⟨'"', raw ++ ['\\'], rfl, fun p => ⟨((p.advance '"').advanceAll raw).advance '\\', ?_⟩⟩
    show (TokenKind.string, scanString (p.advance '"') (raw ++ ['\\'] ++ [])) = _
    rw [List.append_nil, scanString_append h, scanString, List.append_nil]
  | html _ hnested hcount =>
    refine ⟨'<', value ++ ['>'], rfl, fun p => ?_⟩
    obtain ⟨left, q, hleft, hscan⟩ :=
      scanHtml_append (nestedIn_zero.2 hnested) (p.advance '<') ('>' :: rest)
    obtain rfl : left = 0 := by omega
    refine ⟨q.advance '>', ?_⟩
    show (TokenKind.html, scanHtml 0 (p.advance '<') (value ++ ['>'] ++ rest)) = _
    rw [List.append_assoc, List.singleton_append, hscan, scanHtml, if_pos ⟨rfl, rfl⟩,
      List.append_nil]
  | openHtml hnested =>
    refine ⟨'<', value, rfl, fun p => ?_⟩
    obtain ⟨left, q, -, hscan⟩ := scanHtml_append (nestedIn_zero.2 hnested) (p.advance '<') []
    refine ⟨q, ?_⟩
    show (TokenKind.html, scanHtml 0 (p.advance '<') (value ++ [])) = _
    rw [hscan, scanHtml, List.append_nil]

/-- No rule makes the end of the text of characters. -/
theorem kind_ne_endOfInput (h : Rule lexeme rest kind value) : kind ≠ .endOfInput := by
  cases h with
  | @punctuation c _ _ hc =>
    rintro rfl
    unfold TokenKind.ofPunctuation? at hc
    split at hc <;> cases hc
  | _ => nofun

end Rule

/-! ### Where no rule holds -/

/-- Where a piece of a class starts, a maximal one does. -/
theorem exists_maximal {v : List Char} (h : P v) (tail : List Char) :
    ∃ w rest, w ++ rest = v ++ tail ∧ Maximal P w rest := by
  by_cases hmax : Maximal P v tail
  · exact ⟨v, tail, rfl, hmax⟩
  · simp only [Maximal, not_and, Classical.not_forall] at hmax
    obtain ⟨more, ⟨rest, rfl⟩, hmore, hne⟩ := hmax h
    have : rest.length < (more ++ rest).length := by
      have := List.length_pos_iff.2 hne
      rw [List.length_append]
      omega
    obtain ⟨w, rest', heq, hw⟩ := exists_maximal hmore rest
    exact ⟨w, rest', by rw [heq, List.append_assoc], hw⟩
termination_by tail.length

/-- A string goes on to a quote, or to the end of the text with perhaps a backslash
    there. -/
theorem exists_escaped (p : Position) (cs : List Char) : ∃ raw value, Escaped raw value ∧
    (cs = raw ∨ cs = raw ++ ['\\'] ∨ ∃ rest, cs = raw ++ '"' :: rest) := by
  fun_induction scanString p cs with
  | case1 p => exact ⟨[], [], .nil, .inl rfl⟩
  | case2 p cs => exact ⟨[], [], .nil, .inr (.inr ⟨cs, rfl⟩)⟩
  | case3 p => exact ⟨[], [], .nil, .inr (.inl rfl)⟩
  | case4 p c cs _ _ _ ih =>
    obtain ⟨raw, value, h, hcs⟩ := ih
    refine ⟨'\\' :: c :: raw, _, .escape c h, ?_⟩
    rcases hcs with rfl | rfl | ⟨rest, rfl⟩
    · exact .inl rfl
    · exact .inr (.inl rfl)
    · exact .inr (.inr ⟨rest, rfl⟩)
  | case5 p c cs hquote hend hescape _ _ _ ih =>
    have hslash : c ≠ '\\' := by
      intro hc
      cases cs with
      | nil => exact hend hc rfl
      | cons d ds => exact hescape d ds hc rfl
    obtain ⟨raw, value, h, hcs⟩ := ih
    refine ⟨c :: raw, _, .plain hquote hslash h, ?_⟩
    rcases hcs with rfl | rfl | ⟨rest, rfl⟩
    · exact .inl rfl
    · exact .inr (.inl rfl)
    · exact .inr (.inr ⟨rest, rfl⟩)

/-- Either all brackets may still be closed at the end of the text, or there is a first
    that closes what is open before. -/
theorem nestedIn_or_exists_eq (depth : Nat) (cs : List Char) :
    NestedIn depth cs ∨ ∃ inner rest, cs = inner ++ '>' :: rest ∧ NestedIn depth inner ∧
      inner.count '>' = depth + inner.count '<' := by
  have nil : ∀ depth, NestedIn depth [] := by
    intro depth u hu
    rw [List.prefix_nil.1 hu]
    simp
  induction cs generalizing depth with
  | nil => exact .inl (nil depth)
  | cons c cs ih =>
    by_cases hc : c = '>' ∧ depth = 0
    · obtain ⟨rfl, rfl⟩ := hc
      exact .inr ⟨[], cs, rfl, nil 0, rfl⟩
    rcases ih (if c = '<' then depth + 1 else if c = '>' then depth - 1 else depth) with
      h | ⟨inner, rest, rfl, h, hcount⟩
    · exact .inl (nestedIn_cons.2 ⟨hc, h⟩)
    · refine .inr ⟨c :: inner, rest, rfl, nestedIn_cons.2 ⟨hc, h⟩, ?_⟩
      have := depth_count_cons hc inner
      omega

/-- Where a number starts, there is a numeral. -/
theorem exists_numeral (h : startsNumber cs) : ∃ v tail, cs = v ++ tail ∧ Numeral v := by
  obtain ⟨c, cs, rfl⟩ : ∃ c ds, cs = c :: ds := by
    cases cs with
    | nil => cases h
    | cons c cs => exact ⟨c, cs, rfl⟩
  simp only [startsNumber, Bool.or_eq_true, Bool.and_eq_true, beq_iff_eq] at h
  rcases h with hc | ⟨rfl, hnext⟩
  · exact ⟨[c], cs, rfl, .whole (List.cons_ne_nil _ _) (by simpa [Digits] using hc)⟩
  · cases cs with
    | nil => cases hnext
    | cons d ds =>
      have hd : d.isDigit := hnext
      have numeral : Numeral ([] ++ '.' :: [d]) :=
        .point (.inr (List.cons_ne_nil _ _)) (by simp [Digits]) (by simpa [Digits] using hd)
      exact ⟨['.', d], ds, rfl, numeral⟩

/-- Every character has a rule, or else it is scanned as a token of its own. -/
theorem exists_rule_or_scanToken_eq (p : Position) (c : Char) (cs : List Char) :
    (∃ lexeme rest kind value, lexeme ++ rest = c :: cs ∧ Rule lexeme rest kind value) ∨
      scanToken p c cs = (.illegal, [c], ⟨p.advance c, cs⟩) := by
  unfold scanToken
  split
  · next kind hc => exact .inl ⟨[c], cs, kind, [c], rfl, .punctuation cs hc⟩
  split
  · next hc =>
    subst hc
    obtain ⟨raw, value, h, rfl | rfl | ⟨rest, rfl⟩⟩ := exists_escaped p cs
    · exact .inl ⟨_, [], _, _, List.append_nil _, .openString h⟩
    · exact .inl ⟨_, [], _, _, List.append_nil _, .cutString h⟩
    · exact .inl ⟨'"' :: (raw ++ ['"']), rest, _, _, by simp, .string rest h⟩
  split
  · next hc =>
    subst hc
    rcases nestedIn_or_exists_eq 0 cs with h | ⟨inner, rest, rfl, h, hcount⟩
    · exact .inl ⟨_, [], _, _, List.append_nil _, .openHtml (nestedIn_zero.1 h)⟩
    · refine .inl ⟨'<' :: (inner ++ ['>']), rest, .html, inner, by simp, ?_⟩
      exact .html rest (nestedIn_zero.1 h) (by rw [hcount, Nat.zero_add])
  split
  · next hc =>
    subst hc
    split
    · next ds => exact .inl ⟨['-', '>'], ds, _, _, rfl, .edgeOp ds (.inl rfl)⟩
    · next ds => exact .inl ⟨['-', '-'], ds, _, _, rfl, .edgeOp ds (.inr rfl)⟩
    · split
      · next hstart =>
        obtain ⟨v, tail, rfl, hv⟩ := exists_numeral hstart
        obtain ⟨w, rest, heq, hw⟩ := exists_maximal (SignedNumeral.negative hv) tail
        exact .inl ⟨w, rest, _, _, heq, .number hw⟩
      · exact .inr rfl
  split
  · next hstart =>
    obtain ⟨v, tail, heq, hv⟩ := exists_numeral hstart
    obtain ⟨w, rest, heq', hw⟩ := exists_maximal (SignedNumeral.plain hv) tail
    exact .inl ⟨w, rest, _, _, heq'.trans heq.symm, .number hw⟩
  split
  · next hc =>
    have word : Word [c] := .mk hc nofun
    obtain ⟨w, rest, heq, hw⟩ := exists_maximal word cs
    exact .inl ⟨w, rest, _, _, heq, .identifier hw⟩
  · exact .inr rfl

variable {lexeme value : List Char} {kind : TokenKind}

/-- What is a token by the rules is scanned as one. -/
theorem Lexes.scanToken_eq (h : Lexes lexeme rest kind value) :
    ∃ c cs, lexeme = c :: cs ∧
      ∀ p, ∃ q, scanToken p c (cs ++ rest) = (kind, value, ⟨q, rest⟩) := by
  cases h with
  | rule h => exact h.scanToken_eq
  | @illegal c _ hnone =>
    refine ⟨c, [], rfl, fun p => ⟨p.advance c, ?_⟩⟩
    rcases exists_rule_or_scanToken_eq p c rest with ⟨lexeme, rest', kind, value, heq, h⟩ | h
    · exact absurd h (hnone lexeme rest' kind value heq)
    · exact h

/-- What is scanned as a token is one by the rules. -/
theorem lexes_scanToken (p : Position) (c : Char) (cs : List Char) :
    ∃ lexeme, (⟨p, c :: cs⟩ : Cursor).Reaches lexeme (scanToken p c cs).2.2 ∧
      Lexes lexeme (scanToken p c cs).2.2.rest (scanToken p c cs).1 (scanToken p c cs).2.1 := by
  obtain ⟨w, -, hreach⟩ := scanToken_reaches p c cs
  refine ⟨w, hreach, ?_⟩
  by_cases h : ∃ lexeme rest kind value, lexeme ++ rest = c :: cs ∧ Rule lexeme rest kind value
  · obtain ⟨lexeme, rest, kind, value, heq, hrule⟩ := h
    obtain ⟨d, ds, rfl, hscan⟩ := hrule.scanToken_eq
    obtain ⟨rfl, htail⟩ := List.cons.inj heq
    have htail : ds ++ rest = cs := htail
    subst htail
    obtain ⟨q, hq⟩ := hscan p
    -- The text of the token is what is in front of the rest.
    rw [hq] at hreach ⊢
    obtain rfl : d :: ds = w := List.append_cancel_right hreach.1
    exact .rule hrule
  · have hscan := (exists_rule_or_scanToken_eq p c cs).resolve_left h
    rw [hscan] at hreach ⊢
    have split_eq : [c] ++ cs = w ++ cs := hreach.1
    obtain rfl : [c] = w := List.append_cancel_right split_eq
    exact .illegal fun lexeme rest kind value heq hrule => h ⟨lexeme, rest, kind, value, heq, hrule⟩

theorem Lexes.kind_ne_endOfInput (h : Lexes lexeme rest kind value) : kind ≠ .endOfInput := by
  cases h with
  | rule h => exact h.kind_ne_endOfInput
  | illegal => nofun

/-- The rules leave no choice. -/
theorem Lexes.unique {lexeme' rest' value' : List Char} {kind' : TokenKind}
    (h : Lexes lexeme rest kind value) (h' : Lexes lexeme' rest' kind' value')
    (heq : lexeme' ++ rest' = lexeme ++ rest) :
    lexeme' = lexeme ∧ kind' = kind ∧ value' = value := by
  obtain ⟨c, cs, rfl, hscan⟩ := h.scanToken_eq
  obtain ⟨c', cs', rfl, hscan'⟩ := h'.scanToken_eq
  obtain ⟨hc, htail⟩ := List.cons.inj heq
  obtain ⟨q, hq⟩ := hscan .start
  obtain ⟨q', hq'⟩ := hscan' .start
  have htail : cs' ++ rest' = cs ++ rest := htail
  rw [hc, htail, hq] at hq'
  obtain ⟨rfl, hrest⟩ := Prod.mk.inj hq'
  obtain ⟨rfl, hcursor⟩ := Prod.mk.inj hrest
  obtain rfl : rest = rest' := congrArg Cursor.rest hcursor
  exact ⟨List.append_cancel_right heq, rfl, rfl⟩

theorem Lexes.ne_nil (h : Lexes lexeme rest kind value) : lexeme ≠ [] := by
  obtain ⟨c, cs, rfl, -⟩ := h.scanToken_eq
  exact List.cons_ne_nil c cs

/-- Reading a token takes a lexeme by the rules from what is left of the text. Where
    nothing is left, the token is the end. -/
theorem exists_token (p : Position) (cs : List Char) :
    ∃ lexeme rest kind value, cs = lexeme ++ rest ∧
      (⟨p, cs⟩ : Cursor).token = (⟨kind, String.ofList value, p⟩, ⟨p.advanceAll lexeme, rest⟩) ∧
      (kind = .endOfInput ↔ cs = []) ∧ (cs = [] → value = []) ∧
      (cs ≠ [] → Lexes lexeme rest kind value) := by
  cases cs with
  | nil => exact ⟨[], [], .endOfInput, [], rfl, rfl, iff_of_true rfl rfl, fun _ => rfl, absurd rfl⟩
  | cons c cs =>
    obtain ⟨lexeme, ⟨hrest, hpos⟩, hlex⟩ := lexes_scanToken p c cs
    have token_eq : (⟨p, c :: cs⟩ : Cursor).token =
        (⟨(scanToken p c cs).1, String.ofList (scanToken p c cs).2.1, p⟩, (scanToken p c cs).2.2) :=
      rfl
    refine ⟨lexeme, (scanToken p c cs).2.2.rest, _, _, hrest, ?_,
      iff_of_false hlex.kind_ne_endOfInput (List.cons_ne_nil c cs), nofun, fun _ => hlex⟩
    have hpos : (scanToken p c cs).2.2.pos = p.advanceAll lexeme := hpos
    rw [token_eq, ← hpos]

end Lexical

/-! ### Reading tokens in turn -/

namespace Lexer

variable {text : List Char} {l : Lexer}

/-- A reader stands at a place in its text. -/
theorem Reached.exists_reaches (h : l.Reached text) :
    ∃ before, (Cursor.ofText text).Reaches before l.cursor := by
  have next : ∀ l : Lexer, (∃ before, (Cursor.ofText text).Reaches before l.cursor) →
      ∃ before, (Cursor.ofText text).Reaches before l.next.2.cursor := by
    rintro l ⟨before, hbefore⟩
    unfold Lexer.next
    split
    · exact ⟨before, hbefore⟩
    · obtain ⟨w, hw⟩ := l.cursor.next_reaches
      exact ⟨before ++ w, hbefore.trans hw⟩
  induction h with
  | start => exact ⟨[], .refl _⟩
  | next _ ih => exact next _ ih
  | peek _ ih => exact next _ ih

/-- However a text has been read so far, the next token splits what is left of it into
    as much trivia as there is, the only lexeme that the rules allow and the rest. -/
theorem next_splits (h : l.Reached text) (hl : l.ahead = none) :
    ∃ before trivia lexeme rest, l.Splits text before trivia lexeme rest := by
  obtain ⟨before, htext, hpos⟩ := h.exists_reaches
  obtain ⟨trivia, behind, heq, hlongest, hskip⟩ := Lexical.exists_longestTrivia l.cursor
  have htext : text = before ++ l.cursor.rest := htext
  have hpos : l.cursor.pos = Position.start.advanceAll before := hpos
  have cursor_eq : l.cursor = ⟨Position.start.advanceAll before, trivia ++ behind⟩ := by
    rw [← hpos, ← heq]
  have place : l.cursor.pos.advanceAll trivia = Position.start.advanceAll (before ++ trivia) := by
    rw [hpos, Position.advanceAll_append]
  have next : l.next = ((⟨Position.start.advanceAll (before ++ trivia), behind⟩ : Cursor).token.1,
      { cursor := (⟨Position.start.advanceAll (before ++ trivia), behind⟩ : Cursor).token.2 }) := by
    rw [Lexer.next, hl, ← place, ← hskip]
    rfl
  obtain ⟨lexeme, rest, kind, value, hbehind, token_eq, hend, hvalue, hlex⟩ :=
    Lexical.exists_token (Position.start.advanceAll (before ++ trivia)) behind
  rw [token_eq] at next
  subst hbehind
  refine ⟨before, trivia, lexeme, rest, ?_⟩
  exact {
    text_eq := by rw [htext, heq]
    cursor_eq := cursor_eq
    longest := hlongest
    pos_eq := by rw [next]
    next_eq := by rw [next, ← Position.advanceAll_append, List.append_assoc]
    endOfInput_iff := by rw [next]; exact hend
    value_of_end := fun hnil => by rw [next, hvalue hnil]
    lexes := fun hne => by
      rw [next, String.toList_ofList]
      exact ⟨(hlex hne).ne_nil, hlex hne⟩
    unique := by
      intro lexeme' rest' kind' value' heq' hlex'
      have hne : lexeme ++ rest ≠ [] := by
        rw [← heq']
        exact List.append_ne_nil_of_left_ne_nil hlex'.ne_nil rest'
      rw [next, String.toList_ofList]
      exact (hlex hne).unique hlex' heq' }

/-- Behind a name come a comment that ends where it seems to, and a negative number. -/
theorem next_splits_comment :
    ∃ l : Lexer, l.Reached "a/*-*/-.5->b".toList ∧ l.ahead = none ∧
      l.next.1 = ⟨.number, "-.5", ⟨1, 7⟩⟩ ∧
      ∃ before trivia lexeme rest, l.Splits "a/*-*/-.5->b".toList before trivia lexeme rest :=
  have h : (ofText "a/*-*/-.5->b".toList).next.2.Reached "a/*-*/-.5->b".toList := .next .start
  have ahead : (ofText "a/*-*/-.5->b".toList).next.2.ahead = none := by decide +kernel
  ⟨_, h, ahead, by decide +kernel, next_splits h ahead⟩

end Lexer

end DotLang
