import DotLang.Source.Rounds
import DotLang.Proofs.Source.Scanning

/-!
# Skipping in rounds comes to an end

Each round that skips something leaves less of the text, so there are only finitely many. What
the rounds skip is all trivia.

* `Cursor.round_shorter`: a round leaves less of the text;
* `Cursor.skipRounds_eq`: all rounds skip what there is to skip;
* `Cursor.next_of_endOfInput`: after the end of the text there is nothing but the end of the text.
-/

namespace DotLang

open Lexical

variable {c d : Cursor} {p : Position} {cs : List Char}

/-! ### One round -/

/-- A run of characters that goes on goes over its first one. -/
theorem scanWhile_cons {f : Char → Bool} {x : Char} (hx : f x = true) (p : Position)
    (cs : List Char) : (scanWhile f p (x :: cs)).2 = (scanWhile f (p.advance x) cs).2 := by
  simp only [scanWhile, List.takeWhile_cons, List.dropWhile_cons, hx, if_true,
    Position.advanceAll_cons]

theorem scanWhile_of_eq_false {f : Char → Bool} {x : Char} (hx : f x = false) (p : Position)
    (cs : List Char) : (scanWhile f p (x :: cs)).2 = ⟨p, x :: cs⟩ := by
  simp only [scanWhile, List.takeWhile_cons, List.dropWhile_cons, hx, Bool.false_eq_true, if_false,
    Position.advanceAll_nil]

/-- What is skipped up to the end of a comment leaves no more of the text. -/
theorem length_closeComment (star : Bool) (p : Position) (cs : List Char) :
    (closeComment star p cs).rest.length ≤ cs.length := by
  induction cs generalizing star p with
  | nil => exact Nat.le_refl _
  | cons c cs ih =>
    unfold closeComment
    split
    · exact Nat.le_succ _
    · exact Nat.le_succ_of_le (ih _ _)

/-- Behind a comment that is closed or never closed stands what the comment does not hide. -/
theorem closeComment_skipTrivia (cs : List Char) (p : Position) :
    (closeComment false p cs).skipTrivia = Gap.block.skip p cs ∧
      (closeComment true (p.advance '*') cs).skipTrivia = Gap.block.skip p ('*' :: cs) := by
  induction cs generalizing p with
  | nil => exact ⟨rfl, rfl⟩
  | cons c cs ih =>
    have plain : ∀ p, (closeComment false p (c :: cs)).skipTrivia = Gap.block.skip p (c :: cs) := by
      intro p
      rw [closeComment, if_neg (by simp)]
      by_cases hc : c = '*'
      · rw [hc]
        exact (ih p).2
      · rw [decide_eq_false hc, (ih (p.advance c)).1, Gap.skip]
        exact fun _ h _ => hc h
    refine ⟨plain p, ?_⟩
    by_cases hc : c = '/'
    · rw [hc, closeComment, if_pos ⟨rfl, rfl⟩, Gap.skip]
      rfl
    · have again : closeComment true (p.advance '*') (c :: cs) =
          closeComment false (p.advance '*') (c :: cs) := by
        rw [closeComment, if_neg fun h => hc h.2, closeComment, if_neg (by simp)]
      have stays : Gap.block.skip p ('*' :: c :: cs) =
          Gap.block.skip (p.advance '*') (c :: cs) := by
        rw [Gap.skip]
        exact fun _ _ h => hc (List.cons.inj h).1
      rw [again, plain, stays]

namespace Cursor

/-- A line that goes on is not all skipped at once: its first character is. -/
theorem skipLine_cons {x : Char} (hx : x ≠ '\n') (p : Position) (cs : List Char) :
    (⟨p, x :: cs⟩ : Cursor).skipLine = (⟨p.advance x, cs⟩ : Cursor).skipLine :=
  scanWhile_cons (f := (· != '\n')) (bne_iff_ne.2 hx) p cs

/-- What is left of a line is skipped with the newline behind it, if there is one. -/
theorem skipLine_skipTrivia (p : Position) (cs : List Char) :
    (⟨p, cs⟩ : Cursor).skipLine.skipTrivia = Gap.line.skip p cs := by
  induction cs generalizing p with
  | nil => rfl
  | cons c cs ih =>
    by_cases hc : c = '\n'
    · subst hc
      rw [Gap.skip, if_pos rfl, ← skip_blank (by decide)]
      rfl
    · rw [skipLine_cons hc, ih, Gap.skip, if_neg hc]

theorem length_skipLine (c : Cursor) : c.skipLine.rest.length ≤ c.rest.length :=
  (List.dropWhile_suffix _).length_le

/-- What a comment starts with decides where it ends. -/
theorem comment_cases (h : c.comment? = some d) :
    (∃ cs, c.rest = '#' :: cs ∧ c.pos.col = 1 ∧ d = c.skipLine) ∨
    (∃ cs, c.rest = '/' :: '/' :: cs ∧ d = c.skipLine) ∨
    ∃ cs, c.rest = '/' :: '*' :: cs ∧
      d = closeComment false ((c.pos.advance '/').advance '*') cs := by
  unfold comment? at h
  split at h
  · next cs hcs =>
    split at h
    · next hcol =>
      cases h
      exact .inl ⟨cs, hcs, hcol, rfl⟩
    · cases h
  · next cs hcs =>
    cases h
    exact .inr (.inl ⟨cs, hcs, rfl⟩)
  · next cs hcs =>
    cases h
    exact .inr (.inr ⟨cs, hcs, rfl⟩)
  · cases h

theorem comment_shorter (h : c.comment? = some d) : d.rest.length < c.rest.length := by
  rcases c with ⟨p, rest⟩
  obtain ⟨cs, rfl, -, rfl⟩ | ⟨cs, rfl, rfl⟩ | ⟨cs, rfl, rfl⟩ := comment_cases h
  · rw [skipLine_cons (by decide)]
    exact Nat.lt_succ_of_le (length_skipLine _)
  · rw [skipLine_cons (by decide)]
    exact Nat.lt_succ_of_le (length_skipLine _)
  · exact Nat.lt_succ_of_le (Nat.le_succ_of_le (length_closeComment ..))

/-- White space that is skipped starts with its first character. -/
theorem blanks_cases (h : c.blanks? = some d) : ∃ x cs, isBlank x ∧ c.rest = x :: cs ∧
    d = (scanWhile isBlank (c.pos.advance x) cs).2 := by
  unfold blanks? at h
  split at h
  · next hblank =>
    cases h
    cases hc : c.rest with
    | nil => rw [hc] at hblank; cases hblank
    | cons x cs =>
      rw [hc] at hblank
      have hx : isBlank x := hblank
      exact ⟨x, cs, hx, rfl, scanWhile_cons hx c.pos cs⟩
  · cases h

theorem blanks_shorter (h : c.blanks? = some d) : d.rest.length < c.rest.length := by
  obtain ⟨x, cs, -, hc, rfl⟩ := blanks_cases h
  rw [hc]
  exact Nat.lt_succ_of_le (List.dropWhile_suffix _).length_le

/-- A round that skips something leaves less of the text. -/
theorem round_shorter (h : c.round? = some d) : d.rest.length < c.rest.length := by
  rcases Option.or_eq_some_iff.1 h with h | ⟨-, h⟩
  · exact comment_shorter h
  · exact blanks_shorter h

theorem skipTrivia_of_comment (h : c.comment? = some d) : d.skipTrivia = c.skipTrivia := by
  rcases c with ⟨p, rest⟩
  obtain ⟨cs, rfl, hcol, rfl⟩ | ⟨cs, rfl, rfl⟩ | ⟨cs, rfl, rfl⟩ := comment_cases h
  · have hcol : p.col = 1 := hcol
    rw [skipLine_cons (by decide), skipLine_skipTrivia, skipTrivia,
      skip_of_ne_slash (by decide), if_neg (by decide), if_pos ⟨rfl, hcol⟩]
  · rw [skipLine_cons (by decide), skipLine_cons (by decide), skipLine_skipTrivia, skipTrivia,
      Gap.skip]
  · rw [(closeComment_skipTrivia cs _).1, skipTrivia, Gap.skip]

theorem skipTrivia_of_blanks (h : c.blanks? = some d) : d.skipTrivia = c.skipTrivia := by
  rcases c with ⟨p, rest⟩
  obtain ⟨x, cs, hx, rfl, rfl⟩ := blanks_cases h
  have run : ∀ (cs : List Char) (p : Position),
      (scanWhile isBlank p cs).2.skipTrivia = Gap.clear.skip p cs := by
    intro cs p
    induction cs generalizing p with
    | nil => rfl
    | cons x cs ih =>
      cases hx : isBlank x with
      | true => rw [scanWhile_cons hx, skip_blank hx, ih]
      | false =>
        rw [scanWhile_of_eq_false hx]
        rfl
  rw [run, skipTrivia, skip_blank hx]

/-- A round skips trivia only. -/
theorem skipTrivia_of_round (h : c.round? = some d) : d.skipTrivia = c.skipTrivia := by
  rcases Option.or_eq_some_iff.1 h with h | ⟨-, h⟩
  · exact skipTrivia_of_comment h
  · exact skipTrivia_of_blanks h

/-- Where a round finds nothing, there is no trivia. -/
theorem skipTrivia_of_round_eq_none (h : c.round? = none) : c.skipTrivia = c := by
  rcases c with ⟨p, cs⟩
  obtain ⟨comment, blanks⟩ := Option.or_eq_none_iff.1 h
  rcases exists_piece_or_skip_eq p cs with ⟨v, tail, -, rfl, piece⟩ | skipped
  · exfalso
    cases piece with
    | @blank x _ hx =>
      have first : (x :: tail).head?.any isBlank = true := hx
      exact absurd (blanks.symm.trans (if_pos first)) nofun
    | lineComment _ => exact absurd comment nofun
    | hashLine hcol _ => exact absurd (comment.symm.trans (if_pos hcol)) nofun
    | blockComment _ _ => exact absurd comment nofun
    | openComment _ => exact absurd comment nofun
  · exact skipped

/-- There are no more rounds than characters, and they skip all trivia. -/
theorem skipRounds_eq {n : Nat} (hn : c.rest.length < n) : c.skipRounds n = some c.skipTrivia := by
  induction n generalizing c with
  | zero => exact absurd hn (Nat.not_lt_zero _)
  | succ n ih =>
    rw [skipRounds]
    cases h : c.round? with
    | none => rw [skipTrivia_of_round_eq_none h]
    | some d =>
      have shorter : d.rest.length < n :=
        Nat.lt_of_lt_of_le (round_shorter h) (Nat.le_of_lt_succ hn)
      rw [← skipTrivia_of_round h]
      exact ih shorter

/-- The end of the text is a place where nothing is left. -/
theorem next_eq_of_endOfInput (h : c.next.1.kind = .endOfInput) :
    c.next = (.endAt c.next.1.pos, ⟨c.next.1.pos, []⟩) := by
  obtain ⟨lexeme, rest, kind, value, -, htoken, hend, -⟩ :=
    exists_token c.skipTrivia.pos c.skipTrivia.rest
  have next : c.next = (⟨kind, String.ofList value, c.skipTrivia.pos⟩, _) := htoken
  rw [next] at h
  have stop : c.skipTrivia = ⟨c.skipTrivia.pos, []⟩ := by rw [← hend.1 h]
  have last : c.next = (.endAt c.skipTrivia.pos, ⟨c.skipTrivia.pos, []⟩) := by
    rw [Cursor.next, stop]
    rfl
  rw [last]
  rfl

/-- After the end of the text there is nothing but the end of the text, at the same place. -/
theorem next_of_endOfInput (h : c.next.1.kind = .endOfInput) : c.next.2.next = c.next := by
  rw [next_eq_of_endOfInput h]
  rfl

/-- However often a token is read at the end of the text, it is the same. -/
theorem next_repeat (h : c.next.1.kind = .endOfInput) (n : Nat) :
    (Nat.repeat (fun d : Cursor => d.next.2) n c).next = c.next := by
  induction n with
  | zero => rfl
  | succ n ih =>
    show (Nat.repeat (fun d : Cursor => d.next.2) n c).next.2.next = c.next
    rw [ih, next_of_endOfInput h]

/-- Every token but the end of the text takes a character behind the trivia. -/
theorem next_shorter_than_trivia (h : c.next.1.kind ≠ .endOfInput) :
    c.next.2.rest.length < c.skipTrivia.rest.length := by
  obtain ⟨w, hw, hne⟩ := c.skipTrivia.token_reaches
  have lexeme : c.skipTrivia.rest.length = w.length + c.next.2.rest.length :=
    (congrArg List.length hw.1).trans List.length_append
  have := List.length_pos_iff.2 (hne h)
  omega

end Cursor

end DotLang
