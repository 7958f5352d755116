import DotLang.Graph.OfText
import DotLang.Listing.Text
import DotLang.Proofs.Number.ReadBack
import DotLang.Proofs.Syntax.Grammar

/-!
# How lexemes are spelled

What the lexemes of a written text are, piece by piece. A piece of text *reads as*
some lexemes if they come first wherever the piece does. Most pieces end with a
character that ends the last lexeme too. A word does not: it goes on as long as
there are letters, so it reads as itself only in front of other characters.

* `reads_quoted`: a text in quotes is one string, whatever the text;
* `Lexer.next_quoted`: so it is for a reader at any place, which then stands behind it;
* `ReadsAsWord`: a word in front of a character that ends it;
* `spellsIdentifier_iff`, `spellsNumber_iff`: which texts are one word.
-/

namespace DotLang

namespace Cursor

/-- The lexemes from a cursor on. -/
def lexemes (c : Cursor) : List Lexeme := c.tokens.lexemes

/-- The next token is the first lexeme, unless the text ends. -/
theorem lexemes_eq (c : Cursor) :
    c.lexemes =
      if c.next.1.kind = .endOfInput then [] else c.next.1.lexeme :: c.next.2.lexemes := by
  rw [lexemes, tokens]
  split
  · rfl
  · rfl

/-- Cursors with the same next token have the same lexemes. -/
theorem lexemes_congr {c d : Cursor} (h : c.next = d.next) : c.lexemes = d.lexemes := by
  rw [lexemes_eq c, lexemes_eq d, h]

end Cursor

/-! ### Trivia -/

/-- The character starts no trivia. -/
def isSolid (c : Char) : Bool := !isBlank c && c != '/' && c != '#'

theorem skip_of_ne_slash {c : Char} (h : c ≠ '/') (p : Position) (cs : List Char) :
    Gap.clear.skip p (c :: cs) =
      if isBlank c then Gap.clear.skip (p.advance c) cs
      else if c = '#' ∧ p.col = 1 then Gap.line.skip (p.advance c) cs
      else ⟨p, c :: cs⟩ := by
  rw [Gap.skip]
  · exact fun _ hc => absurd hc h
  · exact fun _ hc => absurd hc h

theorem skipTrivia_of_isSolid {c : Char} (h : isSolid c) (p : Position) (cs : List Char) :
    (⟨p, c :: cs⟩ : Cursor).skipTrivia = ⟨p, c :: cs⟩ := by
  simp only [isSolid, Bool.and_eq_true, Bool.not_eq_true', bne_iff_ne] at h
  obtain ⟨⟨hb, hs⟩, hh⟩ := h
  show Gap.clear.skip p (c :: cs) = _
  rw [skip_of_ne_slash hs, hb, if_neg nofun, if_neg fun hc => hh hc.1]

theorem ne_slash_of_isBlank {c : Char} (h : isBlank c) : c ≠ '/' := by
  rintro rfl
  revert h
  decide

/-! ### Pieces of text -/

/-- Wherever the text comes, it is read as these lexemes. -/
def Reads (cs : List Char) (ls : List Lexeme) : Prop :=
  ∀ p rest, ∃ q, (⟨p, cs ++ rest⟩ : Cursor).lexemes = ls ++ (⟨q, rest⟩ : Cursor).lexemes

theorem Reads.nil : Reads [] [] := fun p _ => ⟨p, rfl⟩

theorem Reads.append {cs ds : List Char} {ls ms : List Lexeme} (h : Reads cs ls)
    (h' : Reads ds ms) : Reads (cs ++ ds) (ls ++ ms) := by
  intro p rest
  obtain ⟨q, hq⟩ := h p (ds ++ rest)
  obtain ⟨r, hr⟩ := h' q rest
  refine ⟨r, ?_⟩
  rw [List.append_assoc, hq, hr, List.append_assoc]

/-- White space is read as nothing. -/
theorem reads_blank {c : Char} (h : isBlank c) : Reads [c] [] := by
  intro p rest
  refine ⟨p.advance c, Cursor.lexemes_congr ?_⟩
  show (Gap.clear.skip p (c :: rest)).token = (Gap.clear.skip (p.advance c) rest).token
  rw [skip_of_ne_slash (ne_slash_of_isBlank h), if_pos h]

/-- A text that does not start with trivia starts with the token that is scanned. -/
theorem lexemes_of_scanToken {c : Char} {cs rest value : List Char} {kind : TokenKind}
    {p q : Position} (hc : isSolid c) (hk : kind ≠ .endOfInput)
    (h : scanToken p c cs = (kind, value, ⟨q, rest⟩)) :
    (⟨p, c :: cs⟩ : Cursor).lexemes =
      ⟨kind, String.ofList value⟩ :: (⟨q, rest⟩ : Cursor).lexemes := by
  have next : (⟨p, c :: cs⟩ : Cursor).next = (⟨kind, String.ofList value, p⟩, ⟨q, rest⟩) := by
    show ((⟨p, c :: cs⟩ : Cursor).skipTrivia).token = _
    rw [skipTrivia_of_isSolid hc]
    show ((⟨(scanToken p c cs).1, _, p⟩ : Token), (scanToken p c cs).2.2) = _
    rw [h]
  rw [Cursor.lexemes_eq, next, if_neg hk]
  rfl

/-- A text that is scanned to its end as one token, whatever comes after it. -/
theorem reads_of_scanToken {c : Char} {cs value : List Char} {kind : TokenKind} (hc : isSolid c)
    (hk : kind ≠ .endOfInput)
    (h : ∀ p rest, ∃ q, scanToken p c (cs ++ rest) = (kind, value, ⟨q, rest⟩)) :
    Reads (c :: cs) [⟨kind, String.ofList value⟩] := by
  intro p rest
  obtain ⟨q, hq⟩ := h p rest
  exact ⟨q, lexemes_of_scanToken hc hk hq⟩

theorem reads_punctuation {c : Char} (kind : TokenKind) (hc : isSolid c)
    (hk : TokenKind.ofPunctuation? c = some kind) (hne : kind ≠ .endOfInput) :
    Reads [c] [⟨kind, String.ofList [c]⟩] := by
  refine reads_of_scanToken hc hne fun p rest => ⟨p.advance c, ?_⟩
  unfold scanToken
  rw [List.nil_append, hk]

theorem reads_operator (directed : Bool) :
    Reads (operatorChars directed) [⟨.edgeOp, String.ofList (operatorChars directed)⟩] := by
  cases directed with
  | true =>
    have arrow : ∀ p rest, ∃ q,
        scanToken p '-' (['>'] ++ rest) = (.edgeOp, ['-', '>'], ⟨q, rest⟩) :=
      fun _ _ => ⟨_, rfl⟩
    exact reads_of_scanToken (by decide) nofun arrow
  | false =>
    have line : ∀ p rest, ∃ q,
        scanToken p '-' (['-'] ++ rest) = (.edgeOp, ['-', '-'], ⟨q, rest⟩) :=
      fun _ _ => ⟨_, rfl⟩
    exact reads_of_scanToken (by decide) nofun line

/-! ### Texts in quotes -/

/-- Scanning undoes escaping, up to the closing quote, and stops behind it. -/
theorem scanString_escape (cs rest : List Char) (p : Position) :
    scanString p (escape cs ++ '"' :: rest) = (cs, ⟨p.advanceAll (escape cs ++ ['"']), rest⟩) := by
  induction cs generalizing p with
  | nil => rfl
  | cons c cs ih =>
    rw [escape_cons, List.append_assoc, List.append_assoc]
    unfold escapeChar
    -- Three characters are written as two, which are taken together.
    split
    · simp [scanString, ih, unescaped]
    · simp [scanString, ih, unescaped]
    · simp [scanString, ih, unescaped]
    · next hslash hquote hnewline =>
      rw [List.singleton_append, List.singleton_append, scanString, ih, Position.advanceAll_cons]
      · exact hquote
      · exact fun hc _ => hslash hc
      · exact fun _ _ hc _ => hslash hc

/-- The token that starts with an opening quote is the text that the quotes are about. -/
theorem scanToken_quoted (s : String) (rest : List Char) (p : Position) :
    scanToken p '"' (escape s.toList ++ ['"'] ++ rest) =
      (.string, s.toList, ⟨p.advanceAll (quoted s), rest⟩) := by
  rw [List.append_assoc, List.singleton_append]
  show (TokenKind.string, scanString (p.advance '"') (escape s.toList ++ '"' :: rest)) = _
  rw [scanString_escape, quoted, Position.advanceAll_cons]

/-- A text in quotes is one string. -/
theorem reads_quoted (s : String) : Reads (quoted s) [⟨.string, s⟩] := by
  have h : Reads (quoted s) [⟨.string, String.ofList s.toList⟩] :=
    reads_of_scanToken (by decide) nofun fun p rest => ⟨_, scanToken_quoted s rest p⟩
  rwa [String.ofList_toList] at h

/-- Whatever the text, and whatever is behind it: a reader in front of the text in quotes reads
    a string with just this text, and is then in front of what is behind the quotes. -/
theorem Lexer.next_quoted (s : String) (rest : List Char) (p : Position) :
    ({ cursor := ⟨p, quoted s ++ rest⟩ } : Lexer).next =
      (⟨.string, s, p⟩, { cursor := ⟨p.advanceAll (quoted s), rest⟩ }) := by
  have solid : (⟨p, quoted s ++ rest⟩ : Cursor).skipTrivia = ⟨p, quoted s ++ rest⟩ :=
    skipTrivia_of_isSolid (by decide) p _
  have next : (⟨p, quoted s ++ rest⟩ : Cursor).next =
      (⟨.string, s, p⟩, ⟨p.advanceAll (quoted s), rest⟩) := by
    rw [Cursor.next, solid, Cursor.token]
    simp only [quoted, List.cons_append, scanToken_quoted, String.ofList_toList]
  simp only [Lexer.next, next]

/-! ### Classes of characters -/

theorem not_inRanges_of_disjoint {rs ss : List (Nat × Nat)} {c : Char}
    (h : (rs.all fun r => ss.all fun s => r.2 < s.1 || s.2 < r.1) = true)
    (hr : inRanges rs c = true) : inRanges ss c = false := by
  refine Bool.eq_false_iff.2 fun hs => ?_
  obtain ⟨r, hr, hr₁, hr₂⟩ := inRanges_iff.1 hr
  obtain ⟨s, hs, hs₁, hs₂⟩ := inRanges_iff.1 hs
  have := List.all_eq_true.1 (List.all_eq_true.1 h r hr) s hs
  simp only [Bool.or_eq_true, decide_eq_true_eq] at this
  omega

/-- The numbers of the letters of ASCII. -/
theorem toNat_of_isAlpha {c : Char} (h : c.isAlpha) :
    65 ≤ c.toNat ∧ c.toNat ≤ 90 ∨ 97 ≤ c.toNat ∧ c.toNat ≤ 122 := by
  have hcase : (c.isUpper || c.isLower) = true := h
  rcases Bool.or_eq_true_iff.1 hcase with hupper | hlower
  · exact .inl (of_decide_eq_true hupper)
  · obtain ⟨hfirst, hlast⟩ := Bool.and_eq_true_iff.1 hlower
    exact .inr ⟨of_decide_eq_true hfirst, of_decide_eq_true hlast⟩

/-- Letters are no white space. -/
theorem isBlank_eq_false_of_isAlphabetic {c : Char} (h : isAlphabetic c) : isBlank c = false := by
  refine Bool.eq_false_iff.2 fun hb => ?_
  simp only [isAlphabetic, Bool.or_eq_true, Bool.and_eq_true, decide_eq_true_eq] at h
  rcases h with h | ⟨-, h⟩
  · have hn : 65 ≤ c.toNat ∧ c.toNat ≤ 122 := by
      have := toNat_of_isAlpha h
      omega
    have letters : inRanges [(65, 122)] c = true :=
      inRanges_iff.2 ⟨_, List.mem_singleton_self _, hn⟩
    rw [isBlank, not_inRanges_of_disjoint (by decide) letters] at hb
    cases hb
  · rw [isBlank, not_inRanges_of_disjoint (by decide +kernel) h] at hb
    cases hb

/-- An identifier starts with no white space and no punctuation. -/
theorem startsIdentifier_ne {c d : Char} (h : startsIdentifier c)
    (hd : startsIdentifier d = false) : c ≠ d := by
  rintro rfl
  rw [h] at hd
  cases hd

theorem isSolid_of_startsIdentifier {c : Char} (h : startsIdentifier c) : isSolid c := by
  have hb : isBlank c = false := by
    simp only [startsIdentifier, Bool.or_eq_true, beq_iff_eq] at h
    rcases h with h | rfl
    · exact isBlank_eq_false_of_isAlphabetic h
    · decide
  simp [isSolid, hb, startsIdentifier_ne h (d := '/') (by decide),
    startsIdentifier_ne h (d := '#') (by decide)]

theorem ofPunctuation?_of_startsIdentifier {c : Char} (h : startsIdentifier c) :
    TokenKind.ofPunctuation? c = none := by
  unfold TokenKind.ofPunctuation?
  split
  all_goals first
    | rfl
    | exact absurd h (by decide)

theorem isDigit_eq_false_of_startsIdentifier {c : Char} (h : startsIdentifier c) :
    c.isDigit = false := by
  refine Bool.eq_false_iff.2 fun hd => ?_
  have hn : 48 ≤ c.toNat ∧ c.toNat ≤ 57 := by
    simp only [Char.isDigit, Bool.and_eq_true, decide_eq_true_eq] at hd
    exact hd
  simp only [startsIdentifier, isAlphabetic, Bool.or_eq_true, Bool.and_eq_true, decide_eq_true_eq,
    beq_iff_eq] at h
  rcases h with (h | ⟨h, -⟩) | rfl
  · have := toNat_of_isAlpha h
    omega
  · omega
  · revert hn
    decide

theorem continues_of_starts {c : Char} (h : startsIdentifier c) : continuesIdentifier c := by
  simp only [startsIdentifier, continuesIdentifier, Bool.or_eq_true] at h ⊢
  exact h.imp .inl id

/-! ### Words -/

/-- The characters are an identifier. -/
def isIdentifier : List Char → Bool
  | [] => false
  | c :: cs => startsIdentifier c && cs.all continuesIdentifier

/-- The characters are a number without a sign. -/
def isUnsigned (cs : List Char) : Bool :=
  startsNumber cs && (scanNumber .start cs).2.rest.isEmpty

/-- The characters are a number, perhaps with a sign. -/
def isNumber : List Char → Bool
  | '-' :: cs => isUnsigned cs
  | cs => isUnsigned cs

/-- No word goes on with the character. -/
def endsWord (c : Char) : Bool := !continuesIdentifier c && c != '.'

/-- In front of anything that ends it, the text is read as the lexeme. -/
def ReadsAsWord (cs : List Char) (l : Lexeme) : Prop :=
  ∀ p rest, (∀ c ∈ rest.head?, endsWord c) →
    ∃ q, (⟨p, cs ++ rest⟩ : Cursor).lexemes = l :: (⟨q, rest⟩ : Cursor).lexemes

theorem ReadsAsWord.append {cs ds : List Char} {l : Lexeme} {ls : List Lexeme} {c : Char}
    (h : ReadsAsWord cs l) (hc : endsWord c) (h' : Reads (c :: ds) ls) :
    Reads (cs ++ c :: ds) (l :: ls) := by
  intro p rest
  obtain ⟨q, hq⟩ := h p (c :: ds ++ rest) (by rintro _ ⟨⟩; exact hc)
  obtain ⟨r, hr⟩ := h' q rest
  refine ⟨r, ?_⟩
  rw [List.append_assoc, hq, hr, List.cons_append]

theorem readsAsWord_of_scanToken {c : Char} {cs value : List Char} {kind : TokenKind}
    (hc : isSolid c) (hk : kind ≠ .endOfInput)
    (h : ∀ p rest, (∀ c ∈ rest.head?, endsWord c) →
      ∃ q, scanToken p c (cs ++ rest) = (kind, value, ⟨q, rest⟩)) :
    ReadsAsWord (c :: cs) ⟨kind, String.ofList value⟩ := by
  intro p rest hrest
  obtain ⟨q, hq⟩ := h p rest hrest
  exact ⟨q, lexemes_of_scanToken hc hk hq⟩

/-! ### Identifiers -/

theorem scanToken_of_startsIdentifier {c : Char} (h : startsIdentifier c) (p : Position)
    (cs : List Char) :
    scanToken p c cs = (.identifier, scanWhile continuesIdentifier p (c :: cs)) := by
  have hquote := startsIdentifier_ne h (d := '"') (by decide)
  have hhtml := startsIdentifier_ne h (d := '<') (by decide)
  have hhyphen := startsIdentifier_ne h (d := '-') (by decide)
  have hdot := startsIdentifier_ne h (d := '.') (by decide)
  have hnumber : startsNumber (c :: cs) = false := by
    simp [startsNumber, isDigit_eq_false_of_startsIdentifier h, hdot]
  unfold scanToken
  rw [ofPunctuation?_of_startsIdentifier h]
  simp only [if_neg hquote, if_neg hhtml, if_neg hhyphen, hnumber, h, if_true]
  rfl

theorem scanWhile_append {f : Char → Bool} {cs rest : List Char} (hcs : ∀ c ∈ cs, f c)
    (hrest : ∀ c ∈ rest.head?, f c = false) (p : Position) :
    scanWhile f p (cs ++ rest) = (cs, ⟨p.advanceAll cs, rest⟩) := by
  obtain ⟨htake, hdrop⟩ := takeWhile_append_stop rest hcs hrest
  simp only [scanWhile, htake, hdrop]

theorem readsAsWord_of_isIdentifier {cs : List Char} (h : isIdentifier cs) :
    ReadsAsWord cs ⟨.identifier, String.ofList cs⟩ := by
  obtain ⟨c, cs, rfl⟩ : ∃ c ds, cs = c :: ds := by
    cases cs with
    | nil => cases h
    | cons c cs => exact ⟨c, cs, rfl⟩
  obtain ⟨hc, hcs⟩ := Bool.and_eq_true_iff.1 h
  refine readsAsWord_of_scanToken (isSolid_of_startsIdentifier hc) nofun fun p rest hrest => ?_
  have all : ∀ d ∈ c :: cs, continuesIdentifier d := by
    intro d hd
    rcases List.mem_cons.1 hd with rfl | hd
    · exact continues_of_starts hc
    · exact List.all_eq_true.1 hcs d hd
  have stop : ∀ d ∈ rest.head?, continuesIdentifier d = false := by
    intro d hd
    have := hrest d hd
    simp only [endsWord, Bool.and_eq_true, Bool.not_eq_true'] at this
    exact this.1
  refine ⟨p.advanceAll (c :: cs), ?_⟩
  rw [scanToken_of_startsIdentifier hc, ← List.cons_append, scanWhile_append all stop]

/-! ### Numbers -/

theorem scanNumber_of_point {whole fraction rest : List Char} (hw : ∀ c ∈ whole, c.isDigit)
    (hf : ∀ c ∈ fraction, c.isDigit) (hrest : ∀ c ∈ rest.head?, c.isDigit = false)
    (p : Position) :
    ∃ q, scanNumber p (whole ++ '.' :: fraction ++ rest) =
      (whole ++ '.' :: fraction, ⟨q, rest⟩) := by
  have stop : ∀ c ∈ ('.' :: (fraction ++ rest)).head?, c.isDigit = false := by
    rintro c ⟨⟩
    rfl
  refine ⟨((p.advanceAll whole).advance '.').advanceAll fraction, ?_⟩
  rw [List.append_assoc, List.cons_append, scanNumber, scanWhile_append hw stop]
  simp only [scanWhile_append hf hrest]

theorem scanNumber_of_digits {whole rest : List Char} (hw : ∀ c ∈ whole, c.isDigit)
    (hrest : ∀ c ∈ rest.head?, c.isDigit = false ∧ c ≠ '.') (p : Position) :
    ∃ q, scanNumber p (whole ++ rest) = (whole, ⟨q, rest⟩) := by
  refine ⟨p.advanceAll whole, ?_⟩
  rw [scanNumber, scanWhile_append hw fun c hc => (hrest c hc).1]
  simp only
  split
  · exact absurd rfl (hrest '.' rfl).2
  · rfl

/-- What is scanned as a number is digits, or digits with a point among them. -/
theorem scanNumber_cases (p : Position) (cs : List Char) :
    (∃ whole fraction, (∀ c ∈ whole, c.isDigit) ∧ (∀ c ∈ fraction, c.isDigit) ∧
        (scanNumber p cs).1 = whole ++ '.' :: fraction) ∨
      ∀ c ∈ (scanNumber p cs).1, c.isDigit := by
  have digits : ∀ (cs : List Char), ∀ c ∈ cs.takeWhile Char.isDigit, c.isDigit := fun _ c hc =>
    List.all_eq_true.1 List.all_takeWhile c hc
  rw [scanNumber, scanWhile]
  simp only
  split
  · exact .inl ⟨_, _, digits _, digits _, rfl⟩
  · exact .inr (digits _)

/-- What is scanned as a number is scanned again, up to anything that ends it. -/
theorem scanNumber_append (p p' : Position) (cs rest : List Char)
    (hrest : ∀ c ∈ rest.head?, c.isDigit = false ∧ c ≠ '.') :
    ∃ q, scanNumber p' ((scanNumber p cs).1 ++ rest) = ((scanNumber p cs).1, ⟨q, rest⟩) := by
  rcases scanNumber_cases p cs with ⟨whole, fraction, hw, hf, heq⟩ | hw
  · rw [heq]
    exact scanNumber_of_point hw hf (fun c hc => (hrest c hc).1) p'
  · exact scanNumber_of_digits hw hrest p'

/-- What is scanned as a number starts like one. -/
theorem startsNumber_scanNumber {cs : List Char} (h : startsNumber cs) (p : Position)
    (rest : List Char) : startsNumber ((scanNumber p cs).1 ++ rest) := by
  obtain ⟨c, cs, rfl⟩ : ∃ c ds, cs = c :: ds := by
    cases cs with
    | nil => cases h
    | cons c cs => exact ⟨c, cs, rfl⟩
  simp only [startsNumber, Bool.or_eq_true, Bool.and_eq_true, beq_iff_eq] at h
  -- The first character is a digit, or a point in front of one.
  by_cases hc : c.isDigit
  · rw [scanNumber, scanWhile]
    simp only [List.takeWhile_cons, hc, if_true]
    split <;> simp [startsNumber, hc]
  · obtain ⟨rfl, hnext⟩ := h.resolve_left hc
    cases cs with
    | nil => cases hnext
    | cons d cs =>
      have hd : d.isDigit := hnext
      have hdot : ('.').isDigit = false := rfl
      simp [scanNumber, scanWhile, startsNumber, hd, hdot]

/-- What is scanned as a number is one. -/
theorem isUnsigned_scanNumber {cs : List Char} (h : startsNumber cs) (p : Position) :
    isUnsigned (scanNumber p cs).1 := by
  have starts := startsNumber_scanNumber h p []
  obtain ⟨q, hq⟩ := scanNumber_append p .start cs [] nofun
  rw [List.append_nil] at starts hq
  rw [isUnsigned, starts, hq]
  rfl

theorem exists_scanNumber_eq {cs rest : List Char} (h : isUnsigned cs)
    (hrest : ∀ c ∈ rest.head?, endsWord c) (p : Position) :
    startsNumber (cs ++ rest) ∧ ∃ q, scanNumber p (cs ++ rest) = (cs, ⟨q, rest⟩) := by
  obtain ⟨hstart, hall⟩ := Bool.and_eq_true_iff.1 h
  -- Scanning alone takes all characters.
  have self : (scanNumber .start cs).1 = cs := by
    have hreach := (scanNumber_reaches .start cs).1
    rw [List.isEmpty_iff.1 hall, List.append_nil] at hreach
    exact hreach.symm
  have stop : ∀ c ∈ rest.head?, c.isDigit = false ∧ c ≠ '.' := by
    intro c hc
    have := hrest c hc
    simp only [endsWord, continuesIdentifier, Bool.and_eq_true, Bool.not_eq_true', bne_iff_ne,
      Bool.or_eq_false_iff] at this
    obtain ⟨⟨⟨-, hnum⟩, -⟩, hdot⟩ := this
    refine ⟨Bool.eq_false_iff.2 fun hd => ?_, hdot⟩
    rw [isNumeric_of_isDigit hd] at hnum
    cases hnum
  have starts := startsNumber_scanNumber hstart .start rest
  obtain ⟨q, hq⟩ := scanNumber_append .start p cs rest stop
  rw [self] at starts hq
  exact ⟨starts, q, hq⟩

theorem scanToken_of_startsNumber {c : Char} {cs : List Char} (h : startsNumber (c :: cs))
    (p : Position) :
    isSolid c ∧ scanToken p c cs = (.number, scanNumber p (c :: cs)) := by
  have hc : c.isDigit ∨ c = '.' := by
    simp only [startsNumber, Bool.or_eq_true, Bool.and_eq_true, beq_iff_eq] at h
    exact h.imp id And.left
  have ne : ∀ d : Char, d.isDigit = false → d ≠ '.' → c ≠ d := by
    rintro d hd hdot rfl
    rcases hc with hc | hc
    · rw [hd] at hc
      cases hc
    · exact hdot hc
  have hpunctuation : TokenKind.ofPunctuation? c = none := by
    unfold TokenKind.ofPunctuation?
    split
    all_goals first
      | rfl
      | exact absurd rfl (ne _ (by decide) (by decide))
  refine ⟨?_, ?_⟩
  · have hb : isBlank c = false := by
      rcases hc with hc | rfl
      · exact Number.isBlank_eq_false_of_isDigit hc
      · decide
    simp [isSolid, hb, ne '/' (by decide) (by decide), ne '#' (by decide) (by decide)]
  · unfold scanToken
    rw [hpunctuation]
    simp only [if_neg (ne '"' (by decide) (by decide)), if_neg (ne '<' (by decide) (by decide)),
      if_neg (ne '-' (by decide) (by decide)), h, if_true]

theorem scanToken_hyphen {cs : List Char} (h : startsNumber cs) (p : Position) :
    scanToken p '-' cs =
      (.number, '-' :: (scanNumber (p.advance '-') cs).1, (scanNumber (p.advance '-') cs).2) := by
  have hpunctuation : TokenKind.ofPunctuation? '-' = none := rfl
  have hquote : ('-' : Char) ≠ '"' := by decide
  have hangle : ('-' : Char) ≠ '<' := by decide
  unfold scanToken
  rw [hpunctuation]
  simp only [if_neg hquote, if_neg hangle, if_true]
  split
  · cases h
  · cases h
  · rw [if_pos h]

theorem readsAsWord_of_isUnsigned {cs : List Char} (h : isUnsigned cs) :
    ReadsAsWord cs ⟨.number, String.ofList cs⟩ := by
  cases cs with
  | nil => exact absurd h Bool.false_ne_true
  | cons c cs =>
    have hstart := (Bool.and_eq_true_iff.1 h).1
    refine readsAsWord_of_scanToken (scanToken_of_startsNumber hstart .start).1 nofun
      fun p rest hrest => ?_
    obtain ⟨hstart, q, hq⟩ := exists_scanNumber_eq h hrest p
    rw [List.cons_append] at hstart hq
    exact ⟨q, by rw [(scanToken_of_startsNumber hstart p).2, hq]⟩

theorem readsAsWord_of_isNumber {cs : List Char} (h : isNumber cs) :
    ReadsAsWord cs ⟨.number, String.ofList cs⟩ := by
  unfold isNumber at h
  split at h
  · refine readsAsWord_of_scanToken (by decide) nofun fun p rest hrest => ?_
    obtain ⟨hstart, q, hq⟩ := exists_scanNumber_eq h hrest (p.advance '-')
    exact ⟨q, by rw [scanToken_hyphen hstart, hq]⟩
  · exact readsAsWord_of_isUnsigned h

/-! ### What tokens look like -/

theorem ofPunctuation?_ne {c : Char} {kind : TokenKind}
    (h : TokenKind.ofPunctuation? c = some kind) : kind ≠ .identifier ∧ kind ≠ .number := by
  unfold TokenKind.ofPunctuation? at h
  split at h
  all_goals first
    | (cases h; exact ⟨nofun, nofun⟩)
    | cases h

/-- An identifier is letters and digits, the first a letter. -/
theorem isIdentifier_scanToken {p : Position} {c : Char} {cs : List Char}
    (h : (scanToken p c cs).1 = .identifier) : isIdentifier (scanToken p c cs).2.1 := by
  -- All tokens of other kinds are scanned elsewhere.
  have starts : startsIdentifier c := by
    unfold scanToken at h
    split at h
    · next hk => exact absurd h (ofPunctuation?_ne hk).1
    split at h
    · cases h
    split at h
    · cases h
    split at h
    · split at h
      · cases h
      · cases h
      · split at h <;> cases h
    split at h
    · cases h
    split at h
    · next hc => exact hc
    · cases h
  rw [scanToken_of_startsIdentifier starts]
  show isIdentifier ((c :: cs).takeWhile continuesIdentifier)
  rw [List.takeWhile_cons, if_pos (continues_of_starts starts), isIdentifier, starts,
    Bool.true_and]
  exact List.all_takeWhile

/-- A number is digits, perhaps with a point and a sign. -/
theorem isNumber_scanToken {p : Position} {c : Char} {cs : List Char}
    (h : (scanToken p c cs).1 = .number) : isNumber (scanToken p c cs).2.1 := by
  unfold scanToken at h
  split at h
  · next hk => exact absurd h (ofPunctuation?_ne hk).2
  split at h
  · cases h
  split at h
  · cases h
  split at h
  · next hc =>
    -- The sign of a number, and not the start of an operator.
    subst hc
    split at h
    · cases h
    · cases h
    · split at h
      · next hstart =>
        rw [scanToken_hyphen hstart]
        exact isUnsigned_scanNumber hstart _
      · cases h
  next hhyphen =>
  split at h
  · next hstart =>
    rw [(scanToken_of_startsNumber hstart p).2]
    have hu := isUnsigned_scanNumber hstart p
    unfold isNumber
    split
    · next ds heq =>
      -- A number that starts with a digit or a point has no sign.
      have hs := (Bool.and_eq_true_iff.1 hu).1
      rw [show (scanNumber p (c :: cs)).1 = '-' :: ds from heq] at hs
      cases hs
    · exact hu
  split at h
  · cases h
  · cases h

namespace Cursor

/-- Every token up to the end of the text is scanned at some place in it. -/
theorem exists_scanToken_of_mem {c : Cursor} {t : Token} (h : t ∈ c.tokens.pending) :
    ∃ p d ds, t.kind = (scanToken p d ds).1 ∧ t.value = String.ofList (scanToken p d ds).2.1 := by
  fun_induction tokens c with
  | case1 c hend => cases h
  | case2 c hend later ih =>
    rcases List.mem_cons.1 h with rfl | h
    · have hend : c.skipTrivia.token.1.kind ≠ .endOfInput := hend
      show ∃ p d ds, c.skipTrivia.token.1.kind = _ ∧ c.skipTrivia.token.1.value = _
      unfold token at hend ⊢
      split at hend
      · exact absurd rfl hend
      · next d ds _ => exact ⟨_, d, ds, rfl, rfl⟩
    · exact ih h

end Cursor

/-! ### Texts of one lexeme -/

/-- The text is lexed as one identifier. -/
def SpellsIdentifier (k : String) : Prop := (Tokens.ofText k).lexemes = [⟨.identifier, k⟩]

/-- The text is lexed as one number. -/
def SpellsNumber (k : String) : Prop := (Tokens.ofText k).lexemes = [⟨.number, k⟩]

/-- Every lexeme of a text is scanned at some place in it. -/
theorem exists_scanToken_of_mem_lexemes {text : String} {l : Lexeme}
    (h : l ∈ (Tokens.ofText text).lexemes) :
    ∃ p c cs, (scanToken p c cs).1 = l.kind ∧ (scanToken p c cs).2.1 = l.value.toList := by
  obtain ⟨t, ht, rfl⟩ := List.mem_map.1 h
  obtain ⟨p, c, cs, hk, hv⟩ := Cursor.exists_scanToken_of_mem ht
  refine ⟨p, c, cs, hk.symm, ?_⟩
  show _ = t.value.toList
  rw [hv, String.toList_ofList]

/-- Identifiers of a text are words. -/
theorem isIdentifier_of_mem {text k : String}
    (h : (⟨.identifier, k⟩ : Lexeme) ∈ (Tokens.ofText text).lexemes) : isIdentifier k.toList := by
  obtain ⟨p, c, cs, hk, hv⟩ := exists_scanToken_of_mem_lexemes h
  rw [← hv]
  exact isIdentifier_scanToken hk

/-- Numbers of a text are words as well. -/
theorem isNumber_of_mem {text k : String}
    (h : (⟨.number, k⟩ : Lexeme) ∈ (Tokens.ofText text).lexemes) : isNumber k.toList := by
  obtain ⟨p, c, cs, hk, hv⟩ := exists_scanToken_of_mem_lexemes h
  rw [← hv]
  exact isNumber_scanToken hk

theorem Cursor.lexemes_nil (p : Position) : (⟨p, []⟩ : Cursor).lexemes = [] := by
  rw [lexemes_eq, if_pos]
  rfl

/-- A word alone is one lexeme. -/
theorem ReadsAsWord.lexemes_ofText {k : String} {l : Lexeme} (h : ReadsAsWord k.toList l) :
    (Tokens.ofText k).lexemes = [l] := by
  obtain ⟨q, hq⟩ := h .start [] nofun
  rw [List.append_nil, Cursor.lexemes_nil] at hq
  exact hq

/-- A text is one identifier exactly if it is a letter with letters and digits after
    it. -/
theorem spellsIdentifier_iff {k : String} : SpellsIdentifier k ↔ isIdentifier k.toList := by
  constructor
  · intro h
    exact isIdentifier_of_mem (by rw [h]; exact List.mem_singleton_self _)
  · intro h
    have := (readsAsWord_of_isIdentifier h).lexemes_ofText
    rwa [String.ofList_toList] at this

/-- A text is one number exactly if it is digits, perhaps with a point and a sign. -/
theorem spellsNumber_iff {k : String} : SpellsNumber k ↔ isNumber k.toList := by
  constructor
  · intro h
    exact isNumber_of_mem (by rw [h]; exact List.mem_singleton_self _)
  · intro h
    have := (readsAsWord_of_isNumber h).lexemes_ofText
    rwa [String.ofList_toList] at this

instance (k : String) : Decidable (SpellsIdentifier k) :=
  decidable_of_iff _ spellsIdentifier_iff.symm

instance (k : String) : Decidable (SpellsNumber k) := decidable_of_iff _ spellsNumber_iff.symm

theorem SpellsIdentifier.readsAsWord {k : String} (h : SpellsIdentifier k) :
    ReadsAsWord k.toList ⟨.identifier, k⟩ := by
  have := readsAsWord_of_isIdentifier (spellsIdentifier_iff.1 h)
  rwa [String.ofList_toList] at this

theorem SpellsNumber.readsAsWord {k : String} (h : SpellsNumber k) :
    ReadsAsWord k.toList ⟨.number, k⟩ := by
  have := readsAsWord_of_isNumber (spellsNumber_iff.1 h)
  rwa [String.ofList_toList] at this

end DotLang
