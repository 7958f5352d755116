import DotLang.Source.Trivia
import DotLang.Text.Alphabetic
import DotLang.Text.Numeric

/-!
# Tokens

The tokens of the language and how they are cut off a text. Scanning has no
failures: a string that is never closed reaches to the end of the text, and a
character that starts no token is a token of its own.

Names are not told from keywords here; where a keyword stands decides that.

* `Cursor.next`: the next token and the cursor after it;
* `Cursor.next_reaches`: a token and the trivia before it are a part of the text;
* `Cursor.next_shorter`: every token but the end of the text takes a character.
-/

namespace DotLang

/-- The kinds of tokens. -/
inductive TokenKind where
  | endOfInput | identifier | string | number | html
  | leftBrace | rightBrace | leftBracket | rightBracket | leftParen | rightParen
  | semicolon | comma | colon | equal | edgeOp | illegal
  deriving DecidableEq, Repr, Inhabited

namespace TokenKind

/-- What a message calls a token of this kind. -/
def description : TokenKind → String
  | endOfInput => "end of input"
  | identifier => "identifier"
  | string => "string"
  | number => "number"
  | html => "html string"
  | leftBrace => "'\x7b'"
  | rightBrace => "'\x7d'"
  | leftBracket => "'['"
  | rightBracket => "']'"
  | leftParen => "'('"
  | rightParen => "')'"
  | semicolon => "';'"
  | comma => "','"
  | colon => "':'"
  | equal => "'='"
  | edgeOp => "edge operator"
  | illegal => "illegal character"

/-- The kind of token that a punctuation character is. -/
def ofPunctuation? : Char → Option TokenKind
  | '\x7b' => some leftBrace
  | '\x7d' => some rightBrace
  | '[' => some leftBracket
  | ']' => some rightBracket
  | '(' => some leftParen
  | ')' => some rightParen
  | ';' => some semicolon
  | ',' => some comma
  | ':' => some colon
  | '=' => some equal
  | _ => none

end TokenKind

/-- A token: its kind, its text and the place of its first character. Strings
    have their escapes resolved, and html strings are without their outer
    brackets. -/
structure Token where
  kind : TokenKind
  value : String
  pos : Position
  deriving DecidableEq, Repr, Inhabited

namespace Token

/-- The end of a text, as a token. -/
def endAt (p : Position) : Token := ⟨.endOfInput, "", p⟩

/-- Whether the token is the given word without quotes. -/
def isKeyword (t : Token) (word : String) : Bool := t.kind = .identifier && t.value = word

/-- Whether the token can name a node or be a value. -/
def isId (t : Token) : Bool :=
  t.kind = .identifier || t.kind = .string || t.kind = .number || t.kind = .html

/-- Whether the token can name a graph or a subgraph. -/
def isName (t : Token) : Bool :=
  t.kind = .identifier || t.kind = .string || t.kind = .number

end Token

/-! ### Classes of characters -/

/-- Whether an identifier can start with the character. -/
def startsIdentifier (c : Char) : Bool := isAlphabetic c || c == '_'

/-- Whether an identifier can go on with the character. -/
def continuesIdentifier (c : Char) : Bool := isAlphabetic c || isNumeric c || c == '_'

/-- Whether a number without a sign starts the text: a digit, or a period and a
    digit. -/
def startsNumber : List Char → Bool
  | [] => false
  | c :: cs => c.isDigit || (c == '.' && cs.head?.any Char.isDigit)

/-- The character that a backslash and the character `c` stand for in a string. -/
def unescaped (c : Char) : Char :=
  match c with
  | 'n' => '\n'
  | 't' => '\t'
  | 'r' => '\r'
  | c => c

/-! ### Scanners

Each scanner starts after the character that chose it, at the place `p`, and
gives the text of the token and the cursor after it. -/

/-- A scanned text and the cursor after it. -/
abbrev Scan := List Char × Cursor

/-- Scans the characters of the class `f`. -/
def scanWhile (f : Char → Bool) (p : Position) (cs : List Char) : Scan :=
  let run := cs.takeWhile f
  (run, ⟨p.advanceAll run, cs.dropWhile f⟩)

/-- Scans digits with at most one period before, among or after them. -/
def scanNumber (p : Position) (cs : List Char) : Scan :=
  let (whole, c) := scanWhile Char.isDigit p cs
  match c.rest with
  | '.' :: ds =>
    let (fraction, d) := scanWhile Char.isDigit (c.pos.advance '.') ds
    (whole ++ '.' :: fraction, d)
  | _ => (whole, c)

/-- Scans a string after its opening quote. A backslash stands with the character
    after it for one character; at the end of the text it stands for none. -/
def scanString : Position → List Char → Scan
  | p, [] => ([], ⟨p, []⟩)
  | p, '"' :: cs => ([], ⟨p.advance '"', cs⟩)
  | p, ['\\'] => ([], ⟨p.advance '\\', []⟩)
  | p, '\\' :: c :: cs =>
    let (value, after) := scanString ((p.advance '\\').advance c) cs
    (unescaped c :: value, after)
  | p, c :: cs =>
    let (value, after) := scanString (p.advance c) cs
    (c :: value, after)

/-- Scans an html string after its opening bracket, with `depth` more brackets
    open inside of it. -/
def scanHtml : Nat → Position → List Char → Scan
  | _, p, [] => ([], ⟨p, []⟩)
  | depth, p, c :: cs =>
    if c = '>' ∧ depth = 0 then ([], ⟨p.advance c, cs⟩)
    else
      let inner := if c = '<' then depth + 1 else if c = '>' then depth - 1 else depth
      let (value, after) := scanHtml inner (p.advance c) cs
      (c :: value, after)

/-- Scans the token that starts with the character `c` at the place `p` and goes
    on in `cs`. A hyphen starts an edge operator, or else a number, or else
    nothing. -/
def scanToken (p : Position) (c : Char) (cs : List Char) : TokenKind × Scan :=
  let single : Scan := ([c], ⟨p.advance c, cs⟩)
  match TokenKind.ofPunctuation? c with
  | some kind => (kind, single)
  | none =>
    if c = '"' then (.string, scanString (p.advance c) cs)
    else if c = '<' then (.html, scanHtml 0 (p.advance c) cs)
    else if c = '-' then
      match cs with
      | '>' :: ds => (.edgeOp, ['-', '>'], ⟨(p.advance c).advance '>', ds⟩)
      | '-' :: ds => (.edgeOp, ['-', '-'], ⟨(p.advance c).advance '-', ds⟩)
      | cs =>
        if startsNumber cs then
          let (digits, after) := scanNumber (p.advance c) cs
          (.number, '-' :: digits, after)
        else (.illegal, single)
    else if startsNumber (c :: cs) then (.number, scanNumber p (c :: cs))
    else if startsIdentifier c then (.identifier, scanWhile continuesIdentifier p (c :: cs))
    else (.illegal, single)

namespace Cursor

/-- The token at a cursor with no trivia before it, and the cursor after the
    token. -/
def token (c : Cursor) : Token × Cursor :=
  match c.rest with
  | [] => (.endAt c.pos, c)
  | first :: cs =>
    let s := scanToken c.pos first cs
    (⟨s.1, String.ofList s.2.1, c.pos⟩, s.2.2)

/-- The next token and the cursor after it. At the end of the text this is the
    end of the text, again and again. -/
def next (c : Cursor) : Token × Cursor := c.skipTrivia.token

end Cursor

/-! ### What scanning takes -/

/-- A scanner takes a part of the text. -/
theorem scanWhile_reaches (f : Char → Bool) (p : Position) (cs : List Char) :
    (⟨p, cs⟩ : Cursor).Reaches (scanWhile f p cs).1 (scanWhile f p cs).2 :=
  ⟨List.takeWhile_append_dropWhile.symm, rfl⟩

theorem scanNumber_reaches (p : Position) (cs : List Char) :
    (⟨p, cs⟩ : Cursor).Reaches (scanNumber p cs).1 (scanNumber p cs).2 := by
  have whole := scanWhile_reaches Char.isDigit p cs
  unfold scanNumber
  split
  next run c hc =>
  rw [hc] at whole
  split
  · next ds hd =>
    split
    next fraction d hf =>
    have tail := scanWhile_reaches Char.isDigit (c.pos.advance '.') ds
    rw [hf] at tail
    have dotted : c.Reaches ('.' :: fraction) d :=
      ⟨by rw [hd, List.cons_append, ← tail.1], tail.2⟩
    exact whole.trans dotted
  · exact whole

theorem scanString_reaches (p : Position) (cs : List Char) :
    ∃ w, (⟨p, cs⟩ : Cursor).Reaches w (scanString p cs).2 := by
  fun_induction scanString p cs with
  | case1 p => exact ⟨[], .refl _⟩
  | case2 p cs => exact ⟨['"'], rfl, rfl⟩
  | case3 p => exact ⟨['\\'], rfl, rfl⟩
  | case4 p c cs value after h ih =>
    rw [h] at ih
    obtain ⟨w, h₁, h₂⟩ := ih
    exact ⟨'\\' :: c :: w, by simp only [List.cons_append]; rw [← h₁], h₂⟩
  | case5 p c cs _ _ _ value after h ih =>
    rw [h] at ih
    obtain ⟨w, h₁, h₂⟩ := ih
    exact ⟨c :: w, by simp only [List.cons_append]; rw [← h₁], h₂⟩

theorem scanHtml_reaches (depth : Nat) (p : Position) (cs : List Char) :
    ∃ w, (⟨p, cs⟩ : Cursor).Reaches w (scanHtml depth p cs).2 := by
  fun_induction scanHtml depth p cs with
  | case1 _ p => exact ⟨[], .refl _⟩
  | case2 _ p c cs => exact ⟨[c], rfl, rfl⟩
  | case3 _ p c cs _ inner value after h ih =>
    rw [h] at ih
    obtain ⟨w, h₁, h₂⟩ := ih
    exact ⟨c :: w, by simp only [List.cons_append]; rw [← h₁], h₂⟩

/-- The text of a number is not empty. -/
theorem scanNumber_ne_nil {p : Position} {cs : List Char} (h : startsNumber cs = true) :
    (scanNumber p cs).1 ≠ [] := by
  cases cs with
  | nil => cases h
  | cons c cs =>
    simp only [startsNumber, Bool.or_eq_true, Bool.and_eq_true, beq_iff_eq] at h
    by_cases hc : c.isDigit = true
    · unfold scanNumber scanWhile
      simp only [List.takeWhile_cons, hc, if_true]
      split <;> simp
    · obtain ⟨rfl, -⟩ := h.resolve_left hc
      simp [scanNumber, scanWhile, hc]

/-- A token takes at least the character that it starts with. -/
theorem scanToken_reaches (p : Position) (c : Char) (cs : List Char) :
    ∃ w, w ≠ [] ∧ (⟨p, c :: cs⟩ : Cursor).Reaches w (scanToken p c cs).2.2 := by
  have single : (⟨p, c :: cs⟩ : Cursor).Reaches [c] ⟨p.advance c, cs⟩ := ⟨rfl, rfl⟩
  unfold scanToken
  split
  · exact ⟨_, by simp, single⟩
  split
  · obtain ⟨w, hw⟩ := scanString_reaches (p.advance c) cs
    exact ⟨_, by simp, single.trans hw⟩
  split
  · obtain ⟨w, hw⟩ := scanHtml_reaches 0 (p.advance c) cs
    exact ⟨_, by simp, single.trans hw⟩
  split
  · split
    · exact ⟨[c, '>'], by simp, rfl, rfl⟩
    · exact ⟨[c, '-'], by simp, rfl, rfl⟩
    · split
      · exact ⟨_, by simp, single.trans (scanNumber_reaches (p.advance c) cs)⟩
      · exact ⟨_, by simp, single⟩
  split
  · next h => exact ⟨_, scanNumber_ne_nil h, scanNumber_reaches p (c :: cs)⟩
  split
  · next h =>
    refine ⟨_, ?_, scanWhile_reaches continuesIdentifier p (c :: cs)⟩
    have : continuesIdentifier c = true := by
      simp only [startsIdentifier, continuesIdentifier, Bool.or_eq_true] at h ⊢
      exact h.imp .inl id
    simp [scanWhile, this]
  · exact ⟨_, by simp, single⟩

namespace Cursor

/-- A token is a part of the text, and not an empty one unless the text ends. -/
theorem token_reaches (c : Cursor) :
    ∃ w, c.Reaches w c.token.2 ∧ (c.token.1.kind ≠ .endOfInput → w ≠ []) := by
  unfold token
  split
  · exact ⟨[], .refl c, fun h => absurd rfl h⟩
  · next first cs hs =>
    obtain ⟨w, hne, hw⟩ := scanToken_reaches c.pos first cs
    rw [← hs] at hw
    exact ⟨w, hw, fun _ => hne⟩

/-- A token and the trivia before it are a part of the text. -/
theorem next_reaches (c : Cursor) : ∃ w, c.Reaches w c.next.2 := by
  obtain ⟨v, hv⟩ := c.skipTrivia_reaches
  obtain ⟨w, hw, -⟩ := c.skipTrivia.token_reaches
  exact ⟨v ++ w, hv.trans hw⟩

/-- Every token but the end of the text takes a character. -/
theorem next_shorter {c : Cursor} (h : c.next.1.kind ≠ .endOfInput) :
    c.next.2.rest.length < c.rest.length := by
  obtain ⟨v, hv⟩ := c.skipTrivia_reaches
  obtain ⟨w, hw, hne⟩ := c.skipTrivia.token_reaches
  have trivia := congrArg List.length hv.1
  have lexeme := congrArg List.length hw.1
  have := List.length_pos_iff.2 (hne h)
  simp only [List.length_append] at trivia lexeme
  show c.skipTrivia.token.2.rest.length < _
  omega

end Cursor

end DotLang
