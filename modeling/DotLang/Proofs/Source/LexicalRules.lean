import DotLang.Source.Lexer

/-!
# The lexical rules

How a text is cut into trivia and tokens, independently of how it is scanned. A rule
says what a piece of text is in front of the text behind it, and most pieces are
*maximal*: they do not go on with what is behind them.

* `Lexical.LongestTrivia`: as much trivia as there is at a place;
* `Lexical.Rule`: the rules of the kinds of tokens;
* `Lexical.Lexes`: a piece of text is a token, by a rule or because there is none;
* `Lexer.Splits`: what it means to read a token of a text.
-/

namespace DotLang

namespace Lexical

/-- The characters are of a class, and with more of the text behind them they are not. -/
def Maximal (P : List Char → Prop) (cs rest : List Char) : Prop :=
  P cs ∧ ∀ more, more <+: rest → P (cs ++ more) → more = []

/-! ### Trivia -/

/-- All that is left of a line, its newline apart. -/
def RestOfLine : List Char → List Char → Prop := Maximal fun cs => '\n' ∉ cs

/-- A comment does not end among these characters. -/
def Unclosed (cs : List Char) : Prop := ¬['*', '/'] <:+: cs

/-- A single piece of trivia at a place, in front of the text behind it. A comment that
    is never closed is one only at the end of the text. -/
inductive Piece (p : Position) : List Char → List Char → Prop
  | blank {c : Char} (rest : List Char) : isBlank c → Piece p [c] rest
  | lineComment {body rest : List Char} : RestOfLine body rest → Piece p ('/' :: '/' :: body) rest
  | hashLine {body rest : List Char} : p.col = 1 → RestOfLine body rest → Piece p ('#' :: body) rest
  | blockComment {body : List Char} (rest : List Char) : Unclosed body →
      Piece p ('/' :: '*' :: (body ++ ['*', '/'])) rest
  | openComment {body : List Char} : Unclosed body → Piece p ('/' :: '*' :: body) []

/-- Trivia at a place: pieces of it, each in front of the next. -/
inductive Trivia : Position → List Char → List Char → Prop
  | nil (p : Position) (rest : List Char) : Trivia p [] rest
  | cons {p : Position} {v w rest : List Char} : Piece p v (w ++ rest) →
      Trivia (p.advanceAll v) w rest → Trivia p (v ++ w) rest

/-- As much trivia as there is at a place. -/
def LongestTrivia (p : Position) (w rest : List Char) : Prop :=
  Trivia p w rest ∧
    ∀ w' rest', w' ++ rest' = w ++ rest → Trivia p w' rest' → w'.length ≤ w.length

/-! ### Tokens -/

/-- A letter or an underscore, and letters, digits and underscores behind it. -/
inductive Word : List Char → Prop
  | mk {c : Char} {cs : List Char} : startsIdentifier c → (∀ d ∈ cs, continuesIdentifier d) →
      Word (c :: cs)

/-- Digits, any number of them. -/
def Digits (cs : List Char) : Prop := ∀ c ∈ cs, c.isDigit

/-- Digits with at most one period before, among or after them. -/
inductive Numeral : List Char → Prop
  | whole {ds : List Char} : ds ≠ [] → Digits ds → Numeral ds
  | point {ds es : List Char} : ds ≠ [] ∨ es ≠ [] → Digits ds → Digits es →
      Numeral (ds ++ '.' :: es)

/-- A numeral, perhaps with a hyphen in front of it. -/
inductive SignedNumeral : List Char → Prop
  | plain {cs : List Char} : Numeral cs → SignedNumeral cs
  | negative {cs : List Char} : Numeral cs → SignedNumeral ('-' :: cs)

/-- Characters between quotes and what they stand for. A backslash stands with the
    character behind it for one character, a quote too. -/
inductive Escaped : List Char → List Char → Prop
  | nil : Escaped [] []
  | plain {c : Char} {raw value : List Char} : c ≠ '"' → c ≠ '\\' → Escaped raw value →
      Escaped (c :: raw) (c :: value)
  | escape (c : Char) {raw value : List Char} : Escaped raw value →
      Escaped ('\\' :: c :: raw) (unescaped c :: value)

/-- No bracket is closed that has not been opened. -/
def Nested (cs : List Char) : Prop := ∀ u, u <+: cs → u.count '>' ≤ u.count '<'

/-- The rules of tokens: a lexeme in front of the text behind it, the kind of the token
    and its text. Strings and html strings that are never closed end with the text, a
    string perhaps with a backslash that stands for nothing. -/
inductive Rule : List Char → List Char → TokenKind → List Char → Prop
  | punctuation {c : Char} {kind : TokenKind} (rest : List Char) :
      TokenKind.ofPunctuation? c = some kind → Rule [c] rest kind [c]
  | edgeOp {c : Char} (rest : List Char) : c = '>' ∨ c = '-' →
      Rule ['-', c] rest .edgeOp ['-', c]
  | identifier {cs rest : List Char} : Maximal Word cs rest → Rule cs rest .identifier cs
  | number {cs rest : List Char} : Maximal SignedNumeral cs rest → Rule cs rest .number cs
  | string {raw value : List Char} (rest : List Char) : Escaped raw value →
      Rule ('"' :: (raw ++ ['"'])) rest .string value
  | openString {raw value : List Char} : Escaped raw value → Rule ('"' :: raw) [] .string value
  | cutString {raw value : List Char} : Escaped raw value →
      Rule ('"' :: (raw ++ ['\\'])) [] .string value
  | html {inner : List Char} (rest : List Char) : Nested inner →
      inner.count '>' = inner.count '<' → Rule ('<' :: (inner ++ ['>'])) rest .html inner
  | openHtml {inner : List Char} : Nested inner → Rule ('<' :: inner) [] .html inner

/-- A lexeme in front of the text behind it is a token: by a rule, or else because no
    rule holds of any beginning of the text. -/
inductive Lexes : List Char → List Char → TokenKind → List Char → Prop
  | rule {lexeme rest value : List Char} {kind : TokenKind} : Rule lexeme rest kind value →
      Lexes lexeme rest kind value
  | illegal {c : Char} {rest : List Char} :
      (∀ lexeme rest' kind value, lexeme ++ rest' = c :: rest → ¬Rule lexeme rest' kind value) →
      Lexes [c] rest .illegal [c]

end Lexical

/-! ### Reading a text -/

namespace Lexer

/-- The readers of a text that reading and looking ahead lead to. -/
inductive Reached (text : List Char) : Lexer → Prop
  | start : Reached text (.ofText text)
  | next {l : Lexer} : Reached text l → Reached text l.next.2
  | peek {l : Lexer} : Reached text l → Reached text l.peek.2

/-- Reading the next token splits what is left of a text into trivia, a lexeme and the
    rest: as much trivia as there is, and the only lexeme there is behind it. The reader
    stands at the rest then. -/
structure Splits (text : List Char) (l : Lexer) (before trivia lexeme rest : List Char) :
    Prop where
  text_eq : text = before ++ (trivia ++ (lexeme ++ rest))
  cursor_eq : l.cursor = ⟨Position.start.advanceAll before, trivia ++ (lexeme ++ rest)⟩
  longest : Lexical.LongestTrivia l.cursor.pos trivia (lexeme ++ rest)
  pos_eq : l.next.1.pos = Position.start.advanceAll (before ++ trivia)
  next_eq : l.next.2 =
    { cursor := ⟨Position.start.advanceAll (before ++ (trivia ++ lexeme)), rest⟩ }
  endOfInput_iff : l.next.1.kind = .endOfInput ↔ lexeme ++ rest = []
  value_of_end : lexeme ++ rest = [] → l.next.1.value = ""
  lexes : lexeme ++ rest ≠ [] →
    lexeme ≠ [] ∧ Lexical.Lexes lexeme rest l.next.1.kind l.next.1.value.toList
  unique : ∀ lexeme' rest' kind value, lexeme' ++ rest' = lexeme ++ rest →
    Lexical.Lexes lexeme' rest' kind value →
      lexeme' = lexeme ∧ kind = l.next.1.kind ∧ value = l.next.1.value.toList

end Lexer

end DotLang
