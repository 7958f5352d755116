import DotLang.Source.Token

/-!
# Reading tokens in turn

Tokens are read one after the other, with one token of lookahead, or all at once.

* `Lexer.peek`, `Lexer.next`: reading in turn;
* `Cursor.tokens`: all the tokens from a cursor on.
-/

namespace DotLang

/-- A reader of tokens: a cursor, and the token before it that has been looked at
    but not read. -/
structure Lexer where
  cursor : Cursor
  ahead : Option Token := none
  deriving DecidableEq

namespace Lexer

/-- The reader at the start of a text. -/
def ofText (text : List Char) : Lexer := { cursor := .ofText text }

/-- Reads a token. -/
def next (l : Lexer) : Token × Lexer :=
  match l.ahead with
  | some t => (t, { l with ahead := none })
  | none => (l.cursor.next.1, { cursor := l.cursor.next.2 })

/-- Looks at the next token without reading it. -/
def peek (l : Lexer) : Token × Lexer :=
  (l.next.1, { l.next.2 with ahead := some l.next.1 })

end Lexer

/-- All the tokens of a text, the end of the text apart, and where it ends. -/
structure Tokens where
  pending : List Token
  stop : Position
  deriving DecidableEq, Repr, Inhabited

namespace Tokens

/-- The next token, which is the end of the text when no other is left. -/
def head (ts : Tokens) : Token := ts.pending.head?.getD (.endAt ts.stop)

/-- The tokens with the end of the text as the last one. -/
def toList (ts : Tokens) : List Token := ts.pending ++ [.endAt ts.stop]

end Tokens

/-- All the tokens from a cursor on. -/
def Cursor.tokens (c : Cursor) : Tokens :=
  if _h : c.next.1.kind = .endOfInput then ⟨[], c.next.1.pos⟩
  else
    let later := c.next.2.tokens
    ⟨c.next.1 :: later.pending, later.stop⟩
termination_by c.rest.length
decreasing_by exact c.next_shorter _h

/-- The end of a text is not among its tokens. -/
theorem Cursor.kind_ne_endOfInput (c : Cursor) : ∀ t ∈ c.tokens.pending, t.kind ≠ .endOfInput := by
  fun_induction Cursor.tokens c with
  | case1 c h => exact nofun
  | case2 c h later ih => exact List.forall_mem_cons.2 ⟨h, ih⟩

end DotLang
