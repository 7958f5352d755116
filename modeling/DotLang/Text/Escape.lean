/-!
# Escapes in strings

How a text is written between quotes. Backslashes, quotes and newlines are
escaped and all other characters stand for themselves.

* `escape`: a text without its quotes;
* `quoted`: a text with its quotes.
-/

namespace DotLang

/-- How a character is written between quotes. -/
def escapeChar (c : Char) : List Char :=
  match c with
  | '\\' => ['\\', '\\']
  | '"' => ['\\', '"']
  | '\n' => ['\\', 'n']
  | c => [c]

/-- How a text is written between quotes. -/
def escape (cs : List Char) : List Char := cs.flatMap escapeChar

/-- A text in quotes. -/
def quoted (s : String) : List Char := '"' :: (escape s.toList ++ ['"'])

@[simp] theorem escape_nil : escape [] = [] := rfl

@[simp] theorem escape_cons (c : Char) (cs : List Char) :
    escape (c :: cs) = escapeChar c ++ escape cs := rfl

end DotLang
