import DotLang.Text.Printable

/-!
# Texts in a log

How a name is shown in a line of a log: in quotes, with every character that a
reader could not see for itself written by its code point.

* `shown`: a text as it is shown.
-/

namespace DotLang

/-- A character written by its code point. -/
def codePointChars (c : Char) : List Char :=
  ['\\', 'u', '\x7b'] ++ Nat.toDigits 16 c.toNat ++ ['\x7d']

/-- A character as it is shown in quotes. -/
def shownChar (c : Char) : List Char :=
  match c with
  | '\x00' => ['\\', '0']
  | '\t' => ['\\', 't']
  | '\r' => ['\\', 'r']
  | '\n' => ['\\', 'n']
  | '"' => ['\\', '"']
  | '\\' => ['\\', '\\']
  | c => if isPrintable c && !isMark c then [c] else codePointChars c

/-- A text as it is shown in a log. -/
def shown (s : String) : String :=
  String.ofList ('"' :: (s.toList.flatMap shownChar ++ ['"']))

end DotLang
