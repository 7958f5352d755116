import DotLang.Syntax.Fault
import DotLang.Text.Lines

/-!
# Diagnostics

A diagnostic is a message and the place in a text that it is about. Line and
column zero stand for no place at all.

* `Diagnostic.text`: the diagnostic on a line of its own;
* `Diagnostic.context`: the line of the text that it is about, with a caret under
  the place.
-/

namespace DotLang

/-- A message and the place that it is about. -/
structure Diagnostic where
  message : String
  line : Nat := 0
  col : Nat := 0
  deriving DecidableEq, Repr

namespace Diagnostic

/-- Whether the diagnostic is about a place. -/
def isLocated (d : Diagnostic) : Bool := d.line != 0 || d.col != 0

/-- The diagnostic as text. -/
def text (d : Diagnostic) : String :=
  let place := if d.isLocated then s!" at {d.line}:{d.col}" else ""
  s!"parse error{place}: {d.message}"

/-- What stands below a line before the caret at a column: a tab below each tab,
    so that the caret is in line with the text, and a space below anything
    else. -/
def padding (col : Nat) (line : List Char) : List Char :=
  (line.take (col - 1)).map fun c => if c = '\t' then '\t' else ' '

/-- The line of the source that the diagnostic is about, and a line with a caret
    under its column. There is none if the source has no such line. -/
def context (d : Diagnostic) (source : String) : String :=
  if d.line = 0 then ""
  else
    match (splitLines source.toList)[d.line - 1]? with
    | none => ""
    | some line => String.ofList (line ++ '\n' :: padding d.col line ++ ['^'])

end Diagnostic

/-- The diagnostic of a fault in a document. -/
def ParseError.diagnostic (e : ParseError) : Diagnostic :=
  ⟨e.fault.message, e.pos.line, e.pos.col⟩

end DotLang
