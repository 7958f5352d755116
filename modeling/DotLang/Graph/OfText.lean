import DotLang.Graph.OfDocument
import DotLang.Source.Diagnostic
import DotLang.Syntax.Parser

/-!
# The graph of a text

A text is cut into tokens, the tokens are read as a document, and the document
takes effect on an empty graph.

* `Parsed.ofText`: the document of a text, with the remarks on it;
* `Graph.ofText`: the graph of a text;
* `Graph.ofBytes`: the graph of bytes, which may be no text at all.
-/

namespace DotLang

/-- All the tokens of a text. -/
def Tokens.ofText (text : String) : Tokens := (Cursor.ofText text.toList).tokens

/-- The document of a text, with the remarks on it. -/
def Parsed.ofText (text : String) : Parsed := (Tokens.ofText text).parse

/-- The graph of what was parsed. -/
def Parsed.graph (p : Parsed) : Except ParseError Graph := p.result.map Document.toGraph

/-- The graph of a text. -/
def Graph.ofText (text : String) : Except ParseError Graph := (Parsed.ofText text).graph

/-- The graph of a text is that of its document. -/
theorem Graph.exists_document {text : String} {g : Graph} (h : Graph.ofText text = .ok g) :
    ∃ d, (Parsed.ofText text).result = .ok d ∧ d.toGraph = g := by
  have h : (Parsed.ofText text).result.map Document.toGraph = .ok g := h
  cases hr : (Parsed.ofText text).result with
  | ok d =>
    rw [hr] at h
    exact ⟨d, rfl, Except.ok.inj h⟩
  | error e =>
    rw [hr] at h
    cases h

/-- Why bytes could not be read as text. -/
inductive ReadError where
  /-- The source of the bytes failed. -/
  | failed (message : String)
  /-- The bytes are not in the UTF-8 encoding. -/
  | notUtf8
  deriving DecidableEq, Repr

/-- The wording of a failure to read. -/
def ReadError.message : ReadError → String
  | failed message => message
  | notUtf8 => "stream did not contain valid UTF-8"

/-- Reads bytes as text. -/
def readText (bytes : ByteArray) : Except ReadError String :=
  match String.fromUTF8? bytes with
  | some text => .ok text
  | none => .error .notUtf8

/-- Why there is no graph in a source. -/
inductive LoadError where
  /-- A stream could not be read. -/
  | unreadable (error : ReadError)
  /-- A file could not be read. -/
  | unopened (path : String) (error : ReadError)
  /-- The text is no document. -/
  | malformed (error : ParseError)
  deriving DecidableEq

/-- The diagnostic of a source without a graph. -/
def LoadError.diagnostic : LoadError → Diagnostic
  | unreadable e => { message := s!"failed to read input: {e.message}" }
  | unopened path e => { message := s!"failed to open file \"{path}\": {e.message}" }
  | malformed e => e.diagnostic

/-- The graph of bytes from a stream, which may fail after the last of them. A
    failure of the stream counts before a failure of the encoding. -/
def Graph.ofBytes (bytes : ByteArray) (failure : Option String) : Except LoadError Graph :=
  match failure with
  | some message => .error (.unreadable (.failed message))
  | none =>
    match readText bytes with
    | .error e => .error (.unreadable e)
    | .ok text => (Graph.ofText text).mapError .malformed

end DotLang
