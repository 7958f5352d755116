import DotLang.Listing.Printing

/-!
# Writing to a sink

Bytes are offered to a writer, which may take only some of them, or fail. What it has not taken
it is offered again, until it takes no more. A sink is a writer that takes bytes up to a capacity
and fails from then on: with an error of its own, or by not taking any more. Writing stops at the
first failure.

* `Writer.writeAll`: all bytes of a piece;
* `Graph.writeWith`: the text of a graph;
* `Graph.writeLineWith`: the text of a graph and a newline;
* `Graph.writeTo`: the text of a graph, to a sink.
-/

namespace DotLang

/-- Why a sink did not take all bytes. -/
inductive SinkError where
  /-- The error of the sink itself. -/
  | refused (message : String)
  /-- The sink took no more bytes. -/
  | full
  deriving DecidableEq, Repr

/-- The wording of a failure. -/
def SinkError.message : SinkError → String
  | refused message => message
  | full => "failed to write whole buffer"

/-! ### Writers -/

/-- What a writer answers when it is offered bytes. -/
inductive Answer where
  /-- It has taken so many of them, the first ones. -/
  | took (count : Nat)
  | failed (message : String)
  deriving DecidableEq, Repr

/-- The answer that is a failure. -/
def SinkError.answer : SinkError → Answer
  | refused message => .failed message
  | full => .took 0

/-- A writer with the states `σ`: what it answers to bytes in a state, and its state then. An
    interruption is no answer: the writer is asked again. -/
structure Writer (σ : Type) where
  offer : List UInt8 → σ → Answer × σ

/-- Writes bytes: what has not been taken is offered again, until the writer fails. -/
def Writer.writeAll {σ : Type} (w : Writer σ) (bytes : List UInt8) (s : σ) :
    Option SinkError × σ :=
  if _h : bytes = [] then (none, s)
  else
    match w.offer bytes s with
    | (.took 0, s) => (some .full, s)
    | (.took (k + 1), s) => w.writeAll (bytes.drop (k + 1)) s
    | (.failed message, s) => (some (.refused message), s)
termination_by bytes.length
decreasing_by
  have := List.length_pos_iff.2 _h
  simp only [List.length_drop]
  omega

/-! ### Graphs -/

/-- The bytes of characters in the UTF-8 encoding. -/
def utf8 (cs : List Char) : List UInt8 := cs.flatMap String.utf8EncodeChar

/-- A writer while a graph is printed to it, and its error if it has failed. -/
structure Adapter (σ : Type) where
  inner : σ
  error : Option SinkError := none

/-- Writes a piece of text. If the writer fails, its error is kept and printing is cut short. -/
def Adapter.put {σ : Type} (w : Writer σ) (piece : List Char) : Print (Adapter σ) Unit :=
  fun a =>
    match w.writeAll (utf8 piece) a.inner with
    | (none, s) => (.ok (), { a with inner := s })
    | (some e, s) => (.error (), { inner := s, error := some e })

/-- Writes the text of a graph. The error is that of the writer, if it has one. -/
def Graph.writeWith {σ : Type} (g : Graph) (w : Writer σ) (s : σ) : Option SinkError × σ :=
  match g.print (Adapter.put w) { inner := s } with
  | (.ok _, a) => (none, a.inner)
  | (.error _, a) => (some (a.error.getD (.refused "formatter error")), a.inner)

/-- Writes the text of a graph, and a newline if that has not failed. -/
def Graph.writeLineWith {σ : Type} (g : Graph) (w : Writer σ) (s : σ) : Option SinkError × σ :=
  match g.writeWith w s with
  | (none, s) => w.writeAll (utf8 ['\n']) s
  | (some e, s) => (some e, s)

/-! ### Sinks -/

/-- A sink for bytes. -/
structure Sink where
  /-- What it has taken. -/
  written : List UInt8 := []
  /-- How many more bytes it takes, if there is a limit. -/
  capacity : Option Nat := none
  /-- What it answers to bytes beyond its capacity. -/
  failure : SinkError := .full
  deriving DecidableEq, Repr

namespace Sink

/-- What a sink answers to bytes: it takes what it has room for, and fails if there is none. -/
def writer : Writer Sink where
  offer bytes s :=
    match s.capacity with
    | none => (.took bytes.length, { s with written := s.written ++ bytes })
    | some 0 => (s.failure.answer, s)
    | some room =>
      (.took (min bytes.length room),
        { s with written := s.written ++ bytes.take room, capacity := some (room - bytes.length) })

/-- Writes bytes as far as there is room. The error is that of the first byte
    without room. -/
def write (s : Sink) (bytes : List UInt8) : Sink × Option SinkError :=
  match s.capacity with
  | none => ({ s with written := s.written ++ bytes }, none)
  | some room =>
    ({ s with written := s.written ++ bytes.take room, capacity := some (room - bytes.length) },
      if bytes.length ≤ room then none else some s.failure)

end Sink

/-- Writes the text of a graph to a sink. -/
def Graph.writeTo (g : Graph) (s : Sink) : Sink × Option SinkError :=
  (g.writeWith Sink.writer s).swap

end DotLang
