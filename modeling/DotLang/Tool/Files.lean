import DotLang.Graph.OfText
import DotLang.Listing.Sink

/-!
# Files

What a program can do with files: it opens the file that a path leads to, reads all of it, or
makes it anew and writes to it. What paths lead to, and when this fails, is for the file system
to say.

* `FileSystem`: what can be asked of a file system;
* `FileSystem.read`, `FileSystem.readText`: the contents of the file that a path leads to;
* `FileSystem.save`: makes a text the contents of the file that a path leads to;
* `Graph.ofFile`: the graph in a file.
-/

namespace DotLang

/-- A file system with the states `σ` and the files `φ`, to which several paths may lead. Where it
    fails, it does so with a message. -/
structure FileSystem (σ φ : Type) where
  /-- The file that a path leads to, opened to be read. -/
  find : String → σ → Except String φ
  /-- All of an open file. -/
  contents : φ → σ → Except String ByteArray
  /-- The file that a path leads to, emptied and opened to be written. If there is none, it is
      made. -/
  create : String → σ → Except String φ × σ
  /-- What an open file takes of bytes. -/
  writer : φ → Writer σ

namespace FileSystem

variable {σ φ : Type} (fs : FileSystem σ φ)

/-- The contents of the file that a path leads to. -/
def read (path : String) (s : σ) : Except String ByteArray :=
  match fs.find path s with
  | .error message => .error message
  | .ok file => fs.contents file s

/-- The text of the file that a path leads to. -/
def readText (path : String) (s : σ) : Except ReadError String :=
  match fs.read path s with
  | .error message => .error (.failed message)
  | .ok bytes => DotLang.readText bytes

/-- Makes a text the contents of the file that a path leads to. If this fails, there is a
    message. -/
def save (path text : String) (s : σ) : Option String × σ :=
  match fs.create path s with
  | (.error message, s) => (some message, s)
  | (.ok file, s) =>
    match (fs.writer file).writeAll text.toUTF8.data.toList s with
    | (none, s) => (none, s)
    | (some e, s) => (some e.message, s)

end FileSystem

/-- The graph in the file that a path leads to. -/
def Graph.ofFile {σ φ : Type} (fs : FileSystem σ φ) (path : String) (s : σ) :
    Except LoadError Graph :=
  match fs.readText path s with
  | .error e => .error (.unopened path e)
  | .ok text => (Graph.ofText text).mapError .malformed

end DotLang
