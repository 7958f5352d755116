import DotLang.Text.Shown
import DotLang.Tool.Files
import DotLang.Tool.Log
import DotLang.Tool.Options

/-!
# The formatter

The formatter reads a document, checks it and writes it back in its canonical
form. A run is a function of the arguments, the files and the standard input,
in any file system.

* `Options.plan`: all that happens to the input before anything is written;
* `Options.deliver`: writing a graph, to a file or to the standard output;
* `Options.run`: a run with options;
* `format`: a whole run.
-/

namespace DotLang

/-- The wording of a remark. -/
def Remark.message : Remark → String
  | ignoredPort port node => s!"Ignoring port \"{port}\" of node \"{node}\""
  | expanded edges => s!"Expanding edge statement into {edges} edges"

namespace Graph

/-- How much there is in a graph. -/
def tally (g : Graph) : String :=
  let name := shown (g.name.getD "")
  s!"{name}: {g.numNodes} nodes, {g.numEdges} edges, {g.subgraphs.length} subgraphs"

mutual

/-- The description of a subgraph and of those inside of it, further to the
    right. -/
def describeSubgraph (g : Graph) (indent : Nat) : Subgraph → List String
  | ⟨name, attrs, nodeIds, edgeIndices, children⟩ =>
    let s : Subgraph := ⟨name, attrs, nodeIds, edgeIndices, children⟩
    let margin := String.ofList (List.replicate indent ' ')
    let kind := if s.isCluster then "Cluster" else "Subgraph"
    let nodes := (g.subgraphNodes s).length
    let edges := edgeIndices.size
    let attributes := attrs.entries.length
    s!"{margin}{kind} {shown name}: {nodes} nodes, {edges} edges, {attributes} attributes"
      :: describeSubgraphs g (indent + 2) children

/-- The descriptions of subgraphs, one after the other. -/
def describeSubgraphs (g : Graph) (indent : Nat) : List Subgraph → List String
  | [] => []
  | s :: subs => describeSubgraph g indent s ++ describeSubgraphs g indent subs

end

/-- The description of a graph, line by line. -/
def describe (g : Graph) : List String :=
  let strict := if g.strict then "strict " else ""
  let kind := if g.directed then "digraph" else "graph"
  s!"{strict}{kind} {g.tally}" :: g.describeSubgraphs 2 g.subgraphs

end Graph

/-- What a run does before it writes. -/
structure Plan where
  log : List Record
  exit : Nat
  /-- The graph that is to be written. Without one the run is over. -/
  graph : Option Graph := none

/-- The records of the steps of parsing, up to the last statement. -/
def parsingLog (text : String) (remarks : List Remark) : List Record :=
  ⟨.debug, .reading, s!"Parsing {text.utf8ByteSize} bytes of DOT input"⟩
    :: remarks.map fun r => ⟨.debug, .parsing, r.message⟩

/-- The records of an input that is no document. -/
def faultLog (path text : String) (e : ParseError) : List Record :=
  let context := e.diagnostic.context text
  (if context = "" then [] else [⟨.error, .tool, "\n" ++ context⟩])
    ++ [⟨.error, .tool, s!"{path}: {e.diagnostic.text}"⟩]

namespace Options

/-- What a run does with the graph of its input. -/
def planGraph (o : Options) (g : Graph) : Plan :=
  let summary := if o.summary then g.describe.map (⟨.info, .tool, ·⟩) else []
  if o.checkOnly then { log := summary ++ [⟨.info, .tool, s!"{o.input}: ok"⟩], exit := 0 }
  else { log := summary, exit := 0, graph := some g }

/-- What a run does with the text of its input. -/
def planText (o : Options) (text : String) : Plan :=
  let parsed := Parsed.ofText text
  let steps := parsingLog text parsed.remarks
  match parsed.graph with
  | .error e => { log := steps ++ faultLog o.input text e, exit := 1 }
  | .ok g =>
    let plan := o.planGraph g
    { plan with log := steps ++ ⟨.debug, .parsing, s!"Parsed graph {g.tally}"⟩ :: plan.log }

/-- What a run does with its input. -/
def plan (o : Options) (input : Except ReadError String) : Plan :=
  match input with
  | .error e =>
    { log := [⟨.error, .tool, s!"Could not read the file {o.input}"⟩,
        ⟨.error, .tool, s!"Error {e.message}"⟩]
      exit := 1 }
  | .ok text => o.planText text

/-- The text of a log as far as it is asked for. -/
def visible (o : Options) (log : List Record) : String :=
  logText (log.filter fun r => o.debug || r.level != .debug)

end Options

/-- The record of a file that was written. -/
def savedRecord (path : String) : Record := ⟨.info, .saving, s!"Wrote {path}"⟩

/-- The records of a file that could not be written. -/
def unsavedLog (message : String) : List Record :=
  [⟨.error, .tool, "Could not write the output"⟩, ⟨.error, .tool, s!"Error {message}"⟩]

/-- What the formatter says to a request for its version. -/
def versionText : String := "dotfmt 1.x\n"

/-- What writing a graph comes to. -/
structure Delivery (σ : Type) where
  /-- The message, if it has failed. -/
  error : Option String := none
  log : List Record := []
  /-- What the standard output has taken. -/
  stdout : List UInt8 := []
  files : σ

/-- What a run leaves behind. -/
structure Outcome (σ : Type) where
  exit : Nat
  stdout : List UInt8
  stderr : String
  files : σ

section

variable {σ φ : Type} (fs : FileSystem σ φ)

/-- Writes a graph and a newline. In a file they come in one piece, and on the standard output,
    which takes all bytes, piece by piece. -/
def Options.deliver (o : Options) (g : Graph) (s : σ) : Delivery σ :=
  match o.output with
  | some path =>
    match fs.save path (g.display ++ "\n") s with
    | (none, s) => { log := [savedRecord path], files := s }
    | (some message, s) => { error := some message, files := s }
  | none =>
    match g.writeLineWith Sink.writer {} with
    | (none, out) => { stdout := out.written, files := s }
    | (some e, out) => { error := some e.message, stdout := out.written, files := s }

/-- Does what has been planned. -/
def Options.carryOut (o : Options) (plan : Plan) (s : σ) : Outcome σ :=
  match plan.graph with
  | none => ⟨plan.exit, [], o.visible plan.log, s⟩
  | some g =>
    let d := o.deliver fs g s
    match d.error with
    | none => ⟨plan.exit, d.stdout, o.visible (plan.log ++ d.log), d.files⟩
    | some message =>
      ⟨1, d.stdout, o.visible (plan.log ++ d.log ++ unsavedLog message), d.files⟩

/-- A run with options. A hyphen stands for the standard input. -/
def Options.run (o : Options) (stdin : ByteArray) (s : σ) : Outcome σ :=
  let input := if o.input = "-" then readText stdin else fs.readText o.input s
  o.carryOut fs (o.plan input) s

/-- A whole run. Arguments that are no options end it at once, with exit code
    two. -/
def format (args : List String) (stdin : ByteArray) (s : σ) : Outcome σ :=
  match Options.ofArgs args with
  | .error _ => ⟨2, [], "", s⟩
  | .ok .version => ⟨0, utf8 versionText.toList, "", s⟩
  | .ok (.format o) => o.run fs stdin s

end

end DotLang
