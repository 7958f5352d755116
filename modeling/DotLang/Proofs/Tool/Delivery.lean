import DotLang.Proofs.Listing.Writing
import DotLang.Proofs.Syntax.Acceptance
import DotLang.Tool.Format
import Mathlib.Logic.Function.Basic

/-!
# What a run of the formatter leaves behind

A run reads one input and writes at most once, when everything that can be wrong with
the input has been found. An input that is no document is not written anywhere, nor is
one that is only to be checked. Otherwise the same bytes go to the standard output, piece
by piece, or to a file, in one piece, and these depend on the document alone.

The file system may be any. All that is assumed of it is that a file is made without
failing later, or not at all.

* `FileSystem.Creates`: the assumption on a file system;
* `FileSystem.Creates.save`: a text that is saved is all that the file holds;
* `Graph.writeLineWith_sink`: the standard output gets the same bytes;
* `Options.run_delivers`: what a run leaves behind, for all options, inputs and file
  systems.
-/

namespace DotLang

/-! ### Files -/

namespace FileSystem

variable {σ φ : Type} {fs : FileSystem σ φ} {path : String} {file : φ} {held : ByteArray}
  {s s' s'' : σ}

/-- A path leads to a file that holds the given bytes. -/
structure Holds (fs : FileSystem σ φ) (path : String) (file : φ) (held : ByteArray) (s : σ) :
    Prop where
  find : fs.find path s = .ok file
  contents : fs.contents file s = .ok held

/-- All other files are as they were: they hold the same bytes, and the same paths lead to
    them. -/
def OthersKept (fs : FileSystem σ φ) (file : φ) (s s' : σ) : Prop :=
  ∀ other, other ≠ file → fs.contents other s' = fs.contents other s ∧
    ∀ p, fs.find p s' = .ok other ↔ fs.find p s = .ok other

/-- A file that is open to be written takes something of all that it is offered, and puts it
    behind what it holds. -/
def Appends (fs : FileSystem σ φ) (path : String) (file : φ) (s : σ) : Prop :=
  ∀ {taken offered : List UInt8} {held : ByteArray} {s' : σ},
    (fs.writer file).Takes s taken s' → fs.Holds path file held s' → offered ≠ [] →
      ∃ k s'', (fs.writer file).offer offered s' = (.took k, s'') ∧ 0 < k ∧ k ≤ offered.length ∧
        fs.Holds path file (held ++ (offered.take k).toByteArray) s'' ∧ fs.OthersKept file s' s''

/-- What is assumed of making the file that a path leads to: either this fails and nothing has
    changed, or the file is empty and takes all that will be written to it. -/
structure Creates (fs : FileSystem σ φ) (path : String) (s : σ) : Prop where
  failed : ∀ {message : String} {s' : σ}, fs.create path s = (.error message, s') → s' = s
  made : ∀ {file : φ} {s' : σ}, fs.create path s = (.ok file, s') →
    fs.Holds path file .empty s' ∧ fs.OthersKept file s s' ∧ fs.Appends path file s'

theorem OthersKept.refl (fs : FileSystem σ φ) (file : φ) (s : σ) : fs.OthersKept file s s :=
  fun _ _ => ⟨rfl, fun _ => Iff.rfl⟩

theorem OthersKept.trans (h : fs.OthersKept file s s') (h' : fs.OthersKept file s' s'') :
    fs.OthersKept file s s'' := fun other ne =>
  ⟨(h' other ne).1.trans (h other ne).1, fun p => ((h' other ne).2 p).trans ((h other ne).2 p)⟩

/-- What has been taken leaves the file open. -/
theorem Appends.of_took {offered : List UInt8} {k : Nat} (h : fs.Appends path file s)
    (took : (fs.writer file).offer offered s = (.took k, s')) (pos : 0 < k)
    (le : k ≤ offered.length) : fs.Appends path file s' := by
  have first := Writer.Takes.offer took pos le .nothing
  exact fun {_ _ _ _} later => h (first.trans later)

/-- All bytes that are written to an open file come behind what it holds. -/
theorem Appends.writeAll (h : fs.Appends path file s) (holds : fs.Holds path file held s)
    (bytes : List UInt8) : ∃ s', (fs.writer file).writeAll bytes s = (none, s') ∧
      fs.Holds path file (held ++ bytes.toByteArray) s' ∧ fs.OthersKept file s s' := by
  fun_induction Writer.writeAll (fs.writer file) bytes s generalizing held with
  | case1 s => exact ⟨s, rfl, by simpa using holds, .refl fs file s⟩
  | case2 bytes s ne s' full =>
    obtain ⟨k, _, took, pos, -, -⟩ := h .nothing holds ne
    cases full.symm.trans took
    exact absurd pos (Nat.lt_irrefl 0)
  | case3 bytes s ne k s' took ih =>
    obtain ⟨_, _, took', -, le, holds', kept⟩ := h .nothing holds ne
    cases took.symm.trans took'
    obtain ⟨s'', written, all, later⟩ := ih (h.of_took took k.succ_pos le) holds'
    rw [ByteArray.append_assoc, ← List.toByteArray_append, List.take_append_drop] at all
    exact ⟨s'', written, all, kept.trans later⟩
  | case4 bytes s ne message s' failed =>
    obtain ⟨k, _, took, -, -, -⟩ := h .nothing holds ne
    cases failed.symm.trans took

/-- Saving a text fails only if no file can be made, and otherwise the file holds the text and
    nothing else. -/
theorem Creates.save (h : fs.Creates path s) (text : String) :
    (∀ message s', fs.create path s = (.error message, s') →
      fs.save path text s = (some message, s)) ∧
    ∀ file s', fs.create path s = (.ok file, s') → ∃ s'', fs.save path text s = (none, s'') ∧
      fs.Holds path file text.toUTF8 s'' ∧ fs.OthersKept file s s'' := by
  constructor
  · intro message s' failed
    rw [FileSystem.save, failed, h.failed failed]
  · intro file s' made
    obtain ⟨empty, kept, appends⟩ := h.made made
    obtain ⟨s'', written, holds, later⟩ := appends.writeAll empty text.toUTF8.data.toList
    have whole : text.toUTF8.data.toList.toByteArray = text.toUTF8 :=
      ByteArray.ext (List.data_toByteArray.trans Array.toArray_toList)
    rw [ByteArray.empty_append, whole] at holds
    refine ⟨s'', ?_, holds, kept.trans later⟩
    simp only [FileSystem.save, made, written]

end FileSystem

/-! ### Texts and bytes -/

/-- Bytes are read as a text exactly if they are its encoding. -/
theorem readText_eq_ok_iff {bytes : ByteArray} {text : String} :
    readText bytes = .ok text ↔ bytes = text.toUTF8 := by
  rw [readText, String.fromUTF8?]
  constructor
  · intro h
    split at h
    · next hvalid =>
      split at hvalid
      · cases hvalid
        cases h
        rfl
      · cases hvalid
    · cases h
  · rintro rfl
    have valid : text.toUTF8.IsValidUTF8 := text.isValidUTF8
    rw [dif_pos valid]
    rfl

/-- The bytes of the text that a graph is put out as, with a newline behind it. -/
def Graph.delivered (g : Graph) : ByteArray := (g.display ++ "\n").toUTF8

/-- A sink without a limit that takes a graph piece by piece, and then a newline, has taken the
    same bytes. -/
theorem Graph.writeLineWith_sink (g : Graph) :
    g.writeLineWith Sink.writer {} = (none, { written := g.delivered.data.toList }) := by
  have taken : g.writeWith Sink.writer {} = (none, { written := g.bytes }) :=
    congrArg Prod.swap (g.writeTo_eq {})
  have delivered : g.delivered.data.toList = g.bytes ++ utf8 ['\n'] := by
    have line : g.display ++ "\n" = String.ofList (g.chars ++ ['\n']) := by
      rw [g.display_eq_text, Graph.text, String.ofList_append]
    rw [Graph.delivered, line, toUTF8_ofList, List.data_toByteArray, utf8_append, g.bytes_eq]
  rw [writeLineWith, taken, delivered]
  exact Sink.writeAll_writer _ _

/-! ### Runs -/

section

variable {σ φ : Type}

/-- A run that has ended with an exit code and has written nothing. -/
structure Outcome.WritesNothing (out : Outcome σ) (s : σ) (exit : Nat) : Prop where
  exit : out.exit = exit
  stdout : out.stdout = []
  files : out.files = s

/-- A run that has written bytes where the options ask for: to the standard output, or to the
    file that a path leads to. If no file can be made there, nothing has happened. -/
def Outcome.Delivers (out : Outcome σ) (fs : FileSystem σ φ) (s : σ) (bytes : ByteArray) :
    Option String → Prop
  | none => out.exit = 0 ∧ out.stdout = bytes.data.toList ∧ out.files = s
  | some path => fs.Creates path s →
    (∀ message s', fs.create path s = (.error message, s') → out.WritesNothing s 1) ∧
    ∀ file s', fs.create path s = (.ok file, s') → out.exit = 0 ∧ out.stdout = [] ∧
      fs.Holds path file bytes out.files ∧ fs.OthersKept file s out.files

namespace Options

variable (o : Options) (fs : FileSystem σ φ) (stdin : ByteArray) (s : σ)

/-- The bytes that a run reads. -/
def inputBytes : Except String ByteArray := if o.input = "-" then .ok stdin else fs.read o.input s

/-- What a run reads as its input. -/
def inputText : Except ReadError String :=
  if o.input = "-" then readText stdin else fs.readText o.input s

theorem inputText_eq_ok_iff {text : String} :
    o.inputText fs stdin s = .ok text ↔ o.inputBytes fs stdin s = .ok text.toUTF8 := by
  rw [inputText, inputBytes]
  split
  · rw [readText_eq_ok_iff, Except.ok.injEq]
  · rw [FileSystem.readText]
    split
    · next h =>
      rw [h]
      exact ⟨nofun, nofun⟩
    · next h => rw [h, readText_eq_ok_iff, Except.ok.injEq]

theorem run_eq : o.run fs stdin s = o.carryOut fs (o.plan (o.inputText fs stdin s)) s := rfl

/-- What is planned for an input that is no document. -/
theorem plan_of_no_graph {input : Except ReadError String}
    (h : ¬∃ text g, input = .ok text ∧ Graph.ofText text = .ok g) :
    (o.plan input).graph = none ∧ (o.plan input).exit = 1 := by
  cases input with
  | error e => exact ⟨rfl, rfl⟩
  | ok text =>
    cases hg : (Parsed.ofText text).graph with
    | error e =>
      rw [plan, planText, hg]
      exact ⟨rfl, rfl⟩
    | ok g => exact absurd ⟨text, g, rfl, hg⟩ h

/-- What is planned for a document. -/
theorem plan_of_graph {text : String} {g : Graph} (h : Graph.ofText text = .ok g) :
    (o.plan (.ok text)).exit = 0 ∧
      (o.plan (.ok text)).graph = if o.checkOnly then none else some g := by
  have hg : (Parsed.ofText text).graph = .ok g := h
  rw [plan, planText, hg]
  dsimp only [planGraph]
  cases o.checkOnly <;> exact ⟨rfl, rfl⟩

/-- Neither a summary nor records of the steps change what is planned to be written. -/
theorem plan_flags (input : Except ReadError String) (summary debug : Bool) :
    ({ o with summary, debug }.plan input).exit = (o.plan input).exit ∧
      ({ o with summary, debug }.plan input).graph = (o.plan input).graph := by
  by_cases h : ∃ text g, input = .ok text ∧ Graph.ofText text = .ok g
  · obtain ⟨text, g, rfl, hg⟩ := h
    obtain ⟨exit, graph⟩ := o.plan_of_graph hg
    obtain ⟨exit', graph'⟩ := { o with summary, debug }.plan_of_graph hg
    exact ⟨exit'.trans exit.symm, graph'.trans graph.symm⟩
  · obtain ⟨graph, exit⟩ := o.plan_of_no_graph h
    obtain ⟨graph', exit'⟩ := { o with summary, debug }.plan_of_no_graph h
    exact ⟨exit'.trans exit.symm, graph'.trans graph.symm⟩

variable {o fs s} {plan : Plan} {g : Graph}

theorem carryOut_none (h : plan.graph = none) :
    (o.carryOut fs plan s).WritesNothing s plan.exit := by
  rw [carryOut, h]
  exact ⟨rfl, rfl, rfl⟩

theorem carryOut_some (exit : plan.exit = 0) (h : plan.graph = some g) :
    (o.carryOut fs plan s).Delivers fs s g.delivered o.output := by
  rw [carryOut, h]
  dsimp only
  cases houtput : o.output with
  | none =>
    have delivery : o.deliver fs g s = { stdout := g.delivered.data.toList, files := s } := by
      rw [deliver, houtput, g.writeLineWith_sink]
    rw [delivery]
    exact ⟨exit, rfl, rfl⟩
  | some path =>
    intro creates
    obtain ⟨lost, saved⟩ := creates.save (g.display ++ "\n")
    constructor
    · intro message s' failed
      have delivery : o.deliver fs g s = { error := some message, files := s } := by
        simp only [deliver, houtput, lost message s' failed]
      rw [delivery]
      exact ⟨rfl, rfl, rfl⟩
    · intro file s' made
      obtain ⟨s'', written, holds, kept⟩ := saved file s' made
      have delivery : o.deliver fs g s = { log := [savedRecord path], files := s'' } := by
        simp only [deliver, houtput, written]
      rw [delivery]
      exact ⟨exit, rfl, holds, kept⟩

/-- What is written depends on what is planned and on the output, and on nothing else of the
    options. -/
theorem carryOut_congr {o' : Options} {plan' : Plan} (output : o'.output = o.output)
    (exit : plan'.exit = plan.exit) (graph : plan'.graph = plan.graph) :
    (o'.carryOut fs plan' s).exit = (o.carryOut fs plan s).exit ∧
      (o'.carryOut fs plan' s).stdout = (o.carryOut fs plan s).stdout ∧
      (o'.carryOut fs plan' s).files = (o.carryOut fs plan s).files := by
  have delivery (g : Graph) : o'.deliver fs g s = o.deliver fs g s := by
    rw [deliver, deliver, output]
  rw [carryOut, carryOut, graph, exit]
  cases plan.graph with
  | none => exact ⟨rfl, rfl, rfl⟩
  | some g =>
    dsimp only
    rw [delivery]
    cases (o.deliver fs g s).error <;> exact ⟨rfl, rfl, rfl⟩

/-- What a run leaves behind. If its input is no text or the text no document, it fails and
    nothing is written; nor is a document that is only checked. Of any other document the same
    bytes are written, to the standard output or to the file that the options name, unless this
    file cannot be made. What is written does not depend on the flags for the log. -/
theorem run_delivers (o : Options) (fs : FileSystem σ φ) (stdin : ByteArray) (s : σ) :
    ((¬∃ text g, o.inputBytes fs stdin s = .ok text.toUTF8 ∧ Graph.ofText text = .ok g) →
      (o.run fs stdin s).WritesNothing s 1) ∧
    (∀ text g, o.inputBytes fs stdin s = .ok text.toUTF8 → Graph.ofText text = .ok g →
      (o.checkOnly = true → (o.run fs stdin s).WritesNothing s 0) ∧
      (o.checkOnly = false → (o.run fs stdin s).Delivers fs s g.delivered o.output)) ∧
    ∀ summary debug, let out := { o with summary, debug }.run fs stdin s
      out.exit = (o.run fs stdin s).exit ∧ out.stdout = (o.run fs stdin s).stdout ∧
        out.files = (o.run fs stdin s).files := by
  refine ⟨fun h => ?_, fun text g hinput hg => ⟨fun hcheck => ?_, fun hcheck => ?_⟩,
    fun summary debug => ?_⟩
  · have none_read : ¬∃ text g, o.inputText fs stdin s = .ok text ∧ Graph.ofText text = .ok g := by
      rintro ⟨text, g, hinput, hg⟩
      exact h ⟨text, g, (o.inputText_eq_ok_iff fs stdin s).1 hinput, hg⟩
    obtain ⟨graph, exit⟩ := o.plan_of_no_graph none_read
    exact exit ▸ carryOut_none graph
  · obtain ⟨exit, graph⟩ := o.plan_of_graph hg
    rw [if_pos hcheck] at graph
    rw [run_eq, (o.inputText_eq_ok_iff fs stdin s).2 hinput]
    exact exit ▸ carryOut_none graph
  · obtain ⟨exit, graph⟩ := o.plan_of_graph hg
    rw [if_neg (by rw [hcheck]; nofun)] at graph
    rw [run_eq, (o.inputText_eq_ok_iff fs stdin s).2 hinput]
    exact carryOut_some exit graph
  · obtain ⟨exit, graph⟩ := o.plan_flags (o.inputText fs stdin s) summary debug
    exact carryOut_congr rfl exit graph

end Options

end

/-! ### Files by name -/

/-- The files of a directory without directories, by name. A path with a slash in it leads
    nowhere. -/
def FileSystem.byName : FileSystem (String → Option ByteArray) String where
  find name s :=
    if (s name).isSome then .ok name else .error "No such file or directory (os error 2)"
  contents name s := (s name).elim (.error "No such file or directory (os error 2)") .ok
  create name s :=
    if name.isEmpty || name.toList.contains '/' then
      (.error "No such file or directory (os error 2)", s)
    else (.ok name, Function.update s name (some .empty))
  writer name :=
    { offer bytes s := (.took bytes.length,
        Function.update s name ((s name).map (· ++ bytes.toByteArray))) }

namespace FileSystem

theorem byName_holds_iff {path name : String} {held : ByteArray} {s : String → Option ByteArray} :
    byName.Holds path name held s ↔ path = name ∧ s name = some held := by
  constructor
  · rintro ⟨found, contents⟩
    cases hp : s path with
    | none => simp [byName, hp] at found
    | some bytes =>
      obtain rfl : path = name := by simpa [byName, hp] using found
      exact ⟨rfl, by simpa [byName, hp] using contents⟩
  · rintro ⟨rfl, hp⟩
    exact ⟨by simp [byName, hp], by simp [byName, hp]⟩

theorem byName_othersKept (name : String) (bytes : Option ByteArray)
    (s : String → Option ByteArray) :
    byName.OthersKept name s (Function.update s name bytes) := by
  intro other ne
  have same : Function.update s name bytes other = s other := Function.update_of_ne ne ..
  refine ⟨by simp only [byName, same], fun p => ?_⟩
  by_cases hp : p = other
  · rw [hp]
    simp only [byName, same]
  · have found (s : String → Option ByteArray) : byName.find p s ≠ .ok other := by
      simp only [byName]
      split
      · exact fun h => hp (Except.ok.inj h)
      · nofun
    exact iff_of_false (found _) (found _)

/-- Files by name are made and written as is assumed. -/
theorem byName_creates (path : String) (s : String → Option ByteArray) :
    byName.Creates path s where
  failed {message s'} h := by
    simp only [byName] at h
    split at h
    · exact (congrArg Prod.snd h).symm
    · cases h
  made {file s'} h := by
    simp only [byName] at h
    split at h
    · cases h
    · cases h
      refine ⟨byName_holds_iff.2 ⟨rfl, Function.update_self ..⟩, byName_othersKept _ _ _, ?_⟩
      intro taken offered held s' _ holds ne
      obtain ⟨-, hs⟩ := byName_holds_iff.1 holds
      refine ⟨offered.length, _, rfl, List.length_pos_iff.2 ne, Nat.le_refl _,
        byName_holds_iff.2 ⟨rfl, ?_⟩, byName_othersKept _ _ _⟩
      rw [Function.update_self, hs, List.take_length]
      rfl

end FileSystem

/-- A document is formatted in place. Nothing is written where no file can be made, and an input
    that is no document is not written over another file. -/
theorem Options.run_delivers_inPlace :
    let files : String → Option ByteArray :=
      Function.update (fun _ => none) "a.dot" (some "graph\x7bb\x7d".toUTF8)
    let inPlace : Options := { input := "a.dot", output := some "a.dot" }
    let nowhere : Options := { input := "a.dot", output := some "missing/a.dot" }
    let empty : Options := { input := "-", output := some "a.dot" }
    let out := inPlace.run .byName .empty files
    FileSystem.byName.Creates "a.dot" files ∧
      (out.exit = 0 ∧ out.stdout = [] ∧
        out.files "a.dot" = some "graph \x7b\n\t\"b\";\n\x7d\n".toUTF8 ∧
        FileSystem.byName.OthersKept "a.dot" files out.files) ∧
      (nowhere.run .byName .empty files).WritesNothing files 1 ∧
      (empty.run .byName .empty files).WritesNothing files 1 := by
  intro files inPlace nowhere empty out
  obtain ⟨g, hg, text⟩ := Graph.exists_of_toOption_any "graph\x7bb\x7d"
    (P := fun g => g.text = "graph \x7b\n\t\"b\";\n\x7d") (by decide +kernel)
  have read : FileSystem.byName.read "a.dot" files = .ok "graph\x7bb\x7d".toUTF8 := by
    simp [FileSystem.read, FileSystem.byName, files]
  obtain ⟨-, delivers, -⟩ := run_delivers inPlace .byName .empty files
  obtain ⟨-, lost, -⟩ := run_delivers nowhere .byName .empty files
  have creates := FileSystem.byName_creates "a.dot" files
  refine ⟨creates, ?_, ?_, ?_⟩
  · obtain ⟨exit, stdout, holds, kept⟩ := ((delivers _ g read hg).2 rfl creates).2 "a.dot" _ rfl
    refine ⟨exit, stdout, ?_, kept⟩
    rw [(FileSystem.byName_holds_iff.1 holds).2, Graph.delivered, g.display_eq_text, text]
    rfl
  · exact ((lost _ g read hg).2 rfl (FileSystem.byName_creates ..)).1 _ _ rfl
  · refine (run_delivers empty .byName .empty files).1 ?_
    rintro ⟨text, g, hinput, hg⟩
    have bytes : ByteArray.empty = text.toUTF8 := Except.ok.inj hinput
    obtain rfl : text = "" := (String.toByteArray_inj.1 bytes).symm
    have malformed : (Graph.ofText "").toOption.isNone = true := by decide +kernel
    rw [hg] at malformed
    cases malformed

end DotLang
