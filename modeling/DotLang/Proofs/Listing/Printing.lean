import DotLang.Listing.Printing

/-!
# What is printed

A graph is put out in many pieces, and each function that puts out a part of it is a sequence of
them, whatever takes them. So nothing depends on how the text is cut into pieces, and nothing is
put out behind a piece that is not taken.

* `Print.Puts`: the pieces are put out one after the other, and are a text together;
* `Claims.contains_nodes_addAll`, `Claims.contains_edges_addAll`: what is claimed is what is found
  in the tree of subgraphs;
* `Graph.puts_print`: the pieces of a graph are its text;
* `Graph.display_eq_text`: so what appends them has the text of the graph.
-/

namespace DotLang

variable {σ : Type} {put : List Char → Print σ Unit}

namespace Print

/-- What is put out are pieces of a text, one after the other. -/
def Puts (put : List Char → Print σ Unit) (p : Print σ Unit) (cs : List Char) : Prop :=
  ∃ pieces : List (List Char), p = pieces.forM put ∧ pieces.flatten = cs

variable {p q : Print σ Unit} {cs ds : List Char}

theorem puts_nil : Puts put (pure ()) [] := ⟨[], rfl, rfl⟩

theorem Puts.bind (h : Puts put p cs) (h' : Puts put q ds) :
    Puts put (do p; q) (cs ++ ds) := by
  obtain ⟨pieces, rfl, rfl⟩ := h
  obtain ⟨pieces', rfl, rfl⟩ := h'
  exact ⟨pieces ++ pieces', (List.forM_append ..).symm, List.flatten_append⟩

theorem Puts.when (h : Puts put p cs) (c : Bool) :
    Puts put (when c p) (if c then cs else []) := by
  unfold Print.when
  split
  · exact h
  · exact puts_nil

/-- A loop puts out what its steps do. -/
theorem puts_forM {α : Type} {as : List α} {f : α → Print σ Unit} {k : α → List Char}
    (h : ∀ a ∈ as, Puts put (f a) (k a)) : Puts put (as.forM f) (as.flatMap k) := by
  induction as with
  | nil => exact puts_nil
  | cons a as ih =>
    obtain ⟨ha, has⟩ := List.forall_mem_cons.1 h
    exact ha.bind (ih has)

/-- A loop that takes its steps on a condition puts out what these do. -/
theorem puts_forM_when {α : Type} {f : α → Print σ Unit} {k : α → List Char} (c : α → Bool)
    (h : ∀ a, Puts put (f a) (k a)) (as : List α) :
    Puts put (as.forM fun a => Print.when (c a) (f a)) ((as.filter c).flatMap k) := by
  induction as with
  | nil => exact puts_nil
  | cons a as ih =>
    have chars : ((a :: as).filter c).flatMap k =
        (if c a = true then k a else []) ++ (as.filter c).flatMap k := by
      by_cases hc : c a = true <;> simp [hc]
    rw [chars]
    exact ((h a).when (c a)).bind ih

variable (put)

theorem puts_piece (cs : List Char) : Puts put (put cs) cs :=
  ⟨[cs], (bind_pure_unit (x := put cs)).symm, List.append_nil cs⟩

/-! ### Lines -/

theorem puts_tabs (depth : Nat) : Puts put (tabs put depth) (List.replicate depth '\t') := by
  refine ⟨_, rfl, ?_⟩
  induction depth with
  | zero => rfl
  | succ depth ih => rw [List.replicate_succ, List.flatten_cons, ih]; rfl

theorem puts_pair (entry : String × String) : Puts put (pair put entry) (attributeChars entry) :=
  (puts_piece put _).bind ((puts_piece put _).bind (puts_piece put _))

/-- What a loop puts out with a separator before each step but the first. -/
theorem puts_separated {α : Type} {f : α → Print σ Unit} {k : α → List Char} (sep : List Char)
    (h : ∀ a, Puts put (f a) (k a)) (as : List α) : Puts put
    (as.zipIdx.forM fun (a, i) => do
      Print.when (0 < i) (put sep)
      f a)
    (sep.intercalate (as.map k)) := by
  have later : ∀ (as : List α) (i : Nat), 0 < i → Puts put
      ((as.zipIdx i).forM fun (a, i) => do
        Print.when (0 < i) (put sep)
        f a)
      (as.flatMap fun a => sep ++ k a) := by
    intro as i hi
    induction as generalizing i with
    | nil => exact puts_nil
    | cons a as ih =>
      have first := ((puts_piece put sep).when (0 < i)).bind (h a)
      rw [if_pos (decide_eq_true hi)] at first
      exact first.bind (ih (i + 1) (Nat.succ_pos i))
  cases as with
  | nil => exact puts_nil
  | cons a as =>
    have chars : sep.intercalate ((a :: as).map k) = k a ++ as.flatMap fun a => sep ++ k a := by
      induction as generalizing a with
      | nil => simp
      | cons b as ih =>
        rw [List.map_cons, List.map_cons, List.intercalate_cons_cons, ← List.map_cons, ih,
          List.flatMap_cons]
        simp only [List.append_assoc]
    rw [chars]
    exact (((puts_piece put sep).when false).bind (h a)).bind (later as 1 Nat.one_pos)

theorem puts_brackets (entries : List (String × String)) :
    Puts put (brackets put entries) (bracketChars entries) := by
  have list := (puts_piece put ['[']).bind
    ((puts_separated put [',', ' '] (puts_pair put) entries).bind (puts_piece put [']']))
  rw [brackets, bracketChars]
  exact list

theorem puts_lineEnd (entries : List (String × String)) :
    Puts put (lineEnd put entries) (suffixChars entries ++ [';', '\n']) := by
  have list := ((puts_piece put [' ']).bind (puts_brackets put entries)).when !entries.isEmpty
  have chars : suffixChars entries =
      if (!entries.isEmpty) = true then [' '] ++ bracketChars entries else [] := by
    unfold suffixChars
    cases entries.isEmpty <;> rfl
  rw [chars, lineEnd]
  exact list.bind (puts_piece put [';', '\n'])

/-- The text of lines. -/
def linesChars (directed : Bool) (lines : List Line) : List Char :=
  lines.flatMap (Line.chars directed)

theorem puts_title (name : Option String) :
    Puts put (title put name) (name.elim [] fun name => ' ' :: quoted name) := by
  cases name with
  | none => exact puts_nil
  | some name => exact (puts_piece put [' ']).bind (puts_piece put (quoted name))

theorem puts_opening (directed : Bool) (name : Option String) :
    Puts put (opening put name) (Item.chars directed (.opening name) ++ ['\n']) := by
  cases name with
  | none =>
    have line := puts_piece put "subgraph \x7b\n".toList
    have chars : "subgraph \x7b\n".toList = "subgraph ".toList ++ ['\x7b'] ++ ['\n'] := by decide
    rw [chars] at line
    rw [opening, chars]
    exact line
  | some name =>
    have line := (puts_piece put "subgraph ".toList).bind
      ((puts_piece put (quoted name)).bind (puts_piece put [' ', '\x7b', '\n']))
    have chars : Item.chars directed (.opening (some name)) =
        "subgraph ".toList ++ quoted name ++ [' ', '\x7b'] := rfl
    rw [opening, chars, List.append_assoc, List.append_assoc]
    exact line

theorem puts_assignments (directed : Bool) (depth : Nat) (entries : List (String × String)) :
    Puts put (assignments put depth entries)
      (linesChars directed (Graph.assignLines depth entries)) := by
  have line : ∀ entry ∈ entries, Puts put
      (do tabs put depth; pair put entry; put [';', '\n'])
      (Line.chars directed ⟨depth, .assign entry.1 entry.2⟩) := by
    intro entry _
    have chars : Line.chars directed ⟨depth, .assign entry.1 entry.2⟩ =
        List.replicate depth '\t' ++ (attributeChars entry ++ [';']) ++ ['\n'] := rfl
    rw [chars, List.append_assoc, List.append_assoc]
    exact (puts_tabs put depth).bind ((puts_pair put entry).bind (puts_piece put [';', '\n']))
  have all := puts_forM line
  rwa [linesChars, Graph.assignLines, List.flatMap_map]

theorem puts_defaults (directed : Bool) (keyword : String) (entries : List (String × String)) :
    Puts put (defaults put keyword entries)
      (linesChars directed (Graph.defaultsLines keyword entries)) := by
  have line := (puts_tabs put 1).bind <| (puts_piece put keyword.toList).bind <|
    (puts_piece put [' ']).bind <| (puts_brackets put entries).bind (puts_piece put [';', '\n'])
  have chars : Line.chars directed ⟨1, .defaults keyword entries⟩ = List.replicate 1 '\t' ++
      (keyword.toList ++ ' ' :: bracketChars entries ++ [';']) ++ ['\n'] := rfl
  rw [defaults, Graph.defaultsLines]
  cases entries.isEmpty with
  | true => exact puts_nil
  | false =>
    rw [linesChars, if_neg Bool.false_ne_true, List.flatMap_singleton, chars]
    simp only [List.append_assoc, List.cons_append, List.nil_append] at line ⊢
    exact line

end Print

/-! ### Claims -/

namespace Claims

open Subgraph

mutual

/-- A node is claimed by a subgraph exactly if it is declared in it or inside of it. -/
theorem contains_nodes_add (id : String) (c : Claims) : (s : Subgraph) →
    (c.add s).nodes.contains id = (c.nodes.contains id || s.containsNode id)
  | ⟨_, _, nodeIds, _, children⟩ => by
    rw [add, contains_nodes_addAll id _ children, Std.HashSet.contains_insertMany_list, containsNode,
      ← Bool.or_assoc, Array.contains_toList]

theorem contains_nodes_addAll (id : String) (c : Claims) : (subs : List Subgraph) →
    (c.addAll subs).nodes.contains id = (c.nodes.contains id || anyContainsNode id subs)
  | [] => by rw [addAll, anyContainsNode, Bool.or_false]
  | s :: subs => by
    rw [addAll, contains_nodes_addAll id _ subs, contains_nodes_add id c s, anyContainsNode,
      Bool.or_assoc]

end

mutual

/-- An edge is claimed by a subgraph exactly if it was made in it or inside of it. -/
theorem contains_edges_add (i : Nat) (c : Claims) : (s : Subgraph) →
    (c.add s).edges.contains i = (c.edges.contains i || s.recordsEdge i)
  | ⟨_, _, _, edgeIndices, children⟩ => by
    rw [add, contains_edges_addAll i _ children, Std.HashSet.contains_insertMany_list, recordsEdge,
      ← Bool.or_assoc, Array.contains_toList]

theorem contains_edges_addAll (i : Nat) (c : Claims) : (subs : List Subgraph) →
    (c.addAll subs).edges.contains i = (c.edges.contains i || anyRecordsEdge i subs)
  | [] => by rw [addAll, anyRecordsEdge, Bool.or_false]
  | s :: subs => by
    rw [addAll, contains_edges_addAll i _ subs, contains_edges_add i c s, anyRecordsEdge,
      Bool.or_assoc]

end

end Claims

/-! ### Graphs -/

namespace Graph

theorem contains_nodes_claims (g : Graph) (id : String) :
    g.claims.nodes.contains id = Subgraph.anyContainsNode id g.subgraphs := by
  rw [claims, Claims.contains_nodes_addAll, Std.HashSet.contains_empty, Bool.false_or]

theorem contains_edges_claims (g : Graph) (i : Nat) :
    g.claims.edges.contains i = Subgraph.anyRecordsEdge i g.subgraphs := by
  rw [claims, Claims.contains_edges_addAll, Std.HashSet.contains_empty, Bool.false_or]

variable (put)

open Print

theorem puts_printNode (g : Graph) (depth : Nat) (n : Node) :
    Puts put (g.printNode put depth n) ((g.nodeLine depth n).chars g.directed) := by
  let entries := Attributes.withoutDefaults n.attrs.entries g.nodeDefaults.entries
  have line := (puts_tabs put depth).bind <| (puts_piece put (quoted n.id)).bind <|
    puts_lineEnd put entries
  have chars : (g.nodeLine depth n).chars g.directed = List.replicate depth '\t' ++
      (quoted n.id ++ suffixChars entries ++ [';']) ++ ['\n'] := rfl
  rw [chars]
  simp only [List.append_assoc, List.singleton_append] at line ⊢
  exact line

theorem puts_printEdge (g : Graph) (depth : Nat) (e : Edge) :
    Puts put (g.printEdge put depth e) ((g.edgeLine depth e).chars g.directed) := by
  let entries := Attributes.withoutDefaults e.attrs.entries g.edgeDefaults.entries
  have line := (puts_tabs put depth).bind <| (puts_piece put (quoted e.tail)).bind <|
    (puts_piece put [' ']).bind <| (puts_piece put (operatorChars g.directed)).bind <|
    (puts_piece put [' ']).bind <| (puts_piece put (quoted e.head)).bind <| puts_lineEnd put entries
  have chars : (g.edgeLine depth e).chars g.directed = List.replicate depth '\t' ++
      (quoted e.tail ++ ' ' :: operatorChars g.directed ++ ' ' :: quoted e.head ++
        suffixChars entries ++ [';']) ++ ['\n'] := rfl
  rw [chars]
  simp only [List.append_assoc, List.cons_append, List.nil_append] at line ⊢
  exact line

theorem puts_nodes (g : Graph) (depth : Nat) (ns : List Node) :
    Puts put (ns.forM (g.printNode put depth))
      (linesChars g.directed (ns.map (g.nodeLine depth))) := by
  rw [linesChars, List.flatMap_map]
  exact puts_forM fun n _ => g.puts_printNode put depth n

theorem puts_edges (g : Graph) (depth : Nat) (es : List Edge) :
    Puts put (es.forM (g.printEdge put depth))
      (linesChars g.directed (es.map (g.edgeLine depth))) := by
  rw [linesChars, List.flatMap_map]
  exact puts_forM fun e _ => g.puts_printEdge put depth e

mutual

theorem puts_printSubgraph (g : Graph) (depth : Nat) : (s : Subgraph) →
    Puts put (g.printSubgraph put depth s) (linesChars g.directed (g.subgraphLines depth s))
  | ⟨name, attrs, nodeIds, edgeIndices, children⟩ => by
    let s : Subgraph := ⟨name, attrs, nodeIds, edgeIndices, children⟩
    have lines := (puts_tabs put depth).bind <|
      (puts_opening put g.directed s.name?).bind <|
      (puts_assignments put g.directed (depth + 1) attrs.entries).bind <|
      (g.puts_nodes put (depth + 1) (g.subgraphNodes s)).bind <|
      (puts_printSubgraphs g (depth + 1) children).bind <|
      (g.puts_edges put (depth + 1) (g.subgraphEdges s)).bind <|
      (puts_tabs put depth).bind (puts_piece put ['\x7d', '\n'])
    have opened : ∀ name, Line.chars g.directed ⟨depth, .opening name⟩ =
        List.replicate depth '\t' ++ Item.chars g.directed (.opening name) ++ ['\n'] :=
      fun _ => rfl
    have closed : Line.chars g.directed ⟨depth, .closing⟩ =
        List.replicate depth '\t' ++ ['\x7d'] ++ ['\n'] := rfl
    rw [printSubgraph, subgraphLines]
    simp only [linesChars, List.flatMap_append, List.flatMap_cons, List.flatMap_nil, opened, closed,
      List.append_assoc, List.singleton_append, List.append_nil] at lines ⊢
    exact lines

theorem puts_printSubgraphs (g : Graph) (depth : Nat) : (subs : List Subgraph) →
    Puts put (g.printSubgraphs put depth subs) (linesChars g.directed (g.subgraphsLines depth subs))
  | [] => puts_nil
  | s :: subs => by
    have lines := (puts_printSubgraph g depth s).bind (puts_printSubgraphs g depth subs)
    rw [subgraphsLines, linesChars, List.flatMap_append]
    exact lines

end

theorem puts_printTitle (g : Graph) : Puts put (g.printTitle put) g.titleChars := by
  have line := ((puts_piece put "strict ".toList).when g.strict).bind <|
    (puts_piece put (if g.directed then "digraph".toList else "graph".toList)).bind <|
    (puts_title put g.name).bind (puts_piece put [' ', '\x7b', '\n'])
  rw [titleChars, List.append_assoc, List.append_assoc]
  exact line

/-- The nodes that no subgraph claims are put out. -/
theorem puts_looseNodes (g : Graph) : Puts put
    (g.nodes.forM fun n => Print.when (!g.claims.nodes.contains n.id) (g.printNode put 1 n))
    (linesChars g.directed (g.looseNodes.map (g.nodeLine 1))) := by
  have loose := puts_forM_when (fun n => !g.claims.nodes.contains n.id)
    (g.puts_printNode put 1) g.nodes
  simp only [contains_nodes_claims] at loose ⊢
  rw [linesChars, List.flatMap_map, looseNodes]
  exact loose

/-- The edges that no subgraph claims are put out. -/
theorem puts_looseEdges (g : Graph) : Puts put
    (g.edges.toList.zipIdx.forM fun (e, i) =>
      Print.when (!g.claims.edges.contains i) (g.printEdge put 1 e))
    (linesChars g.directed (g.looseEdges.map (g.edgeLine 1))) := by
  have line (x : Edge × Nat) := g.puts_printEdge put 1 x.1
  have loose := puts_forM_when (fun (_, i) => !g.claims.edges.contains i) line g.edges.toList.zipIdx
  simp only [contains_edges_claims] at loose ⊢
  rw [linesChars, List.flatMap_map, looseEdges, List.flatMap_map]
  exact loose

/-- Whatever takes the pieces that a graph is put out in, they are its text, one after the other. -/
theorem puts_print (g : Graph) : Puts put (g.print put) g.chars := by
  have all := (g.puts_printTitle put).bind <|
    (puts_assignments put g.directed 1 g.attrs.entries).bind <|
    (puts_defaults put g.directed "node" g.nodeDefaults.entries).bind <|
    (puts_defaults put g.directed "edge" g.edgeDefaults.entries).bind <|
    (g.puts_printSubgraphs put 1 g.subgraphs).bind <|
    (g.puts_looseNodes put).bind <|
    (g.puts_looseEdges put).bind (puts_piece put ['\x7d'])
  have chars : g.chars = g.titleChars ++ (linesChars g.directed g.lines ++ ['\x7d']) := by
    rw [Graph.chars, pieces, List.flatten_cons, List.flatten_append, linesChars, List.flatMap_def,
      List.flatten_singleton]
  rw [chars, lines]
  simp only [linesChars, List.flatMap_append, List.append_assoc] at all ⊢
  exact all

/-- Pieces that are appended to a text stand behind it. -/
theorem forM_append (pieces : List (List Char)) (text : String) :
    pieces.forM Print.append text = (.ok (), text ++ String.ofList pieces.flatten) := by
  induction pieces generalizing text with
  | nil => rw [List.flatten_nil, String.ofList_nil, String.append_empty]; rfl
  | cons piece pieces ih =>
    rw [List.flatten_cons, String.ofList_append, ← String.append_assoc]
    exact ih (text ++ String.ofList piece)

/-- A graph that is put out behind a text is appended to it. -/
theorem print_append (g : Graph) (text : String) :
    g.print Print.append text = (.ok (), text ++ g.text) := by
  obtain ⟨pieces, program, chars⟩ := g.puts_print Print.append
  rw [program, forM_append, chars, Graph.text]

/-- The text that is put out is the text of the graph. -/
theorem display_eq_text (g : Graph) : g.display = g.text := by
  rw [display, print_append, String.empty_append]

end Graph

end DotLang
