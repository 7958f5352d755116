import DotLang.Proofs.Listing.Lexemes
import DotLang.Proofs.Syntax.Acceptance

/-!
# The document of a listing

The statements that the lines of a graph are read as, one for each line, and one
for a subgraph with all its lines.

* `Graph.document`: the document of a listing;
* `Graph.sentence_document`: the lexemes of a listing are this document;
* `Graph.ofText_text_eq`: reading the text of a graph gives the graph of this
  document.
-/

namespace DotLang

open Attributes Grammar

variable {g : Graph} {entries : List (String × String)}

/-! ### Statements -/

/-- The statements of attributes of the graph or of a subgraph. -/
def assignStmts (entries : List (String × String)) : List Stmt :=
  entries.map fun e => .attributes .scope [e]

/-- The statement of attributes for nodes or edges to come, if there are any. -/
def defaultsStmts (target : Target) (entries : List (String × String)) : List Stmt :=
  if entries.isEmpty then [] else [.attributes target entries]

namespace Graph

/-- The statement of a node. -/
def nodeStmt (g : Graph) (n : Node) : Stmt :=
  .node ⟨n.id, none⟩ (withoutDefaults n.attrs.entries g.nodeDefaults.entries)

/-- The statement of an edge. -/
def edgeStmt (g : Graph) (e : Edge) : Stmt :=
  .edge [.node ⟨e.tail, none⟩, .node ⟨e.head, none⟩]
    (withoutDefaults e.attrs.entries g.edgeDefaults.entries)

mutual

/-- The statement of a subgraph. -/
def subgraphStmt (g : Graph) : Subgraph → Stmt
  | ⟨name, attrs, nodeIds, edgeIndices, children⟩ =>
    let s : Subgraph := ⟨name, attrs, nodeIds, edgeIndices, children⟩
    .subgraph name
      (assignStmts attrs.entries
        ++ (g.subgraphNodes s).map g.nodeStmt
        ++ subgraphsStmts g children
        ++ (g.subgraphEdges s).map g.edgeStmt)

/-- The statements of subgraphs. -/
def subgraphsStmts (g : Graph) : List Subgraph → List Stmt
  | [] => []
  | s :: subs => subgraphStmt g s :: subgraphsStmts g subs

end

/-- The document that the text of a graph is read as. -/
def document (g : Graph) : Document where
  header := ⟨g.strict, g.directed, g.name⟩
  body := assignStmts g.attrs.entries
    ++ defaultsStmts .nodes g.nodeDefaults.entries
    ++ defaultsStmts .edges g.edgeDefaults.entries
    ++ g.subgraphsStmts g.subgraphs
    ++ g.looseNodes.map g.nodeStmt
    ++ g.looseEdges.map g.edgeStmt

end Graph

/-! ### Lines are statements -/

/-- In front of statements, the lexemes are statements more. -/
def Yields (ls : List Lexeme) (body : List Stmt) : Prop :=
  ∀ rest tail ms, Statements rest tail ms → Statements (ls ++ rest) (body ++ tail) ms

theorem Yields.nil : Yields [] [] := fun _ _ _ h => h

theorem Yields.append {ls ms : List Lexeme} {body tail : List Stmt} (h : Yields ls body)
    (h' : Yields ms tail) : Yields (ls ++ ms) (body ++ tail) := by
  intro rest more ns hrest
  rw [List.append_assoc, List.append_assoc]
  exact h _ _ _ (h' _ _ _ hrest)

/-- A statement with a semicolon behind it. -/
theorem yields_statement (ls : List Lexeme) {s : Stmt}
    (h : ∀ rest, Statement (ls ++ ⟨.semicolon, ";"⟩ :: rest) s (⟨.semicolon, ";"⟩ :: rest)) :
    Yields (ls ++ [⟨.semicolon, ";"⟩]) [s] := by
  intro rest tail ms hrest
  rw [List.append_assoc]
  exact .cons (h rest) (.semicolon rfl hrest)

/-- One line, one statement. -/
theorem yields_map {α : Type} {f : α → Line} {k : α → Stmt} {directed : Bool} (as : List α)
    (h : ∀ a, Yields ((f a).item.lexemes directed) [k a]) :
    Yields (linesLexemes directed (as.map f)) (as.map k) := by
  induction as with
  | nil => exact Yields.nil
  | cons a as ih => exact (h a).append ih

theorem isId_assignedKey (key : String) : (assignedKey key).isId := by
  rw [assignedKey]
  split <;> rfl

theorem yields_assign {key text : String} {directed : Bool} :
    Yields ((Item.assign key text).lexemes directed) [.attributes .scope [(key, text)]] :=
  yields_statement _ fun _ => .assign _ (isId_assignedKey key) rfl rfl

theorem pairs_entries (entries : List (String × String)) (rest : List Lexeme) :
    Pairs ([⟨.comma, ","⟩].intercalate
        (entries.map fun e => attributeLexemes ⟨.identifier, e.1⟩ e.2) ++
          ⟨.rightBracket, "]"⟩ :: rest)
      entries (⟨.rightBracket, "]"⟩ :: rest) := by
  induction entries with
  | nil => exact .nil _
  | cons e entries ih =>
    cases entries with
    | nil => exact .cons rfl rfl rfl (.absent _) (.nil _)
    | cons e' entries =>
      rw [List.map_cons, List.map_cons, List.intercalate_cons_cons]
      exact .cons rfl rfl rfl (.present _ (.inl rfl)) ih

theorem attrList_brackets (entries : List (String × String)) (rest : List Lexeme) :
    AttrList (bracketLexemes entries ++ rest) entries rest := by
  have one := AttrList.cons (o := ⟨.leftBracket, "["⟩) rfl (pairs_entries entries rest) rfl
    (.nil rest)
  rw [List.append_nil] at one
  rwa [bracketLexemes, List.cons_append, List.append_assoc]

theorem attrList_suffix (entries : List (String × String)) (rest : List Lexeme) :
    AttrList (suffixLexemes entries ++ rest) entries rest := by
  rw [suffixLexemes]
  split
  · next hempty =>
    rw [List.isEmpty_iff.1 hempty]
    exact .nil rest
  · exact attrList_brackets entries rest

theorem yields_defaults {target : Target} {directed : Bool} :
    Yields ((Item.defaults target.keyword entries).lexemes directed)
      [.attributes target entries] := by
  refine yields_statement (⟨.identifier, target.keyword⟩ :: bracketLexemes entries) fun rest => ?_
  exact .attributes (by simp [Lexeme.isKeyword]) rfl (attrList_brackets entries _)

/-- A string starts neither a statement of attributes nor a subgraph. -/
theorem not_starts_string {id : String} {ls : List Lexeme} :
    ¬StartsAttributes (⟨.string, id⟩ :: ls) ∧ ¬StartsSubgraph (⟨.string, id⟩ :: ls) := by
  have word : ∀ v, Lexeme.isKeyword ⟨.string, id⟩ v = false := fun _ => rfl
  cases ls with
  | nil => exact ⟨nofun, nofun⟩
  | cons l ls => simp [StartsAttributes, StartsSubgraph, word]

theorem yields_node (n : Node) (depth : Nat) (directed : Bool) :
    Yields ((g.nodeLine depth n).item.lexemes directed) [g.nodeStmt n] := by
  refine yields_statement (⟨.string, n.id⟩ :: suffixLexemes _) fun rest => ?_
  exact .node not_starts_string.1 not_starts_string.2 (.id _ rfl) (attrList_suffix _ _)

theorem side_string (id : String) (ls : List Lexeme) :
    Side (⟨.string, id⟩ :: ls) (.node ⟨id, none⟩) ls :=
  .node not_starts_string.2 (.id ls rfl)

theorem yields_edge (e : Edge) (depth : Nat) (directed : Bool) :
    Yields ((g.edgeLine depth e).item.lexemes directed) [g.edgeStmt e] := by
  refine yields_statement
    (⟨.string, e.tail⟩ :: ⟨.edgeOp, _⟩ :: ⟨.string, e.head⟩ :: suffixLexemes _) fun rest => ?_
  exact .edge not_starts_string.1 (side_string e.tail _)
    (.cons rfl (side_string e.head _) (.nil _)) (List.cons_ne_nil _ _) (attrList_suffix _ _)

theorem yields_nodes (g : Graph) (ns : List Node) (depth : Nat) (directed : Bool) :
    Yields (linesLexemes directed (ns.map (g.nodeLine depth))) (ns.map g.nodeStmt) :=
  yields_map ns fun n => yields_node n depth directed

theorem yields_edges (g : Graph) (es : List Edge) (depth : Nat) (directed : Bool) :
    Yields (linesLexemes directed (es.map (g.edgeLine depth))) (es.map g.edgeStmt) :=
  yields_map es fun e => yields_edge e depth directed

theorem linesLexemes_append (directed : Bool) (ls ms : List Line) :
    linesLexemes directed (ls ++ ms) = linesLexemes directed ls ++ linesLexemes directed ms :=
  List.flatMap_append

theorem yields_assigns (depth : Nat) (directed : Bool) (entries : List (String × String)) :
    Yields (linesLexemes directed (Graph.assignLines depth entries)) (assignStmts entries) :=
  yields_map entries fun _ => yields_assign

@[simp] theorem linesLexemes_singleton (directed : Bool) (l : Line) :
    linesLexemes directed [l] = l.item.lexemes directed := by
  simp [linesLexemes]

/-- The lines of statements between the opening and the closing line of a subgraph. -/
theorem yields_subgraph {ls : List Lexeme} {body : List Stmt} (h : Yields ls body) (s : Subgraph)
    (directed : Bool) :
    Yields ((Item.opening s.name?).lexemes directed ++ ls ++ Item.closing.lexemes directed)
      [.subgraph s.name body] := by
  intro rest tail ms hrest
  have inside := h (⟨.rightBrace, "\x7d"⟩ :: rest) [] _ (.nil _)
  rw [List.append_nil] at inside
  have keyword : Lexeme.isKeyword ⟨.identifier, "subgraph"⟩ "subgraph" := by decide
  have block : Block
      ((Item.opening s.name?).lexemes directed ++ (ls ++ ⟨.rightBrace, "\x7d"⟩ :: rest))
      s.name body rest := by
    rw [Subgraph.name?]
    split
    · next hempty =>
      rw [String.isEmpty_iff.1 hempty]
      exact .keyword keyword rfl inside rfl
    · exact .named keyword rfl rfl inside rfl
  rw [List.append_assoc, List.append_assoc]
  exact .cons (.subgraph block) hrest

theorem Graph.subgraphStmt_eq (g : Graph) (s : Subgraph) :
    g.subgraphStmt s = .subgraph s.name
      (assignStmts s.attrs.entries
        ++ (g.subgraphNodes s).map g.nodeStmt
        ++ g.subgraphsStmts s.children
        ++ (g.subgraphEdges s).map g.edgeStmt) := by
  obtain ⟨name, attrs, nodeIds, edgeIndices, children⟩ := s
  rw [subgraphStmt]

mutual

theorem yields_subgraphLines (depth : Nat) (directed : Bool) : (s : Subgraph) →
    Yields (linesLexemes directed (g.subgraphLines depth s)) [g.subgraphStmt s]
  | ⟨name, attrs, nodeIds, edgeIndices, children⟩ => by
    have assigns := yields_assigns (depth + 1) directed attrs.entries
    have nodes := yields_nodes g (g.subgraphNodes ⟨name, attrs, nodeIds, edgeIndices, children⟩)
      (depth + 1) directed
    have inner := yields_subgraphsLines (depth + 1) directed children
    have edges := yields_edges g (g.subgraphEdges ⟨name, attrs, nodeIds, edgeIndices, children⟩)
      (depth + 1) directed
    have block := yields_subgraph (((assigns.append nodes).append inner).append edges)
      ⟨name, attrs, nodeIds, edgeIndices, children⟩ directed
    rw [Graph.subgraphLines_eq, Graph.subgraphStmt_eq]
    simpa only [linesLexemes_append, linesLexemes_singleton, List.append_assoc] using block

theorem yields_subgraphsLines (depth : Nat) (directed : Bool) : (subs : List Subgraph) →
    Yields (linesLexemes directed (g.subgraphsLines depth subs)) (g.subgraphsStmts subs)
  | [] => by
    rw [Graph.subgraphsLines, Graph.subgraphsStmts]
    exact Yields.nil
  | s :: subs => by
    rw [Graph.subgraphsLines, Graph.subgraphsStmts, linesLexemes_append]
    exact (yields_subgraphLines depth directed s).append (yields_subgraphsLines depth directed subs)

end

theorem yields_defaultsLines (target : Target) (directed : Bool)
    (entries : List (String × String)) :
    Yields (linesLexemes directed (Graph.defaultsLines target.keyword entries))
      (defaultsStmts target entries) := by
  rw [Graph.defaultsLines, defaultsStmts]
  split
  · exact Yields.nil
  · exact yields_map (f := fun entries => ⟨1, .defaults target.keyword entries⟩) [entries] fun _ =>
      yields_defaults

theorem yields_lines (g : Graph) (directed : Bool) :
    Yields (linesLexemes directed g.lines) g.document.body := by
  have assigns := yields_assigns 1 directed g.attrs.entries
  have nodeDefaults := yields_defaultsLines .nodes directed g.nodeDefaults.entries
  have edgeDefaults := yields_defaultsLines .edges directed g.edgeDefaults.entries
  have subs := yields_subgraphsLines (g := g) 1 directed g.subgraphs
  have nodes := yields_nodes g g.looseNodes 1 directed
  have edges := yields_edges g g.looseEdges 1 directed
  simp only [Graph.lines, linesLexemes_append]
  have attributes := (assigns.append nodeDefaults).append edgeDefaults
  exact ((attributes.append subs).append nodes).append edges

/-- The lexemes of a listing are its document. -/
theorem Graph.sentence_document (g : Graph) : Sentence g.lexemes g.document := by
  have body := yields_lines g g.directed [⟨.rightBrace, "\x7d"⟩] [] _ (.nil _)
  rw [List.append_nil] at body
  have strict : ∀ ls, StrictMark ((if g.strict then [⟨.identifier, "strict"⟩] else []) ++ ls)
      g.strict ls := by
    intro ls
    cases g.strict with
    | false => exact .absent ls
    | true => exact .present ls (by decide)
  have kind : ∀ ls, KindWord (⟨.identifier, if g.directed then "digraph" else "graph"⟩ :: ls)
      g.directed ls := by
    intro ls
    cases g.directed with
    | false => exact .graph ls (by decide)
    | true => exact .digraph ls (by decide)
  have title : ∀ ls, Title (g.name.elim [] (fun name => [⟨.string, name⟩]) ++ ls) g.name ls := by
    intro ls
    cases g.name with
    | none => exact .absent ls
    | some name => exact .present ls rfl
  rw [lexemes, titleLexemes, List.append_assoc, List.cons_append]
  exact .mk (strict _) (kind _) (title _) rfl body rfl

/-! ### Texts that can be assigned -/

section

variable {ok : Owner → Assignments → Prop} {nested : Bool}

theorem checkedAll_iff {body : List Stmt} :
    CheckedAll ok nested body ↔ ∀ s ∈ body, s.Checked ok nested := by
  induction body with
  | nil => simp [CheckedAll]
  | cons s body ih => rw [CheckedAll, ih, List.forall_mem_cons]

end

/-- The entries of a proper set can be assigned. -/
theorem Attributes.Proper.accepts {o : Owner} {a : Attributes o} (h : a.Proper)
    {pairs : Assignments} (hp : ∀ e ∈ pairs, e ∈ a.entries) : o.Accepts pairs :=
  fun e he => h.exists_set (hp e he) ∅

theorem checked_assignStmts (nested : Bool) {a : Attributes (Target.scope.owner nested)}
    (h : a.Proper) : ∀ s ∈ assignStmts a.entries, s.Checked Owner.Accepts nested :=
  List.forall_mem_map.2 fun e he => h.accepts fun e' he' => by rwa [List.mem_singleton.1 he']

theorem checked_defaultsStmts (nested : Bool) (target : Target)
    {a : Attributes (target.owner nested)} (h : a.Proper) :
    ∀ s ∈ defaultsStmts target a.entries, s.Checked Owner.Accepts nested := by
  rw [defaultsStmts]
  split
  · nofun
  · exact List.forall_mem_singleton.2 (h.accepts fun _ he => he)

theorem checked_nodeStmts (h : g.Proper) {nested : Bool} {ns : List Node}
    (hn : ∀ n ∈ ns, n ∈ g.nodes) :
    ∀ s ∈ ns.map g.nodeStmt, s.Checked Owner.Accepts nested :=
  List.forall_mem_map.2 fun n hmem =>
    (h.nodes n (hn n hmem)).accepts fun _ he => (mem_withoutDefaults.1 he).1

theorem checked_edgeStmts (h : g.Proper) {nested : Bool} {es : List Edge}
    (he : ∀ e ∈ es, e ∈ g.edges) : ∀ s ∈ es.map g.edgeStmt, s.Checked Owner.Accepts nested := by
  refine List.forall_mem_map.2 fun e hmem => ?_
  have pairs : Owner.edge.Accepts (withoutDefaults e.attrs.entries g.edgeDefaults.entries) :=
    (h.edges e (he e hmem)).accepts fun _ he => (mem_withoutDefaults.1 he).1
  exact ⟨⟨trivial, trivial, trivial⟩, pairs⟩

mutual

theorem checked_subgraphStmt (h : g.Proper) (nested : Bool) : (s : Subgraph) →
    (∀ t ∈ s.tree, t.attrs.Proper) → (g.subgraphStmt s).Checked Owner.Accepts nested
  | ⟨name, attrs, nodeIds, edgeIndices, children⟩, hs => by
    rw [Subgraph.forall_tree] at hs
    have inner := checked_subgraphsStmts h true children hs.1
    rw [Graph.subgraphStmt_eq, Stmt.Checked, checkedAll_iff]
    simp only [List.forall_mem_append]
    refine ⟨⟨⟨checked_assignStmts true hs.2, checked_nodeStmts h fun n hn => ?_⟩,
      inner⟩, checked_edgeStmts h fun e he => ?_⟩
    · exact (Graph.mem_subgraphNodes.1 hn).2
    · exact Graph.mem_edges_of_mem_subgraphEdges he

theorem checked_subgraphsStmts (h : g.Proper) (nested : Bool) : (subs : List Subgraph) →
    (∀ t ∈ Subgraph.forest subs, t.attrs.Proper) →
    ∀ s ∈ g.subgraphsStmts subs, s.Checked Owner.Accepts nested
  | [], _ => by
    rw [Graph.subgraphsStmts]
    nofun
  | s :: subs, hs => by
    rw [Subgraph.forall_forest_cons] at hs
    rw [Graph.subgraphsStmts, List.forall_mem_cons]
    exact ⟨checked_subgraphStmt h nested s hs.1, checked_subgraphsStmts h nested subs hs.2⟩

end

/-- The texts of a listing can be assigned to their keys. -/
theorem Graph.checked_document (h : g.Proper) : g.document.Checked Owner.Accepts := by
  rw [Document.Checked, checkedAll_iff]
  simp only [document, List.forall_mem_append]
  refine ⟨⟨⟨⟨⟨checked_assignStmts false h.attrs,
    checked_defaultsStmts false .nodes h.nodeDefaults⟩,
    checked_defaultsStmts false .edges h.edgeDefaults⟩,
    checked_subgraphsStmts h false g.subgraphs h.subgraphs⟩, checked_nodeStmts h fun n hn => ?_⟩,
    checked_edgeStmts h fun e he => ?_⟩
  · exact (mem_looseNodes.1 hn).1
  · exact mem_edges_of_mem_looseEdges he

/-- Reading the text of a graph gives the graph of its document, if the keys are words
    and the sets proper. -/
theorem Graph.ofText_text_eq (hk : g.KeysReadable) (h : g.Proper) :
    Graph.ofText g.text = .ok g.document.toGraph := by
  refine ofText_eq_ok_iff.2 ⟨g.document, ?_, checked_document h, rfl⟩
  rw [lexemes_text_iff.2 hk]
  exact g.sentence_document

end DotLang
