import DotLang.Proofs.Graph.Reachable
import DotLang.Proofs.Listing.Spelling

/-!
# The lexemes of a listing

What a graph is read as when its text is read again. Names and texts stand in
quotes, so they come back as they are. Keys do not, so a key comes back only if it
is a word: in brackets an identifier, before an equals sign of its own perhaps a
number.

* `Graph.lexemes`: the lexemes that the text of a graph is meant to have;
* `Graph.lexemes_text_iff`: the text has these lexemes exactly if all keys of the
  graph are words.
-/

namespace DotLang

/-! ### What a listing is meant to say -/

/-- The lexemes of an attribute under the key of a lexeme. -/
def attributeLexemes (key : Lexeme) (text : String) : List Lexeme :=
  [key, ⟨.equal, "="⟩, ⟨.string, text⟩]

/-- The lexemes of a list of attributes in brackets. -/
def bracketLexemes (entries : List (String × String)) : List Lexeme :=
  ⟨.leftBracket, "["⟩ ::
    ([⟨.comma, ","⟩].intercalate
        (entries.map fun e => attributeLexemes ⟨.identifier, e.1⟩ e.2)
      ++ [⟨.rightBracket, "]"⟩])

/-- The lexemes of a list of attributes behind a node or an edge. -/
def suffixLexemes (entries : List (String × String)) : List Lexeme :=
  if entries.isEmpty then [] else bracketLexemes entries

/-- The lexeme of a key before an equals sign: an identifier or else a number. -/
def assignedKey (key : String) : Lexeme :=
  ⟨if isIdentifier key.toList then .identifier else .number, key⟩

/-- The lexemes of a line. -/
def Item.lexemes (directed : Bool) : Item → List Lexeme
  | assign key text => attributeLexemes (assignedKey key) text ++ [⟨.semicolon, ";"⟩]
  | defaults keyword entries =>
    ⟨.identifier, keyword⟩ :: (bracketLexemes entries ++ [⟨.semicolon, ";"⟩])
  | node id entries => ⟨.string, id⟩ :: (suffixLexemes entries ++ [⟨.semicolon, ";"⟩])
  | edge tail head entries =>
    ⟨.string, tail⟩ :: ⟨.edgeOp, String.ofList (operatorChars directed)⟩ :: ⟨.string, head⟩ ::
      (suffixLexemes entries ++ [⟨.semicolon, ";"⟩])
  | opening (some name) => [⟨.identifier, "subgraph"⟩, ⟨.string, name⟩, ⟨.leftBrace, "\x7b"⟩]
  | opening none => [⟨.identifier, "subgraph"⟩, ⟨.leftBrace, "\x7b"⟩]
  | closing => [⟨.rightBrace, "\x7d"⟩]

/-- The lexemes of lines. -/
def linesLexemes (directed : Bool) (lines : List Line) : List Lexeme :=
  lines.flatMap fun l => l.item.lexemes directed

namespace Graph

/-- The lexemes before the opening brace. -/
def titleLexemes (g : Graph) : List Lexeme :=
  (if g.strict then [⟨.identifier, "strict"⟩] else [])
    ++ ⟨.identifier, if g.directed then "digraph" else "graph"⟩
    :: g.name.elim [] fun name => [⟨.string, name⟩]

/-- The lexemes that the text of a graph is meant to have. -/
def lexemes (g : Graph) : List Lexeme :=
  g.titleLexemes
    ++ ⟨.leftBrace, "\x7b"⟩ :: (linesLexemes g.directed g.lines ++ [⟨.rightBrace, "\x7d"⟩])

end Graph

/-! ### Words among the keys -/

/-- The key is a word where the owner's attributes are written. Attributes of nodes
    and edges stand in brackets, where a number is no key. -/
def Owner.SpellsKey : Owner → String → Prop
  | node, key | edge, key => SpellsIdentifier key
  | graph, key | subgraph, key => SpellsIdentifier key ∨ SpellsNumber key

instance (o : Owner) (key : String) : Decidable (o.SpellsKey key) :=
  match o with
  | .node | .edge => inferInstanceAs (Decidable (SpellsIdentifier key))
  | .graph | .subgraph => inferInstanceAs (Decidable (SpellsIdentifier key ∨ SpellsNumber key))

/-- All keys of a line are words. -/
def Item.KeysReadable : Item → Prop
  | assign key _ => SpellsIdentifier key ∨ SpellsNumber key
  | defaults keyword entries =>
    SpellsIdentifier keyword ∧ ∀ e ∈ entries, SpellsIdentifier e.1
  | node _ entries | edge _ _ entries => ∀ e ∈ entries, SpellsIdentifier e.1
  | opening _ | closing => True

/-- All keys of a graph are words where they are written. -/
def Graph.KeysReadable (g : Graph) : Prop :=
  g.Every fun o a => ∀ e ∈ a.entries, o.SpellsKey e.1

instance (g : Graph) : Decidable g.KeysReadable := inferInstanceAs (Decidable (g.Every _))

/-! ### Lines are read as meant -/

variable {c : Char} {cs : List Char} {l : Lexeme} {ls : List Lexeme}
  {entries : List (String × String)}

theorem Reads.cons (h : Reads [c] [l]) (h' : Reads cs ls) : Reads (c :: cs) (l :: ls) :=
  h.append h'

theorem Reads.cons_blank (h : Reads cs ls) (hc : isBlank c) : Reads (c :: cs) ls :=
  (reads_blank hc).append h

theorem ReadsAsWord.append_blank (h : ReadsAsWord cs l) {ds : List Char} (h' : Reads ds ls) :
    Reads (cs ++ ' ' :: ds) (l :: ls) :=
  h.append (by decide) (h'.cons_blank (by decide))

theorem reads_leftBrace : Reads ['\x7b'] [⟨.leftBrace, "\x7b"⟩] :=
  reads_punctuation _ (by decide) rfl nofun

theorem reads_rightBrace : Reads ['\x7d'] [⟨.rightBrace, "\x7d"⟩] :=
  reads_punctuation _ (by decide) rfl nofun

theorem reads_semicolon : Reads [';'] [⟨.semicolon, ";"⟩] :=
  reads_punctuation _ (by decide) rfl nofun

/-- What is read with something between is read so. -/
theorem reads_intercalate {α : Type} {sep : List Char} {mark : List Lexeme} (hsep : Reads sep mark)
    {f : α → List Char} {k : α → List Lexeme} {as : List α} (h : ∀ a ∈ as, Reads (f a) (k a)) :
    Reads (sep.intercalate (as.map f)) (mark.intercalate (as.map k)) := by
  induction as with
  | nil => exact Reads.nil
  | cons a as ih =>
    have ha := h a List.mem_cons_self
    have has := ih fun b hb => h b (List.mem_cons_of_mem _ hb)
    cases as with
    | nil =>
      simp only [List.map_cons, List.map_nil, List.intercalate_singleton]
      exact ha
    | cons b as =>
      simp only [List.map_cons, List.intercalate_cons_cons]
      exact (ha.append hsep).append has

theorem reads_attribute {key : String} (h : ReadsAsWord key.toList l) (text : String) :
    Reads (attributeChars (key, text)) (attributeLexemes l text) :=
  h.append (by decide)
    ((reads_punctuation .equal (by decide) rfl nofun).cons (reads_quoted text))

theorem reads_brackets (h : ∀ e ∈ entries, SpellsIdentifier e.1) :
    Reads (bracketChars entries) (bracketLexemes entries) := by
  have comma : Reads [',', ' '] [⟨.comma, ","⟩] :=
    (reads_punctuation .comma (by decide) rfl nofun).cons (reads_blank (by decide))
  have pairs := reads_intercalate (f := attributeChars) comma fun e he =>
    reads_attribute (h e he).readsAsWord e.2
  exact (reads_punctuation .leftBracket (by decide) rfl nofun).cons
    (pairs.append (reads_punctuation .rightBracket (by decide) rfl nofun))

theorem reads_suffix (h : ∀ e ∈ entries, SpellsIdentifier e.1) :
    Reads (suffixChars entries) (suffixLexemes entries) := by
  rw [suffixChars, suffixLexemes]
  split
  · exact Reads.nil
  · exact (reads_brackets h).cons_blank (by decide)

theorem readsAsWord_assignedKey {key : String} (h : SpellsIdentifier key ∨ SpellsNumber key) :
    ReadsAsWord key.toList (assignedKey key) := by
  rw [assignedKey]
  split
  · next hi => exact (spellsIdentifier_iff.2 hi).readsAsWord
  · next hi => exact (h.resolve_left (mt spellsIdentifier_iff.1 hi)).readsAsWord

theorem spellsIdentifier_subgraph : SpellsIdentifier "subgraph" :=
  spellsIdentifier_iff.2 (by decide)

/-- A line is read as meant if its keys are words. -/
theorem Item.KeysReadable.reads {item : Item} (h : item.KeysReadable) (directed : Bool) :
    Reads (item.chars directed) (item.lexemes directed) := by
  cases item with
  | assign key text =>
    have word : ReadsAsWord key.toList (assignedKey key) := readsAsWord_assignedKey h
    exact (reads_attribute word text).append reads_semicolon
  | defaults keyword entries =>
    obtain ⟨hkeyword, hentries⟩ := h
    have body := (reads_brackets hentries).append reads_semicolon
    have line := hkeyword.readsAsWord.append_blank body
    rwa [← List.cons_append, ← List.append_assoc] at line
  | node id entries =>
    exact ((reads_quoted id).append (reads_suffix h)).append reads_semicolon
  | edge tail head entries =>
    -- The line is put together from its end.
    have side := ((reads_quoted head).append (reads_suffix h)).append reads_semicolon
    have chain := ((reads_operator directed).append
      (side.cons_blank (c := ' ') (by decide))).cons_blank (c := ' ') (by decide)
    have line := (reads_quoted tail).append chain
    simp only [← List.append_assoc, ← List.cons_append] at line
    exact line
  | opening name =>
    cases name with
    | none => exact spellsIdentifier_subgraph.readsAsWord.append_blank reads_leftBrace
    | some name =>
      have body := (reads_quoted name).append (reads_leftBrace.cons_blank (c := ' ') (by decide))
      exact spellsIdentifier_subgraph.readsAsWord.append_blank body
  | closing => exact reads_rightBrace

theorem reads_tabs (depth : Nat) : Reads (List.replicate depth '\t') [] := by
  induction depth with
  | zero => exact Reads.nil
  | succ depth ih => exact ih.cons_blank (by decide)

theorem reads_lines {lines : List Line} (h : ∀ l ∈ lines, l.item.KeysReadable) (directed : Bool) :
    Reads (lines.map (Line.chars directed)).flatten (linesLexemes directed lines) := by
  induction lines with
  | nil => exact Reads.nil
  | cons l lines ih =>
    have item := (h l List.mem_cons_self).reads directed
    have line := ((reads_tabs l.depth).append item).append (reads_blank (c := '\n') (by decide))
    rw [List.nil_append, List.append_nil] at line
    exact line.append (ih fun m hm => h m (List.mem_cons_of_mem _ hm))

theorem Graph.reads_title (g : Graph) :
    Reads g.titleChars (g.titleLexemes ++ [⟨.leftBrace, "\x7b"⟩]) := by
  have brace : Reads ['\x7b', '\n'] [⟨.leftBrace, "\x7b"⟩] :=
    reads_leftBrace.append (reads_blank (by decide))
  -- What is behind the kind of the graph starts with a space, with a name or without.
  obtain ⟨tail, htail, name⟩ : ∃ tail,
      g.name.elim [] (fun name => ' ' :: quoted name) ++ [' ', '\x7b', '\n'] = ' ' :: tail ∧
        Reads tail (g.name.elim [] (fun name => [⟨.string, name⟩]) ++ [⟨.leftBrace, "\x7b"⟩]) := by
    cases g.name with
    | none => exact ⟨_, rfl, brace⟩
    | some name =>
      exact ⟨_, rfl, (reads_quoted name).append (brace.cons_blank (c := ' ') (by decide))⟩
  have kind : SpellsIdentifier (if g.directed then "digraph" else "graph") := by
    split <;> exact spellsIdentifier_iff.2 (by decide)
  have body := kind.readsAsWord.append_blank name
  have strict : Reads (if g.strict then "strict ".toList else [])
      (if g.strict then [⟨.identifier, "strict"⟩] else []) := by
    split
    · have word : SpellsIdentifier "strict" := spellsIdentifier_iff.2 (by decide)
      exact word.readsAsWord.append_blank Reads.nil
    · exact Reads.nil
  have line := strict.append body
  rw [← htail, apply_ite String.toList] at line
  simpa only [titleChars, titleLexemes, List.append_assoc, List.cons_append] using line

/-- The text of a graph is read as meant if the keys of its lines are words. -/
theorem Graph.lexemes_text_of_lines {g : Graph} (h : ∀ l ∈ g.lines, l.item.KeysReadable) :
    (Tokens.ofText g.text).lexemes = g.lexemes := by
  have text : Reads g.chars g.lexemes := by
    have all := (g.reads_title.append (reads_lines h g.directed)).append reads_rightBrace
    simpa [chars, pieces, lexemes] using all
  obtain ⟨q, hq⟩ := text .start []
  rw [List.append_nil, Cursor.lexemes_nil, List.append_nil] at hq
  rw [← hq, Graph.text]
  show (⟨.start, (String.ofList g.chars).toList⟩ : Cursor).lexemes = _
  rw [String.toList_ofList]

/-! ### Lines that are read as meant have words as keys -/

theorem mem_intercalate {α β : Type} {sep : List β} {k : α → List β} {as : List α} {a : α} {b : β}
    (ha : a ∈ as) (hb : b ∈ k a) : b ∈ sep.intercalate (as.map k) := by
  induction as with
  | nil => cases ha
  | cons a' as ih =>
    cases as with
    | nil =>
      rw [List.mem_singleton.1 ha] at hb
      simpa using hb
    | cons a'' as =>
      rw [List.map_cons, List.map_cons, List.intercalate_cons_cons, List.mem_append]
      rcases List.mem_cons.1 ha with rfl | ha
      · exact .inl (List.mem_append_left _ hb)
      · exact .inr (ih ha)

theorem mem_bracketLexemes {e : String × String} (he : e ∈ entries) :
    (⟨.identifier, e.1⟩ : Lexeme) ∈ bracketLexemes entries :=
  List.mem_cons_of_mem _ (List.mem_append_left _ (mem_intercalate he List.mem_cons_self))

theorem mem_suffixLexemes {e : String × String} (he : e ∈ entries) :
    (⟨.identifier, e.1⟩ : Lexeme) ∈ suffixLexemes entries := by
  rw [suffixLexemes, if_neg]
  · exact mem_bracketLexemes he
  · exact fun hempty => List.ne_nil_of_mem he (List.isEmpty_iff.1 hempty)

theorem Item.keysReadable_of_lexemes {item : Item} {directed : Bool}
    (identifier : ∀ k, ⟨.identifier, k⟩ ∈ item.lexemes directed → SpellsIdentifier k)
    (number : ∀ k, ⟨.number, k⟩ ∈ item.lexemes directed → SpellsNumber k) :
    item.KeysReadable := by
  -- Every key is itself a lexeme of its line.
  cases item with
  | assign key text =>
    have first : assignedKey key ∈ (assign key text).lexemes directed := List.mem_cons_self
    unfold assignedKey at first
    split at first
    · exact .inl (identifier key first)
    · exact .inr (number key first)
  | defaults keyword entries =>
    refine ⟨identifier keyword List.mem_cons_self, fun e he => identifier e.1 ?_⟩
    exact List.mem_cons_of_mem _ (List.mem_append_left _ (mem_bracketLexemes he))
  | node id entries =>
    intro e he
    refine identifier e.1 (List.mem_cons_of_mem _ ?_)
    exact List.mem_append_left _ (mem_suffixLexemes he)
  | edge tail head entries =>
    intro e he
    refine identifier e.1 (List.mem_cons_of_mem _ (List.mem_cons_of_mem _ ?_))
    exact List.mem_cons_of_mem _ (List.mem_append_left _ (mem_suffixLexemes he))
  | opening name => trivial
  | closing => trivial

namespace Graph

variable {g : Graph}

/-- Lines of a text are read as meant only if their keys are words. -/
theorem keysReadable_of_lexemes_text (h : (Tokens.ofText g.text).lexemes = g.lexemes) :
    ∀ l ∈ g.lines, l.item.KeysReadable := by
  intro l hl
  have mem : ∀ m ∈ l.item.lexemes g.directed, m ∈ (Tokens.ofText g.text).lexemes := by
    intro m hm
    rw [h]
    refine List.mem_append_right _ (List.mem_cons_of_mem _ (List.mem_append_left _ ?_))
    exact List.mem_flatMap.2 ⟨l, hl, hm⟩
  exact Item.keysReadable_of_lexemes
    (fun k hk => spellsIdentifier_iff.2 (isIdentifier_of_mem (mem _ hk)))
    (fun k hk => spellsNumber_iff.2 (isNumber_of_mem (mem _ hk)))

/-! ### All keys are written -/

/-- The keys that are written of a node are words. -/
def NodeReadable (g : Graph) (n : Node) : Prop := (g.nodeLine 0 n).item.KeysReadable

/-- The keys that are written of an edge are words. -/
def EdgeReadable (g : Graph) (e : Edge) : Prop := (g.edgeLine 0 e).item.KeysReadable

/-- The keys that are written of a subgraph itself are words. -/
structure SubgraphReadable (g : Graph) (s : Subgraph) : Prop where
  attrs : ∀ e ∈ s.attrs.entries, Owner.subgraph.SpellsKey e.1
  nodes : ∀ n ∈ g.subgraphNodes s, g.NodeReadable n
  edges : ∀ e ∈ g.subgraphEdges s, g.EdgeReadable e

theorem forall_assignLines {depth : Nat} : (∀ l ∈ assignLines depth entries, l.item.KeysReadable) ↔
    ∀ e ∈ entries, SpellsIdentifier e.1 ∨ SpellsNumber e.1 :=
  List.forall_mem_map

theorem forall_nodeLines {depth : Nat} {ns : List Node} :
    (∀ l ∈ ns.map (g.nodeLine depth), l.item.KeysReadable) ↔ ∀ n ∈ ns, g.NodeReadable n :=
  List.forall_mem_map

theorem forall_edgeLines {depth : Nat} {es : List Edge} :
    (∀ l ∈ es.map (g.edgeLine depth), l.item.KeysReadable) ↔ ∀ e ∈ es, g.EdgeReadable e :=
  List.forall_mem_map

theorem subgraphLines_eq (g : Graph) (depth : Nat) (s : Subgraph) :
    g.subgraphLines depth s = [⟨depth, .opening s.name?⟩]
      ++ assignLines (depth + 1) s.attrs.entries
      ++ (g.subgraphNodes s).map (g.nodeLine (depth + 1))
      ++ g.subgraphsLines (depth + 1) s.children
      ++ (g.subgraphEdges s).map (g.edgeLine (depth + 1))
      ++ [⟨depth, .closing⟩] := by
  obtain ⟨name, attrs, nodeIds, edgeIndices, children⟩ := s
  rw [subgraphLines]

mutual

theorem forall_subgraphLines (depth : Nat) : (s : Subgraph) →
    ((∀ l ∈ g.subgraphLines depth s, l.item.KeysReadable) ↔ ∀ t ∈ s.tree, g.SubgraphReadable t)
  | ⟨name, attrs, nodeIds, edgeIndices, children⟩ => by
    have inner := forall_subgraphsLines (depth + 1) children
    rw [subgraphLines_eq]
    simp only [List.forall_mem_append, List.forall_mem_singleton, forall_assignLines,
      forall_nodeLines, forall_edgeLines, inner, Subgraph.tree_eq]
    constructor
    · rintro ⟨⟨⟨⟨⟨-, hattrs⟩, hnodes⟩, hinner⟩, hedges⟩, -⟩
      exact ⟨hinner, hattrs, hnodes, hedges⟩
    · rintro ⟨hinner, hattrs, hnodes, hedges⟩
      exact ⟨⟨⟨⟨⟨trivial, hattrs⟩, hnodes⟩, hinner⟩, hedges⟩, trivial⟩

theorem forall_subgraphsLines (depth : Nat) : (subs : List Subgraph) →
    ((∀ l ∈ g.subgraphsLines depth subs, l.item.KeysReadable) ↔
      ∀ t ∈ Subgraph.forest subs, g.SubgraphReadable t)
  | [] => by simp [subgraphsLines]
  | s :: subs => by
    rw [subgraphsLines, List.forall_mem_append, forall_subgraphLines depth s,
      forall_subgraphsLines depth subs, Subgraph.forest_cons, List.forall_mem_append]

end

theorem forall_defaultsLines {keyword : String} (h : SpellsIdentifier keyword) :
    (∀ l ∈ defaultsLines keyword entries, l.item.KeysReadable) ↔
      ∀ e ∈ entries, SpellsIdentifier e.1 := by
  rw [defaultsLines]
  split
  · next hempty => simp [List.isEmpty_iff.1 hempty]
  · rw [List.forall_mem_singleton]
    exact ⟨And.right, .intro h⟩

theorem forall_lines : (∀ l ∈ g.lines, l.item.KeysReadable) ↔
    (∀ e ∈ g.attrs.entries, Owner.graph.SpellsKey e.1) ∧
    (∀ e ∈ g.nodeDefaults.entries, SpellsIdentifier e.1) ∧
    (∀ e ∈ g.edgeDefaults.entries, SpellsIdentifier e.1) ∧
    (∀ t ∈ Subgraph.forest g.subgraphs, g.SubgraphReadable t) ∧
    (∀ n ∈ g.looseNodes, g.NodeReadable n) ∧ ∀ e ∈ g.looseEdges, g.EdgeReadable e := by
  have node : SpellsIdentifier "node" := spellsIdentifier_iff.2 (by decide)
  have edge : SpellsIdentifier "edge" := spellsIdentifier_iff.2 (by decide)
  rw [lines]
  simp only [List.forall_mem_append, forall_assignLines, forall_defaultsLines node,
    forall_defaultsLines edge, forall_subgraphsLines, forall_nodeLines, forall_edgeLines,
    and_assoc]
  rfl

theorem mem_subgraphNodes {s : Subgraph} {n : Node} :
    n ∈ g.subgraphNodes s ↔ n.id ∈ s.nodeIds ∧ n ∈ g.nodes := by
  simp only [subgraphNodes, List.mem_filterMap, Array.mem_toList_iff, node?_eq_some_iff]
  constructor
  · rintro ⟨id, hid, hn, rfl⟩
    exact ⟨hid, hn⟩
  · rintro ⟨hid, hn⟩
    exact ⟨n.id, hid, hn, rfl⟩

theorem mem_looseNodes {n : Node} : n ∈ g.looseNodes ↔
    n ∈ g.nodes ∧ ∀ t ∈ Subgraph.forest g.subgraphs, n.id ∉ t.nodeIds := by
  rw [looseNodes, List.mem_filter, Bool.not_eq_true', Bool.eq_false_iff, Ne,
    Subgraph.anyContainsNode_iff]
  simp only [not_exists, not_and]

theorem mem_subgraphEdges {s : Subgraph} {e : Edge} :
    e ∈ g.subgraphEdges s ↔ ∃ i ∈ s.edgeIndices, g.edges[i]? = some e := by
  simp [subgraphEdges]

theorem mem_looseEdges {e : Edge} : e ∈ g.looseEdges ↔
    ∃ i, g.edges[i]? = some e ∧ i ∉ Subgraph.recorded g.subgraphs := by
  have at_index : ∀ i, (e, i) ∈ g.edges.toList.zipIdx ↔ g.edges[i]? = some e := by
    intro i
    rw [List.mk_mem_zipIdx_iff_getElem?, Array.getElem?_toList]
  simp only [looseEdges, List.mem_map, List.mem_filter, Prod.exists, exists_and_right,
    exists_eq_right, at_index, Subgraph.mem_recorded, Bool.not_eq_true', Bool.eq_false_iff, Ne,
    Subgraph.anyRecordsEdge_iff]

theorem mem_edges_of_mem_subgraphEdges {s : Subgraph} {e : Edge} (h : e ∈ g.subgraphEdges s) :
    e ∈ g.edges := by
  obtain ⟨i, -, hi⟩ := mem_subgraphEdges.1 h
  exact Array.mem_of_getElem? hi

theorem mem_edges_of_mem_looseEdges {e : Edge} (h : e ∈ g.looseEdges) : e ∈ g.edges := by
  obtain ⟨i, hi, -⟩ := mem_looseEdges.1 h
  exact Array.mem_of_getElem? hi

/-- Every node is written: in the subgraphs that it is declared in, or behind all of
    them. -/
theorem node_listed {n : Node} (h : n ∈ g.nodes) : n ∈ g.looseNodes ∨
    ∃ t ∈ Subgraph.forest g.subgraphs, n ∈ g.subgraphNodes t := by
  by_cases hn : ∃ t ∈ Subgraph.forest g.subgraphs, n.id ∈ t.nodeIds
  · obtain ⟨t, ht, hid⟩ := hn
    exact .inr ⟨t, ht, mem_subgraphNodes.2 ⟨hid, h⟩⟩
  · exact .inl (mem_looseNodes.2 ⟨h, fun t ht hid => hn ⟨t, ht, hid⟩⟩)

/-- Every edge is written: in the subgraph that it was made in, or behind all
    subgraphs. -/
theorem edge_listed {e : Edge} (h : e ∈ g.edges) : e ∈ g.looseEdges ∨
    ∃ t ∈ Subgraph.forest g.subgraphs, e ∈ g.subgraphEdges t := by
  obtain ⟨i, hi⟩ := Array.mem_iff_getElem?.1 h
  by_cases hr : i ∈ Subgraph.recorded g.subgraphs
  · obtain ⟨t, ht, hit⟩ := Subgraph.mem_recorded.1 hr
    exact .inr ⟨t, ht, mem_subgraphEdges.2 ⟨i, hit, hi⟩⟩
  · exact .inl (mem_looseEdges.2 ⟨i, hi, hr⟩)

/-- What is left out of the entries stands among the defaults. -/
theorem forall_entries {P : String × String → Prop} {defaults : List (String × String)}
    (hd : ∀ e ∈ defaults, P e) (h : ∀ e ∈ Attributes.withoutDefaults entries defaults, P e) :
    ∀ e ∈ entries, P e := by
  intro e he
  by_cases hmem : e ∈ defaults
  · exact hd e hmem
  · exact h e (Attributes.mem_withoutDefaults.2 ⟨he, hmem⟩)

/-- The keys of a graph are those of its lines. -/
theorem keysReadable_iff_lines : g.KeysReadable ↔ ∀ l ∈ g.lines, l.item.KeysReadable := by
  rw [forall_lines]
  constructor
  · intro h
    have node : ∀ n ∈ g.nodes, g.NodeReadable n :=
      fun n hn e he => h.nodes n hn e (Attributes.mem_withoutDefaults.1 he).1
    have edge : ∀ e ∈ g.edges, g.EdgeReadable e :=
      fun e he k hk => h.edges e he k (Attributes.mem_withoutDefaults.1 hk).1
    refine ⟨h.attrs, h.nodeDefaults, h.edgeDefaults, fun t ht => ?_, ?_, ?_⟩
    · exact ⟨h.subgraphs t ht, fun n hn => node n (mem_subgraphNodes.1 hn).2,
        fun e he => edge e (mem_edges_of_mem_subgraphEdges he)⟩
    · exact fun n hn => node n (mem_looseNodes.1 hn).1
    · exact fun e he => edge e (mem_edges_of_mem_looseEdges he)
  · rintro ⟨hattrs, hnode, hedge, hsubs, hnodes, hedges⟩
    refine ⟨hattrs, hnode, hedge, fun n hn => ?_, fun e he => ?_, fun t ht => (hsubs t ht).attrs⟩
    · -- What a node shares with the defaults is written with them.
      refine forall_entries hnode ?_
      rcases node_listed hn with hn | ⟨t, ht, hn⟩
      · exact hnodes _ hn
      · exact (hsubs t ht).nodes _ hn
    · refine forall_entries hedge ?_
      rcases edge_listed he with he | ⟨t, ht, he⟩
      · exact hedges e he
      · exact (hsubs t ht).edges e he

/-- The text of a graph is read as meant exactly if all keys of the graph are words
    where they are written. -/
theorem lexemes_text_iff : (Tokens.ofText g.text).lexemes = g.lexemes ↔ g.KeysReadable := by
  rw [keysReadable_iff_lines]
  exact ⟨keysReadable_of_lexemes_text, lexemes_text_of_lines⟩

end Graph

end DotLang
