import DotLang.Proofs.Graph.Consistent
import DotLang.Proofs.Listing.Printing
import Mathlib.Data.List.Nodup

/-!
# Where everything is written

The lines of a graph leave nothing out and say nothing twice. Each line is about
something and stands somewhere: in the graph itself, or in a subgraph, which is found by
its number among the subgraphs of the graph, then by its number among those inside of that
one, and so on.

* `Graph.placed`: what the lines are about and where they stand, in their order;
* `Graph.mem_placed_cons`: what stands in a subgraph;
* `Graph.WrittenOnce`: what is written where, and in which order;
* `Graph.Reachable.writtenOnce`: this is so of every graph that can be reached.
-/

namespace DotLang

open Subgraph

/-- What a line is about. Edges are told apart by their places. -/
inductive Topic where
  /-- Attributes of the block that the line is in, or of nodes or edges to come. -/
  | setting (item : Item)
  | opening (name : Option String)
  | node (id : String)
  | edge (index : Nat)
  | closing
  deriving DecidableEq

/-- What a line is about, and the subgraph that it is in. The lines that open and close a
    subgraph are in it. -/
structure Placed where
  /-- The numbers of the subgraphs around the line, from the outermost one on. -/
  place : List Nat
  topic : Topic
  deriving DecidableEq

namespace Placed

/-- The same inside of further subgraphs. -/
def under (p : List Nat) (x : Placed) : Placed := ⟨p ++ x.place, x.topic⟩

/-- The place in the list of edges of the edge of a line. -/
def edge? : Placed → Option Nat
  | ⟨_, .edge i⟩ => some i
  | _ => none

variable {p q : List Nat} {x : Placed}

@[simp] theorem under_nil (x : Placed) : x.under [] = x := rfl

@[simp] theorem under_under (p q : List Nat) (x : Placed) :
    (x.under q).under p = x.under (p ++ q) := by
  simp [under]

@[simp] theorem edge?_under (p : List Nat) (x : Placed) : (x.under p).edge? = x.edge? := by
  obtain ⟨q, t⟩ := x
  cases t <;> rfl

theorem under_injective (p : List Nat) : Function.Injective (under p) := by
  rintro ⟨q, t⟩ ⟨r, u⟩ h
  obtain ⟨hplace, htopic⟩ := mk.inj h
  exact mk.injEq .. ▸ ⟨List.append_cancel_left hplace, htopic⟩

end Placed

/-! ### What stands where -/

/-- What the lines of attributes are about. -/
def settings (lines : List Line) : List Topic := lines.map fun l => .setting l.item

namespace Subgraph

/-- What stands in a subgraph before the subgraphs inside. -/
def top (s : Subgraph) : List Topic :=
  .opening s.name? :: (settings (Graph.assignLines 0 s.attrs.entries) ++
    s.nodeIds.toList.map .node)

/-- What stands in a subgraph behind the subgraphs inside. -/
def bottom (s : Subgraph) : List Topic := s.edgeIndices.toList.map .edge ++ [.closing]

mutual

/-- What the lines of a subgraph are about, with places that start inside of it. -/
def placed : Subgraph → List Placed
  | ⟨name, attrs, nodeIds, edgeIndices, children⟩ =>
    let s : Subgraph := ⟨name, attrs, nodeIds, edgeIndices, children⟩
    s.top.map (⟨[], ·⟩) ++ placedAll 0 children ++ s.bottom.map (⟨[], ·⟩)

/-- What the lines of subgraphs are about, the first of which has the number `i`. -/
def placedAll (i : Nat) : List Subgraph → List Placed
  | [] => []
  | s :: subs => s.placed.map (.under [i]) ++ placedAll (i + 1) subs

end

/-- What the lines of a block are about that has these subgraphs inside. -/
def placedIn (top : List Topic) (subs : List Subgraph) (bottom : List Topic) : List Placed :=
  top.map (⟨[], ·⟩) ++ placedAll 0 subs ++ bottom.map (⟨[], ·⟩)

/-- The subgraph at a place inside of a subgraph. -/
def at? : List Nat → Subgraph → Option Subgraph
  | [], s => some s
  | i :: p, s => (s.children[i]?).bind (at? p)

end Subgraph

namespace Graph

/-- What stands in a graph before its subgraphs. -/
def top (g : Graph) : List Topic :=
  settings (assignLines 1 g.attrs.entries ++ defaultsLines "node" g.nodeDefaults.entries ++
    defaultsLines "edge" g.edgeDefaults.entries)

/-- The places of the edges that were made in no subgraph. -/
def looseIndices (g : Graph) : List Nat :=
  (List.range g.numEdges).filter fun i => !anyRecordsEdge i g.subgraphs

/-- What stands in a graph behind its subgraphs. -/
def bottom (g : Graph) : List Topic :=
  (g.looseNodes.map Node.id).map .node ++ g.looseIndices.map .edge

/-- What the lines of a graph are about, in their order. -/
def placed (g : Graph) : List Placed := placedIn g.top g.subgraphs g.bottom

/-- The subgraph at a place. -/
def subgraphAt? (g : Graph) : List Nat → Option Subgraph
  | [] => none
  | i :: p => (g.subgraphs[i]?).bind (at? p)

/-- The line about something in a block, the opening line of which is at the depth. -/
def lineAt? (g : Graph) (depth : Nat) : Topic → Option Line
  | .setting item => some ⟨depth + 1, item⟩
  | .opening name => some ⟨depth, .opening name⟩
  | .node id => (g.node? id).map (g.nodeLine (depth + 1))
  | .edge i => (g.edges[i]?).map (g.edgeLine (depth + 1))
  | .closing => some ⟨depth, .closing⟩

/-- The line at a place inside of a block, the opening line of which is at the depth. -/
def line? (g : Graph) (depth : Nat) (x : Placed) : Option Line :=
  g.lineAt? (depth + x.place.length) x.topic

/-- Everything is written once: the lines of the graph are about different things, which
    are these and no others, and stand in this order. -/
structure WrittenOnce (g : Graph) : Prop where
  /-- The lines are those of what they are about. -/
  lines : g.placed.map (g.line? 0) = g.lines.map some
  /-- They are what is put out between the first line and the last brace. -/
  printed : g.print Print.append "" = (.ok (), String.ofList (g.titleChars ++
    (g.placed.filterMap (g.line? 0)).flatMap (Line.chars g.directed) ++ ['\x7d']))
  /-- The line of a node has its name, and the attributes that nodes to come do not have. -/
  node_line : ∀ p id, ⟨p, .node id⟩ ∈ g.placed → ∃ n ∈ g.nodes, n.id = id ∧
    g.line? 0 ⟨p, .node id⟩ = some ⟨p.length + 1,
      .node id (Attributes.withoutDefaults n.attrs.entries g.nodeDefaults.entries)⟩
  /-- The line of an edge has its two ends, and the attributes that edges to come do not have. -/
  edge_line : ∀ p i, ⟨p, .edge i⟩ ∈ g.placed → ∃ e, g.edges[i]? = some e ∧
    g.line? 0 ⟨p, .edge i⟩ = some ⟨p.length + 1,
      .edge e.tail e.head (Attributes.withoutDefaults e.attrs.entries g.edgeDefaults.entries)⟩
  /-- No two lines are about the same in the same place. -/
  nodup : g.placed.Nodup
  /-- Each edge has one line. -/
  edges : (g.placed.filterMap Placed.edge?).Perm (List.range g.numEdges)
  /-- It stands in the subgraph that the edge was made in, or in the graph itself if there is
      none. -/
  edge_iff : ∀ p i, ⟨p, .edge i⟩ ∈ g.placed ↔
    (∃ s, g.subgraphAt? p = some s ∧ i ∈ s.edgeIndices) ∨
      p = [] ∧ i < g.numEdges ∧ ∀ q s, g.subgraphAt? q = some s → i ∉ s.edgeIndices
  /-- A node has a line in each subgraph that declares it, or in the graph itself if there is
      none. -/
  node_iff : ∀ p id, ⟨p, .node id⟩ ∈ g.placed ↔
    (∃ s, g.subgraphAt? p = some s ∧ id ∈ s.nodeIds) ∨
      p = [] ∧ id ∈ g.nodes.map Node.id ∧ ∀ q s, g.subgraphAt? q = some s → id ∉ s.nodeIds
  /-- Thus each node has a line. -/
  nodes : ∀ n ∈ g.nodes, ∃ p, ⟨p, .node n.id⟩ ∈ g.placed
  /-- Each subgraph is opened in its place. -/
  opening_iff : ∀ p name, ⟨p, .opening name⟩ ∈ g.placed ↔
    ∃ s, g.subgraphAt? p = some s ∧ s.name? = name
  /-- Each subgraph is closed in its place. -/
  closing_iff : ∀ p, ⟨p, .closing⟩ ∈ g.placed ↔ ∃ s, g.subgraphAt? p = some s
  /-- Between these two lines is what stands in the subgraph or in those inside of it, and
      nothing else. -/
  blocks : ∀ p s, g.subgraphAt? p = some s → ∃ before inside after,
    g.placed = before ++ ⟨p, .opening s.name?⟩ :: (inside ++ ⟨p, .closing⟩ :: after) ∧
      (∀ x ∈ inside, p <+: x.place) ∧ ∀ x ∈ before ++ after, ¬p <+: x.place
  /-- Both ends of an edge have a line before that of the edge, in the same block or inside
      of it. -/
  ends : ∀ p i e, ⟨p, .edge i⟩ ∈ g.placed → g.edges[i]? = some e → ∀ id ∈ e.ends,
    ∃ q, p <+: q ∧ [⟨q, .node id⟩, ⟨p, .edge i⟩].Sublist g.placed

end Graph

/-! ### Places in a tree -/

namespace Subgraph

variable {s t u : Subgraph} {subs : List Subgraph} {top bottom : List Topic} {i : Nat}
  {p : List Nat} {x : Placed} {topic : Topic}

theorem placed_eq (s : Subgraph) : s.placed = placedIn s.top s.children s.bottom := by
  obtain ⟨name, attrs, nodeIds, edgeIndices, children⟩ := s
  rw [placed, placedIn]

theorem at?_append (p q : List Nat) (s : Subgraph) :
    s.at? (p ++ q) = (s.at? p).bind (at? q) := by
  induction p generalizing s with
  | nil => rfl
  | cons i p ih => rw [List.cons_append, at?, at?, funext ih, Option.bind_assoc]

mutual

/-- The subgraphs of a tree are those that have a place in it. -/
theorem mem_tree_iff_at? : (s : Subgraph) → (t ∈ s.tree ↔ ∃ p, s.at? p = some t)
  | ⟨name, attrs, nodeIds, edgeIndices, children⟩ => by
    rw [mem_tree, mem_forest_iff_at? children]
    constructor
    · rintro (⟨i, child, p, hchild, h⟩ | rfl)
      · exact ⟨i :: p, Option.bind_eq_some_iff.2 ⟨child, hchild, h⟩⟩
      · exact ⟨[], rfl⟩
    · rintro ⟨_ | ⟨i, p⟩, h⟩
      · exact .inr (Option.some.inj h).symm
      · obtain ⟨child, hchild, h⟩ := Option.bind_eq_some_iff.1 h
        exact .inl ⟨i, child, p, hchild, h⟩

theorem mem_forest_iff_at? : (subs : List Subgraph) →
    (t ∈ forest subs ↔ ∃ (i : Nat) (s : Subgraph) (p : List Nat),
      subs[i]? = some s ∧ s.at? p = some t)
  | [] => by simp
  | s :: subs => by
    rw [forest_cons, List.mem_append, mem_tree_iff_at? s, mem_forest_iff_at? subs]
    constructor
    · rintro (⟨p, h⟩ | ⟨i, child, p, hchild, h⟩)
      · exact ⟨0, s, p, rfl, h⟩
      · exact ⟨i + 1, child, p, hchild, h⟩
    · rintro ⟨_ | i, child, p, hchild, h⟩
      · obtain rfl := Option.some.inj hchild
        exact .inl ⟨p, h⟩
      · exact .inr ⟨i, child, p, hchild, h⟩

end

theorem mem_placedAll : x ∈ placedAll i subs ↔
    ∃ (j : Nat) (s : Subgraph), subs[j]? = some s ∧ ∃ y ∈ s.placed, y.under [i + j] = x := by
  induction subs generalizing i with
  | nil => simp [placedAll]
  | cons s subs ih =>
    rw [placedAll, List.mem_append, List.mem_map, ih]
    constructor
    · rintro (h | ⟨j, t, ht, h⟩)
      · exact ⟨0, s, rfl, h⟩
      · exact ⟨j + 1, t, ht, by rwa [← Nat.add_assoc, Nat.add_right_comm]⟩
    · rintro ⟨_ | j, t, ht, h⟩
      · obtain rfl := Option.some.inj ht
        exact .inl h
      · exact .inr ⟨j, t, ht, by rwa [← Nat.add_assoc, Nat.add_right_comm] at h⟩

/-- What stands in a block itself is not in a subgraph inside. -/
theorem nil_notMem_placedAll : ⟨[], topic⟩ ∉ placedAll i subs := by
  rw [mem_placedAll]
  rintro ⟨j, s, -, y, -, h⟩
  exact List.cons_ne_nil _ _ (congrArg Placed.place h)

theorem mem_placedIn_nil :
    ⟨[], topic⟩ ∈ placedIn top subs bottom ↔ topic ∈ top ∨ topic ∈ bottom := by
  simp [placedIn, nil_notMem_placedAll]

theorem mem_placedIn_cons : ⟨i :: p, topic⟩ ∈ placedIn top subs bottom ↔
    ∃ s, subs[i]? = some s ∧ ⟨p, topic⟩ ∈ s.placed := by
  have outside : ∀ ts : List Topic, (⟨i :: p, topic⟩ : Placed) ∉ ts.map (⟨[], ·⟩) := by
    intro ts h
    obtain ⟨t, -, ht⟩ := List.mem_map.1 h
    exact List.cons_ne_nil _ _ (congrArg Placed.place ht).symm
  rw [placedIn, List.mem_append, List.mem_append, or_iff_left (outside _),
    or_iff_right (outside _), mem_placedAll]
  constructor
  · rintro ⟨j, s, hs, ⟨q, t⟩, hy, h⟩
    obtain ⟨hplace, rfl⟩ := Placed.mk.inj h
    obtain ⟨hi, rfl⟩ := List.cons.inj hplace
    rw [Nat.zero_add] at hi
    exact ⟨s, hi ▸ hs, hy⟩
  · rintro ⟨s, hs, h⟩
    exact ⟨i, s, hs, _, h, by simp [Placed.under]⟩

/-- At a place of a tree is what stands in the subgraph there. -/
theorem mem_placed : ⟨p, topic⟩ ∈ s.placed ↔
    ∃ t, s.at? p = some t ∧ (topic ∈ t.top ∨ topic ∈ t.bottom) := by
  induction p generalizing s with
  | nil =>
    rw [placed_eq, mem_placedIn_nil]
    exact ⟨fun h => ⟨s, rfl, h⟩, fun ⟨t, ht, h⟩ => Option.some.inj ht ▸ h⟩
  | cons i p ih =>
    rw [placed_eq, mem_placedIn_cons]
    simp only [ih, at?, Option.bind_eq_some_iff]
    constructor
    · rintro ⟨child, hchild, t, ht, h⟩
      exact ⟨t, ⟨child, hchild, ht⟩, h⟩
    · rintro ⟨t, ⟨child, hchild, ht⟩, h⟩
      exact ⟨child, hchild, t, ht, h⟩

/-! ### Nothing is written twice -/

theorem nodup_placedIn (own : (top ++ bottom).Nodup) (inside : (placedAll 0 subs).Nodup) :
    (placedIn top subs bottom).Nodup := by
  obtain ⟨htop, hbottom, hne⟩ := List.nodup_append.1 own
  have inj : Function.Injective (Placed.mk []) := fun _ _ h => (Placed.mk.inj h).2
  refine List.nodup_append.2 ⟨List.nodup_append.2 ⟨htop.map inj, inside, ?_⟩, hbottom.map inj, ?_⟩
  · rintro x hx y hy rfl
    obtain ⟨t, -, rfl⟩ := List.mem_map.1 hx
    exact nil_notMem_placedAll hy
  · rintro x hx y hy rfl
    obtain ⟨t, ht, rfl⟩ := List.mem_map.1 hy
    rcases List.mem_append.1 hx with hx | hx
    · exact hne t ((List.mem_map_of_injective inj).1 hx) t ht rfl
    · exact nil_notMem_placedAll hx

mutual

/-- A tree is written without repetitions if each of its subgraphs is. -/
theorem nodup_placed : (s : Subgraph) → (∀ t ∈ s.tree, (t.top ++ t.bottom).Nodup) →
    s.placed.Nodup
  | ⟨name, attrs, nodeIds, edgeIndices, children⟩, h => by
    rw [forall_tree] at h
    rw [placed_eq]
    exact nodup_placedIn h.2 (nodup_placedAll 0 children h.1)

theorem nodup_placedAll (i : Nat) : (subs : List Subgraph) →
    (∀ t ∈ forest subs, (t.top ++ t.bottom).Nodup) → (placedAll i subs).Nodup
  | [], _ => by
    rw [placedAll]
    exact .nil
  | s :: subs, h => by
    rw [forall_forest_cons] at h
    rw [placedAll]
    refine List.nodup_append.2 ⟨(nodup_placed s h.1).map (Placed.under_injective [i]),
      nodup_placedAll (i + 1) subs h.2, ?_⟩
    -- The numbers of the later subgraphs are greater.
    rintro x hx y hy rfl
    obtain ⟨y, -, rfl⟩ := List.mem_map.1 hx
    obtain ⟨j, t, -, z, -, hz⟩ := mem_placedAll.1 hy
    have number := (List.cons.inj (congrArg Placed.place hz)).1
    omega

end

/-! ### Edges and blocks in a tree -/

theorem filterMap_edge?_placedIn : (placedIn top subs bottom).filterMap Placed.edge? =
    (top.map (⟨[], ·⟩)).filterMap Placed.edge? ++ (placedAll 0 subs).filterMap Placed.edge? ++
      (bottom.map (⟨[], ·⟩)).filterMap Placed.edge? := by
  rw [placedIn, List.filterMap_append, List.filterMap_append]

theorem filterMap_edge?_settings (lines : List Line) :
    ((settings lines).map (⟨[], ·⟩)).filterMap Placed.edge? = [] := by
  simp [settings, Placed.edge?, Function.comp_def]

theorem filterMap_edge?_nodes (ids : List String) :
    ((ids.map Topic.node).map (⟨[], ·⟩)).filterMap Placed.edge? = [] := by
  simp [Placed.edge?, Function.comp_def]

theorem filterMap_edge?_edges (is : List Nat) :
    ((is.map Topic.edge).map (⟨[], ·⟩)).filterMap Placed.edge? = is := by
  simp [Placed.edge?, Function.comp_def]

theorem filterMap_edge?_top (s : Subgraph) :
    (s.top.map (⟨[], ·⟩)).filterMap Placed.edge? = [] := by
  rw [top, List.map_cons, List.map_append, List.filterMap_cons_none rfl, List.filterMap_append,
    filterMap_edge?_settings, filterMap_edge?_nodes, List.append_nil]

mutual

/-- The edges of a tree are written in the order in which its subgraphs end. -/
theorem filterMap_edge?_placed :
    (s : Subgraph) → s.placed.filterMap Placed.edge? = recorded s.children ++ s.edgeIndices.toList
  | ⟨name, attrs, nodeIds, edgeIndices, children⟩ => by
    rw [placed_eq, filterMap_edge?_placedIn, filterMap_edge?_placedAll 0 children,
      filterMap_edge?_top, List.nil_append, bottom, List.map_append, List.filterMap_append,
      filterMap_edge?_edges]
    exact congrArg _ (List.append_nil _)

theorem filterMap_edge?_placedAll (i : Nat) :
    (subs : List Subgraph) → (placedAll i subs).filterMap Placed.edge? = recorded subs
  | [] => by
    rw [placedAll, recorded_nil]
    rfl
  | s :: subs => by
    rw [placedAll, List.filterMap_append, List.filterMap_map, recorded_cons,
      filterMap_edge?_placedAll (i + 1) subs, ← filterMap_edge?_placed s]
    simp only [Function.comp_def, Placed.edge?_under]

end

theorem map_under_infix_placedAll {j : Nat} (h : subs[j]? = some s) :
    s.placed.map (.under [i + j]) <:+: placedAll i subs := by
  induction subs generalizing i j with
  | nil => cases h
  | cons t subs ih =>
    rw [placedAll]
    rcases j with _ | j
    · obtain rfl := Option.some.inj h
      exact (List.prefix_append _ _).isInfix
    · have later := ih (i := i + 1) h
      rw [Nat.add_right_comm] at later
      exact later.trans (List.suffix_append _ _).isInfix

theorem map_under_infix_placedIn (h : subs[i]? = some s) :
    s.placed.map (.under [i]) <:+: placedIn top subs bottom := by
  have inside : s.placed.map (.under [i]) <:+: placedAll 0 subs :=
    Nat.zero_add i ▸ map_under_infix_placedAll h
  exact inside.trans ((List.suffix_append _ _).isInfix.trans (List.prefix_append _ _).isInfix)

/-- What is in a subgraph is written in one piece. -/
theorem map_under_infix_placed (h : s.at? p = some t) :
    t.placed.map (.under p) <:+: s.placed := by
  induction p generalizing s with
  | nil =>
    obtain rfl := Option.some.inj h
    have same : s.placed.map (.under []) = s.placed := List.map_id'' Placed.under_nil _
    exact ⟨[], [], by rw [List.nil_append, List.append_nil, same]⟩
  | cons i p ih =>
    obtain ⟨child, hchild, h⟩ := Option.bind_eq_some_iff.1 h
    have inner := (ih h).map (Placed.under [i])
    rw [List.map_map] at inner
    simp only [Function.comp_def, Placed.under_under] at inner
    rw [s.placed_eq]
    exact inner.trans (map_under_infix_placedIn hchild)

end Subgraph

/-! ### The lines of a tree -/

namespace Graph

variable {g : Graph} {s : Subgraph} {p : List Nat} {i depth : Nat} {id : String}
  {name : Option String} {topic : Topic}

/-- If everything is found, nothing is left out. -/
theorem map_map_eq_map_some {α β γ : Type} {f : α → Option β} {l : List α}
    (h : ∀ a ∈ l, (f a).isSome) (k : β → γ) :
    l.map (fun a => (f a).map k) = ((l.filterMap f).map k).map some := by
  induction l with
  | nil => rfl
  | cons a l ih =>
    obtain ⟨b, hb⟩ := Option.isSome_iff_exists.1 (h a List.mem_cons_self)
    rw [List.map_cons, List.filterMap_cons_some hb, hb, ih fun a' ha' => h a' (.tail a ha')]
    rfl

theorem line?_under (g : Graph) (depth : Nat) (p : List Nat) (x : Placed) :
    g.line? depth (x.under p) = g.line? (depth + p.length) x := by
  rw [line?, line?, Placed.under, List.length_append, Nat.add_assoc]

theorem map_line?_placedIn {top bottom : List Topic} {subs : List Subgraph} :
    (placedIn top subs bottom).map (g.line? depth) =
      top.map (g.lineAt? depth) ++ (placedAll 0 subs).map (g.line? depth) ++
        bottom.map (g.lineAt? depth) := by
  rw [placedIn, List.map_append, List.map_append, List.map_map, List.map_map]
  rfl

theorem map_lineAt?_nodes {ids : List String} (h : ∀ id ∈ ids, g.hasNode id = true) :
    (ids.map Topic.node).map (g.lineAt? depth) =
      ((ids.filterMap g.node?).map (g.nodeLine (depth + 1))).map some := by
  rw [List.map_map]
  refine map_map_eq_map_some (fun id hid => ?_) _
  obtain ⟨n, hn⟩ := exists_node?_of_hasNode (h id hid)
  rw [hn]
  rfl

theorem map_lineAt?_edges {is : List Nat} (h : ∀ i ∈ is, i < g.numEdges) :
    (is.map Topic.edge).map (g.lineAt? depth) =
      ((is.filterMap (g.edges[·]?)).map (g.edgeLine (depth + 1))).map some := by
  rw [List.map_map]
  refine map_map_eq_map_some (fun i hi => ?_) _
  rw [Array.getElem?_eq_getElem (h i hi)]
  rfl

theorem map_lineAt?_assign (entries : List (String × String)) (d : Nat) :
    (settings (assignLines d entries)).map (g.lineAt? depth) =
      (assignLines (depth + 1) entries).map some := by
  simp [settings, assignLines, lineAt?, Function.comp_def]

theorem map_lineAt?_defaults (keyword : String) (entries : List (String × String)) :
    (settings (defaultsLines keyword entries)).map (g.lineAt? 0) =
      (defaultsLines keyword entries).map some := by
  rw [defaultsLines]
  split <;> rfl

theorem map_lineAt?_top : g.top.map (g.lineAt? 0) =
    (assignLines 1 g.attrs.entries ++ defaultsLines "node" g.nodeDefaults.entries ++
      defaultsLines "edge" g.edgeDefaults.entries).map some := by
  rw [List.map_append, List.map_append, ← map_lineAt?_defaults (g := g),
    ← map_lineAt?_defaults (g := g), ← map_lineAt?_assign (g := g) _ 1]
  simp only [top, settings, List.map_append]

theorem map_lineAt?_subgraphTop (h : s.Consistent g) : s.top.map (g.lineAt? depth) =
    (([⟨depth, .opening s.name?⟩] : List Line) ++ assignLines (depth + 1) s.attrs.entries ++
      (g.subgraphNodes s).map (g.nodeLine (depth + 1))).map some := by
  have nodes : ∀ id ∈ s.nodeIds.toList, g.hasNode id = true := fun id hid =>
    hasNode_iff.2 (h.ids id (by simpa using hid))
  rw [Subgraph.top, List.map_cons, List.map_append, map_lineAt?_assign, map_lineAt?_nodes nodes,
    List.map_append, List.map_append]
  rfl

theorem map_lineAt?_subgraphBottom (h : s.Consistent g) : s.bottom.map (g.lineAt? depth) =
    ((g.subgraphEdges s).map (g.edgeLine (depth + 1)) ++
      ([⟨depth, .closing⟩] : List Line)).map some := by
  have edges : ∀ i ∈ s.edgeIndices.toList, i < g.numEdges := fun i hi =>
    h.lt_numEdges i (by simpa using hi)
  rw [Subgraph.bottom, List.map_append, map_lineAt?_edges edges, List.map_append]
  rfl

mutual

/-- The lines of a subgraph are those of what is placed in it. -/
theorem map_line?_placed (depth : Nat) : (s : Subgraph) → (∀ t ∈ s.tree, t.Consistent g) →
    s.placed.map (g.line? depth) = (g.subgraphLines depth s).map some
  | ⟨name, attrs, nodeIds, edgeIndices, children⟩, h => by
    rw [forall_tree] at h
    rw [placed_eq, map_line?_placedIn, map_lineAt?_subgraphTop h.2,
      map_lineAt?_subgraphBottom h.2, map_line?_placedAll depth 0 children h.1, subgraphLines_eq]
    simp only [List.map_append, List.append_assoc]

theorem map_line?_placedAll (depth i : Nat) : (subs : List Subgraph) →
    (∀ t ∈ forest subs, t.Consistent g) →
    (placedAll i subs).map (g.line? depth) = (g.subgraphsLines (depth + 1) subs).map some
  | [], _ => by
    rw [placedAll, subgraphsLines]
    rfl
  | s :: subs, h => by
    rw [forall_forest_cons] at h
    rw [placedAll, subgraphsLines, List.map_append, List.map_append, List.map_map,
      ← map_line?_placed (depth + 1) s h.1, map_line?_placedAll depth (i + 1) subs h.2]
    congr 1
    exact List.map_congr_left fun x _ => line?_under g depth [i] x

end

/-! ### The graph -/

theorem mem_forest_iff_subgraphAt? {t : Subgraph} :
    t ∈ forest g.subgraphs ↔ ∃ p, g.subgraphAt? p = some t := by
  rw [mem_forest_iff_at?]
  constructor
  · rintro ⟨i, s, p, hs, ht⟩
    exact ⟨i :: p, Option.bind_eq_some_iff.2 ⟨s, hs, ht⟩⟩
  · rintro ⟨_ | ⟨i, p⟩, ht⟩
    · cases ht
    · obtain ⟨s, hs, ht⟩ := Option.bind_eq_some_iff.1 ht
      exact ⟨i, s, p, hs, ht⟩

theorem subgraphAt?_append {q : List Nat} (hs : g.subgraphAt? p = some s) :
    g.subgraphAt? (p ++ q) = s.at? q := by
  rcases p with _ | ⟨i, p⟩
  · cases hs
  · rw [subgraphAt?] at hs
    rw [List.cons_append, subgraphAt?, funext (at?_append p q), ← Option.bind_assoc, hs,
      Option.bind_some]

/-- In the graph itself stands what is in no subgraph. -/
theorem mem_placed_nil : ⟨[], topic⟩ ∈ g.placed ↔ topic ∈ g.top ∨ topic ∈ g.bottom :=
  mem_placedIn_nil

/-- In a subgraph stands what is in it itself. -/
theorem mem_placed_cons : ⟨i :: p, topic⟩ ∈ g.placed ↔
    ∃ s, g.subgraphAt? (i :: p) = some s ∧ (topic ∈ s.top ∨ topic ∈ s.bottom) := by
  rw [placed, mem_placedIn_cons]
  simp only [mem_placed, subgraphAt?, Option.bind_eq_some_iff]
  constructor
  · rintro ⟨s, hs, t, ht, h⟩
    exact ⟨t, ⟨s, hs, ht⟩, h⟩
  · rintro ⟨t, ⟨s, hs, ht⟩, h⟩
    exact ⟨s, hs, t, ht, h⟩

/-- What stands in a subgraph or in those inside of it. -/
theorem mem_placed_append {q : List Nat} (hs : g.subgraphAt? p = some s) :
    ⟨p ++ q, topic⟩ ∈ g.placed ↔ ⟨q, topic⟩ ∈ s.placed := by
  rcases p with _ | ⟨i, p⟩
  · cases hs
  · rw [List.cons_append, mem_placed_cons, ← List.cons_append, subgraphAt?_append hs, mem_placed]

theorem node_mem_subgraph : (.node id ∈ s.top ∨ .node id ∈ s.bottom) ↔ id ∈ s.nodeIds := by
  simp [Subgraph.top, Subgraph.bottom, settings]

theorem edge_mem_subgraph : (.edge i ∈ s.top ∨ .edge i ∈ s.bottom) ↔ i ∈ s.edgeIndices := by
  simp [Subgraph.top, Subgraph.bottom, settings]

theorem opening_mem_subgraph :
    (.opening name ∈ s.top ∨ .opening name ∈ s.bottom) ↔ s.name? = name := by
  simp [Subgraph.top, Subgraph.bottom, settings, eq_comm]

theorem closing_mem_bottom : .closing ∈ s.bottom := by
  simp [Subgraph.bottom]

theorem mem_looseIndices : i ∈ g.looseIndices ↔
    i < g.numEdges ∧ ∀ q s, g.subgraphAt? q = some s → i ∉ s.edgeIndices := by
  rw [looseIndices, List.mem_filter, List.mem_range, Bool.not_eq_true', Bool.eq_false_iff, Ne,
    anyRecordsEdge_iff]
  simp only [mem_forest_iff_subgraphAt?, not_exists, not_and, forall_exists_index]
  exact and_congr_right fun _ => forall_comm

theorem mem_map_id_looseNodes : id ∈ g.looseNodes.map Node.id ↔
    id ∈ g.nodes.map Node.id ∧ ∀ q s, g.subgraphAt? q = some s → id ∉ s.nodeIds := by
  simp only [List.mem_map, mem_looseNodes, mem_forest_iff_subgraphAt?]
  constructor
  · rintro ⟨n, ⟨hn, loose⟩, rfl⟩
    exact ⟨⟨n, hn, rfl⟩, fun q s hs => loose s ⟨q, hs⟩⟩
  · rintro ⟨⟨n, hn, rfl⟩, loose⟩
    exact ⟨n, ⟨hn, fun s ⟨q, hs⟩ => loose q s hs⟩, rfl⟩

theorem node_mem_bottom : .node id ∈ g.bottom ↔
    id ∈ g.nodes.map Node.id ∧ ∀ q s, g.subgraphAt? q = some s → id ∉ s.nodeIds := by
  rw [← mem_map_id_looseNodes]
  simp [bottom]

theorem edge_mem_bottom : .edge i ∈ g.bottom ↔
    i < g.numEdges ∧ ∀ q s, g.subgraphAt? q = some s → i ∉ s.edgeIndices := by
  rw [← mem_looseIndices]
  simp [bottom]

theorem mem_placed_node : ⟨p, .node id⟩ ∈ g.placed ↔
    (∃ s, g.subgraphAt? p = some s ∧ id ∈ s.nodeIds) ∨
      p = [] ∧ id ∈ g.nodes.map Node.id ∧ ∀ q s, g.subgraphAt? q = some s → id ∉ s.nodeIds := by
  rcases p with _ | ⟨i, p⟩
  · rw [mem_placed_nil, node_mem_bottom]
    simp [top, settings, subgraphAt?]
  · simp [mem_placed_cons, node_mem_subgraph]

theorem mem_placed_edge : ⟨p, .edge i⟩ ∈ g.placed ↔
    (∃ s, g.subgraphAt? p = some s ∧ i ∈ s.edgeIndices) ∨
      p = [] ∧ i < g.numEdges ∧ ∀ q s, g.subgraphAt? q = some s → i ∉ s.edgeIndices := by
  rcases p with _ | ⟨j, p⟩
  · rw [mem_placed_nil, edge_mem_bottom]
    simp [top, settings, subgraphAt?]
  · simp [mem_placed_cons, edge_mem_subgraph]

theorem mem_placed_opening : ⟨p, .opening name⟩ ∈ g.placed ↔
    ∃ s, g.subgraphAt? p = some s ∧ s.name? = name := by
  rcases p with _ | ⟨i, p⟩
  · rw [mem_placed_nil]
    simp [top, bottom, settings, subgraphAt?]
  · simp [mem_placed_cons, opening_mem_subgraph]

theorem mem_placed_closing : ⟨p, .closing⟩ ∈ g.placed ↔ ∃ s, g.subgraphAt? p = some s := by
  rcases p with _ | ⟨i, p⟩
  · rw [mem_placed_nil]
    simp [top, bottom, settings, subgraphAt?]
  · simp [mem_placed_cons, closing_mem_bottom]

/-! ### Nothing is placed twice -/

theorem nodup_settings_assign {o : Owner} (a : Attributes o) (d : Nat) :
    (settings (assignLines d a.entries)).Nodup := by
  have entries : a.entries.Nodup :=
    a.texts.sorted.imp fun h heq => absurd (heq ▸ h) (String.lt_irrefl _)
  rw [settings, assignLines, List.map_map]
  refine entries.map ?_
  rintro ⟨k, v⟩ ⟨k', v'⟩ h
  obtain ⟨rfl, rfl⟩ := Item.assign.inj (Topic.setting.inj h)
  rfl

theorem nodup_subgraph (h : s.Consistent g) : (s.top ++ s.bottom).Nodup := by
  have assigned := nodup_settings_assign s.attrs 0
  have nodes : (s.nodeIds.toList.map Topic.node).Nodup :=
    h.ids_nodup.map fun _ _ => Topic.node.inj
  have edges : (s.edgeIndices.toList.map Topic.edge).Nodup :=
    List.Nodup.map (fun _ _ => Topic.edge.inj) (h.sorted.imp Nat.ne_of_lt)
  rw [Subgraph.top, Subgraph.bottom, List.cons_append, List.nodup_cons, List.nodup_append,
    List.nodup_append, List.nodup_append]
  refine ⟨by simp [settings], ⟨assigned, nodes, by simp [settings]⟩,
    ⟨edges, List.nodup_singleton _, by simp⟩, ?_⟩
  rintro topic htop _ hbottom rfl
  cases topic <;> simp [settings] at htop hbottom

theorem nodup_top (g : Graph) : g.top.Nodup := by
  have defaults : ∀ keyword entries topic, topic ∈ settings (defaultsLines keyword entries) →
      topic = .setting (.defaults keyword entries) := by
    intro keyword entries topic h
    rw [defaultsLines] at h
    split at h
    · cases h
    · exact List.mem_singleton.1 h
  have defaults_nodup : ∀ keyword entries, (settings (defaultsLines keyword entries)).Nodup := by
    intro keyword entries
    rw [defaultsLines]
    split
    · exact .nil
    · exact List.nodup_singleton _
  have assigned : ∀ topic ∈ settings (assignLines 1 g.attrs.entries),
      ∃ key text, topic = .setting (.assign key text) := by
    simp only [settings, assignLines, List.map_map, List.forall_mem_map]
    exact fun e _ => ⟨e.1, e.2, rfl⟩
  rw [top, settings, List.map_append, List.map_append]
  refine List.nodup_append.2 ⟨List.nodup_append.2 ⟨nodup_settings_assign g.attrs 1,
    defaults_nodup _ _, ?_⟩, defaults_nodup _ _, ?_⟩
  · rintro topic hassign _ hnode rfl
    obtain ⟨key, text, rfl⟩ := assigned topic hassign
    cases defaults _ _ _ hnode
  · rintro topic hbefore _ hedge rfl
    obtain rfl := defaults _ _ _ hedge
    rcases List.mem_append.1 hbefore with hassign | hnode
    · obtain ⟨key, text, h⟩ := assigned _ hassign
      cases h
    · have keyword := (Item.defaults.inj (Topic.setting.inj (defaults _ _ _ hnode))).1
      exact absurd keyword (by decide)

theorem Consistent.nodup_placed (h : g.Consistent) : g.placed.Nodup := by
  have nodes : ((g.looseNodes.map Node.id).map Topic.node).Nodup :=
    (h.ids_nodup.sublist (List.filter_sublist.map _)).map fun _ _ => Topic.node.inj
  have edges : (g.looseIndices.map Topic.edge).Nodup :=
    (List.nodup_range.filter _).map fun _ _ => Topic.edge.inj
  have bottom_nodup : g.bottom.Nodup := List.nodup_append.2 ⟨nodes, edges, by simp⟩
  refine nodup_placedIn (List.nodup_append.2 ⟨g.nodup_top, bottom_nodup, ?_⟩)
    (nodup_placedAll 0 g.subgraphs fun t ht => nodup_subgraph (h.subgraphs t ht))
  rintro topic htop _ hbottom rfl
  cases topic <;> simp [top, settings, bottom] at htop hbottom

/-! ### What is written -/

theorem Consistent.map_lineAt?_bottom (h : g.Consistent) : g.bottom.map (g.lineAt? 0) =
    (g.looseNodes.map (g.nodeLine 1) ++ g.looseEdges.map (g.edgeLine 1)).map some := by
  have edges : ∀ i ∈ g.looseIndices, i < g.numEdges := fun i hi => (mem_looseIndices.1 hi).1
  have nodes : ∀ id ∈ g.looseNodes.map Node.id, g.hasNode id = true := fun id hid =>
    hasNode_iff.2 (mem_map_id_looseNodes.1 hid).1
  have found : ∀ n ∈ g.looseNodes, g.node? n.id = some n := fun n hn =>
    (h.node?_iff n.id n).2 ⟨(mem_looseNodes.1 hn).1, rfl⟩
  have loose : (g.looseNodes.map Node.id).filterMap g.node? = g.looseNodes := by
    rw [List.filterMap_map]
    exact (OrderedMap.filterMap_congr_of_mem found).trans List.filterMap_some
  rw [bottom, List.map_append, map_lineAt?_nodes nodes, map_lineAt?_edges edges, loose,
    looseEdges_eq, List.map_append]
  rfl

theorem Consistent.map_line?_placed (h : g.Consistent) :
    g.placed.map (g.line? 0) = g.lines.map some := by
  rw [placed, map_line?_placedIn, map_lineAt?_top, map_line?_placedAll 0 0 _ h.subgraphs,
    h.map_lineAt?_bottom, lines]
  simp only [List.map_append, List.append_assoc]

/-- What is put out are the lines of what stands in the graph. -/
theorem Consistent.print_eq (h : g.Consistent) : g.print Print.append "" =
    (.ok (), String.ofList (g.titleChars ++
      (g.placed.filterMap (g.line? 0)).flatMap (Line.chars g.directed) ++ ['\x7d'])) := by
  have lines : g.placed.filterMap (g.line? 0) = g.lines := by
    have all := congrArg (List.filterMap id) h.map_line?_placed
    simpa only [List.filterMap_map, Function.id_comp, Function.comp_def, id, List.filterMap_some]
      using all
  rw [lines, print_append, String.empty_append, Graph.text, Graph.chars, pieces]
  simp only [List.flatten_cons, List.flatten_append, List.flatten_nil, List.flatMap_def,
    List.append_assoc, List.append_nil]

/-- Everything that stands in the graph has a line. -/
theorem Consistent.exists_line (h : g.Consistent) {x : Placed} (hx : x ∈ g.placed) :
    ∃ l, g.line? 0 x = some l := by
  have mem : g.line? 0 x ∈ g.lines.map some := h.map_line?_placed ▸ List.mem_map_of_mem hx
  obtain ⟨l, -, hl⟩ := List.mem_map.1 mem
  exact ⟨l, hl.symm⟩

theorem Consistent.node_line (h : g.Consistent) (hp : ⟨p, .node id⟩ ∈ g.placed) :
    ∃ n ∈ g.nodes, n.id = id ∧ g.line? 0 ⟨p, .node id⟩ = some ⟨p.length + 1,
      .node id (Attributes.withoutDefaults n.attrs.entries g.nodeDefaults.entries)⟩ := by
  obtain ⟨l, hl⟩ := h.exists_line hp
  obtain ⟨n, hn, rfl⟩ := Option.map_eq_some_iff.1 hl
  obtain ⟨mem, rfl⟩ := (h.node?_iff id n).1 hn
  rw [Nat.zero_add] at hl
  exact ⟨n, mem, rfl, hl⟩

theorem Consistent.edge_line (h : g.Consistent) (hp : ⟨p, .edge i⟩ ∈ g.placed) :
    ∃ e, g.edges[i]? = some e ∧ g.line? 0 ⟨p, .edge i⟩ = some ⟨p.length + 1,
      .edge e.tail e.head (Attributes.withoutDefaults e.attrs.entries g.edgeDefaults.entries)⟩ := by
  obtain ⟨l, hl⟩ := h.exists_line hp
  obtain ⟨e, he, rfl⟩ := Option.map_eq_some_iff.1 hl
  rw [Nat.zero_add] at hl
  exact ⟨e, he, hl⟩

theorem filterMap_edge?_placed (g : Graph) : g.placed.filterMap Placed.edge? = g.listing := by
  rw [placed, filterMap_edge?_placedIn, filterMap_edge?_placedAll, top, filterMap_edge?_settings,
    bottom, List.map_append, List.filterMap_append, filterMap_edge?_nodes, filterMap_edge?_edges]
  rfl

theorem map_under_infix_placed (h : g.subgraphAt? p = some s) :
    s.placed.map (.under p) <:+: g.placed := by
  rcases p with _ | ⟨i, p⟩
  · cases h
  · obtain ⟨child, hchild, h⟩ := Option.bind_eq_some_iff.1 h
    have inner := (Subgraph.map_under_infix_placed h).map (Placed.under [i])
    rw [List.map_map] at inner
    simp only [Function.comp_def, Placed.under_under] at inner
    exact inner.trans (map_under_infix_placedIn hchild)

/-- Subgraphs stand between their opening and closing lines. -/
theorem exists_placed_eq (s : Subgraph) : ∃ inside,
    s.placed = ⟨[], .opening s.name?⟩ :: (inside ++ [⟨[], .closing⟩]) := by
  let before := settings (assignLines 0 s.attrs.entries) ++ s.nodeIds.toList.map Topic.node
  let after := s.edgeIndices.toList.map Topic.edge
  refine ⟨before.map (⟨[], ·⟩) ++ (placedAll 0 s.children ++ after.map (⟨[], ·⟩)), ?_⟩
  rw [placed_eq, placedIn, Subgraph.top, Subgraph.bottom]
  simp only [before, after, List.map_cons, List.map_append, List.append_assoc, List.cons_append,
    List.map_nil]

theorem Consistent.blocks (h : g.Consistent) (hs : g.subgraphAt? p = some s) :
    ∃ before inside after,
      g.placed = before ++ ⟨p, .opening s.name?⟩ :: (inside ++ ⟨p, .closing⟩ :: after) ∧
        (∀ x ∈ inside, p <+: x.place) ∧ ∀ x ∈ before ++ after, ¬p <+: x.place := by
  obtain ⟨before, after, heq⟩ := map_under_infix_placed hs
  obtain ⟨inside, hinside⟩ := exists_placed_eq s
  refine ⟨before, inside.map (.under p), after, ?_, ?_, ?_⟩
  · rw [← heq, hinside]
    simp [Placed.under]
  · intro x hx
    obtain ⟨y, -, rfl⟩ := List.mem_map.1 hx
    exact List.prefix_append p y.place
  · -- What is in the subgraph has been counted already.
    rintro ⟨place, topic⟩ hx ⟨q, rfl⟩
    have mem : ⟨p ++ q, topic⟩ ∈ g.placed := by
      rw [← heq, List.append_assoc]
      rcases List.mem_append.1 hx with hx | hx
      · exact List.mem_append_left _ hx
      · exact List.mem_append_right _ (List.mem_append_right _ hx)
    have inner : ⟨p ++ q, topic⟩ ∈ s.placed.map (Placed.under p) :=
      List.mem_map.2 ⟨_, (mem_placed_append hs).1 mem, rfl⟩
    have nodup := h.nodup_placed
    rw [← heq] at nodup
    obtain ⟨left, -, right⟩ := List.nodup_append.1 nodup
    rcases List.mem_append.1 hx with hx | hx
    · exact (List.nodup_append.1 left).2.2 _ hx _ inner rfl
    · exact right _ (List.mem_append_right _ inner) _ hx rfl

/-! ### Nodes before edges -/

theorem pair_sublist {α : Type} {l l' : List α} {a b : α} (ha : a ∈ l) (hb : b ∈ l') :
    [a, b].Sublist (l ++ l') :=
  (List.singleton_sublist.2 ha).append (List.singleton_sublist.2 hb)

/-- The nodes in a subgraph or in those inside of it come before its edges. -/
theorem node_before_edge {q : List Nat} (hid : ⟨q, .node id⟩ ∈ s.placed) (hi : i ∈ s.edgeIndices) :
    [⟨q, .node id⟩, ⟨[], .edge i⟩].Sublist s.placed := by
  rw [placed_eq, placedIn] at hid ⊢
  refine pair_sublist ((List.mem_append.1 hid).resolve_right ?_) ?_
  · simp [Subgraph.bottom]
  · simp [Subgraph.bottom, hi]

/-- The nodes of a graph come before its edges that were made in no subgraph. -/
theorem node_before_looseEdge {q : List Nat} (hid : ⟨q, .node id⟩ ∈ g.placed)
    (hi : i ∈ g.looseIndices) : [⟨q, .node id⟩, ⟨[], .edge i⟩].Sublist g.placed := by
  rw [placed, placedIn, bottom, List.map_append, ← List.append_assoc] at hid ⊢
  refine pair_sublist ((List.mem_append.1 hid).resolve_right ?_) ?_
  · simp
  · simp [hi]

theorem exists_placed {n : Node} (hn : n ∈ g.nodes) :
    ∃ p, ⟨p, .node n.id⟩ ∈ g.placed := by
  by_cases declared : ∃ q s, g.subgraphAt? q = some s ∧ n.id ∈ s.nodeIds
  · obtain ⟨q, s, hs⟩ := declared
    exact ⟨q, mem_placed_node.2 (.inl ⟨s, hs⟩)⟩
  · refine ⟨[], mem_placed_node.2 (.inr ⟨rfl, List.mem_map_of_mem hn, fun q s hs hid => ?_⟩)⟩
    exact declared ⟨q, s, hs, hid⟩

theorem Consistent.ends_before (h : g.Consistent) {e : Edge} (hp : ⟨p, .edge i⟩ ∈ g.placed)
    (he : g.edges[i]? = some e) (hid : id ∈ e.ends) :
    ∃ q, p <+: q ∧ [⟨q, .node id⟩, ⟨p, .edge i⟩].Sublist g.placed := by
  rcases mem_placed_edge.1 hp with ⟨s, hs, hi⟩ | ⟨rfl, loose⟩
  · -- The ends are declared in the subgraph or in one inside of it.
    have ends := (h.subgraphs s (mem_forest_iff_subgraphAt?.2 ⟨p, hs⟩)).ends e
      (mem_subgraphEdges.2 ⟨i, hi, he⟩)
    have contains : s.containsNode id = true := by
      rcases Edge.mem_ends.1 hid with rfl | rfl
      · exact ends.1
      · exact ends.2
    obtain ⟨t, ht, hidt⟩ := (containsNode_iff id s).1 contains
    obtain ⟨q, hq⟩ := (mem_tree_iff_at? s).1 ht
    have node : ⟨q, .node id⟩ ∈ s.placed := mem_placed.2 ⟨t, hq, node_mem_subgraph.2 hidt⟩
    have pair := (node_before_edge node hi).map (Placed.under p)
    simp only [List.map_cons, List.map_nil, Placed.under, List.append_nil] at pair
    exact ⟨p ++ q, List.prefix_append p q, pair.trans (map_under_infix_placed hs).sublist⟩
  · -- The ends are nodes, and each of them has a line.
    obtain ⟨htail, hhead⟩ := h.ends e (Array.mem_of_getElem? he)
    have node : id ∈ g.nodes.map Node.id := by
      rcases Edge.mem_ends.1 hid with rfl | rfl
      · exact htail
      · exact hhead
    obtain ⟨n, hn, rfl⟩ := List.mem_map.1 node
    obtain ⟨q, hq⟩ := exists_placed hn
    exact ⟨q, List.nil_prefix, node_before_looseEdge hq (mem_looseIndices.2 loose)⟩

/-- In every graph that can be reached, nothing is left out and nothing is written twice. -/
theorem Reachable.writtenOnce (h : g.Reachable) : g.WrittenOnce where
  lines := h.consistent.map_line?_placed
  printed := h.consistent.print_eq
  node_line _ _ := h.consistent.node_line
  edge_line _ _ := h.consistent.edge_line
  nodup := h.consistent.nodup_placed
  edges := by
    rw [filterMap_edge?_placed]
    exact listing_perm h.wellFormed
  edge_iff _ _ := mem_placed_edge
  node_iff _ _ := mem_placed_node
  nodes _ hn := exists_placed hn
  opening_iff _ _ := mem_placed_opening
  closing_iff _ := mem_placed_closing
  blocks _ _ hs := h.consistent.blocks hs
  ends _ _ _ hp he _ hid := h.consistent.ends_before hp he hid

/-- A subgraph inside of another one, with a node in both and edges in both and outside. -/
theorem nested_writtenOnce : ∃ g : Graph, g.Reachable ∧
    g.placed =
      [⟨[0], .opening (some "outer")⟩, ⟨[0], .node "a"⟩,
        ⟨[0, 0], .opening none⟩, ⟨[0, 0], .node "a"⟩, ⟨[0, 0], .node "b"⟩, ⟨[0, 0], .edge 1⟩,
        ⟨[0, 0], .closing⟩, ⟨[0], .edge 2⟩, ⟨[0], .closing⟩,
        ⟨[], .node "c"⟩, ⟨[], .edge 0⟩] ∧ g.WrittenOnce := by
  let g : Graph := (({} : Graph).addEdge "a" "c" []).subgraph "outer" fun b =>
    ((b.addNode ⟨"a", ∅⟩).subgraph "" fun c => c.addEdge "a" "b" []).addEdge "b" "a" []
  have reachable : g.Reachable :=
    .subgraph _ _ (.addEdge _ _ _ (.new false))
      (.addEdge _ _ _ (.subgraph _ _ (.addNode _ (.refl _)) (.addEdge _ _ _ (.refl _))))
  exact ⟨g, reachable, by decide +kernel, reachable.writtenOnce⟩

end Graph

end DotLang
