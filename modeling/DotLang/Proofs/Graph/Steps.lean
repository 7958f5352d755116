import DotLang.Proofs.Graph.Blocks
import Mathlib.Logic.Relation

/-!
# Steps of graphs

Reading a document and building a graph come down to the same few steps, taken by a
graph and the subgraphs that are open. A subgraph that is built inside of another is
open while it is built, like one whose braces are read. What every step keeps is
therefore true of all graphs that can be reached.

* `Scope.Step`, `Scope.Steps`: a step, and any number of them;
* `Builder.Builds.steps`, `Document.steps`: building and reading take steps;
* `Graph.Reachable.steps`: so every graph that can be reached is reached by steps from
  the empty graph;
* `Graph.Reachable.modifySubgraph`: changing the attributes of a subgraph that has just
  been built leads to no other graphs.
-/

namespace DotLang

namespace Scope

/-- A step of a graph on the way. -/
inductive Step : Scope → Scope → Prop
  /-- The header, the attributes and the defaults of the graph change. -/
  | settings {g g' : Graph} (opened : List Subgraph) : g'.nodeMap = g.nodeMap →
      g'.edges = g.edges → g'.subgraphs = g.subgraphs → Step ⟨g, opened⟩ ⟨g', opened⟩
  /-- A node is added, or takes the place of another. -/
  | addNode (s : Scope) (n : Node) : Step s (s.act (·.addNode n) (·.addNode n))
  /-- A node is mentioned. -/
  | declare (s : Scope) (id : String) : Step s (s.declare id)
  /-- An edge is added. -/
  | connect (s : Scope) (tail head : String) (templates : List (Attributes .edge)) :
      Step s (s.connect tail head templates)
  /-- The attributes of a node change. -/
  | modifyNode (s : Scope) (id : String) (f : Attributes .node → Attributes .node) :
      Step s { s with graph := s.graph.modifyNode id f }
  /-- The attributes of an edge change. -/
  | modifyEdge (s : Scope) (index : Nat) (f : Attributes .edge → Attributes .edge) :
      Step s { s with graph := s.graph.modifyEdge index f }
  /-- The attributes of the innermost open subgraph change. -/
  | modifyAttrs (g : Graph) (sub : Subgraph) (outer : List Subgraph)
      (attrs : Attributes .subgraph) : Step ⟨g, sub :: outer⟩ ⟨g, { sub with attrs } :: outer⟩
  /-- A subgraph is opened. -/
  | enter (s : Scope) (name : String) : Step s (s.enter name)
  /-- The innermost open subgraph is closed. -/
  | leave (s : Scope) : Step s s.leave

/-- Any number of steps. -/
def Steps : Scope → Scope → Prop := Relation.ReflTransGen Step

variable {s s' s'' : Scope}

theorem Steps.refl (s : Scope) : Steps s s := Relation.ReflTransGen.refl

theorem Steps.trans (h : Steps s s') (h' : Steps s' s'') : Steps s s'' :=
  Relation.ReflTransGen.trans h h'

theorem Steps.tail (h : Steps s s') (h' : Step s' s'') : Steps s s'' :=
  Relation.ReflTransGen.tail h h'

theorem Step.steps (h : Step s s') : Steps s s' := Relation.ReflTransGen.single h

/-- What every step keeps, any number of steps keeps. -/
theorem Steps.keeps {P : Scope → Prop} (hP : ∀ s s', P s → Step s s' → P s') (h : Steps s s')
    (hs : P s) : P s' := by
  induction h with
  | refl => exact hs
  | tail _ step ih => exact hP _ _ ih step

/-! ### Reading -/

/-- Assignments take a step. -/
theorem step_assign (s : Scope) (pairs : Assignments) (target : Target) :
    Step s (s.assign pairs target) := by
  obtain ⟨g, opened⟩ := s
  cases target with
  | nodes => exact .settings opened rfl rfl rfl
  | edges => exact .settings opened rfl rfl rfl
  | scope =>
    cases opened with
    | nil => exact .settings [] rfl rfl rfl
    | cons sub outer => exact .modifyAttrs g sub outer _

/-- Every operation of a document takes a step. -/
theorem kept_steps (s : Scope) : Kept (Steps s) where
  declare id h := h.tail (.declare _ id)
  mergeNode id _ h := h.tail (.modifyNode _ id _)
  connect tail head _ _ _ h := h.tail (.connect _ tail head _)
  assign pairs target h := h.tail (step_assign _ pairs target)
  enter name h := h.tail (.enter _ name)
  leave h := h.tail (.leave _)

/-- All subgraphs that statements open they close. -/
theorem Puts.opened_eq_nil {c : Contents} {n : Nat} (h : s.Puts c n s') (hs : s.opened = []) :
    s'.opened = [] := by
  obtain ⟨g, -, -, -, rfl⟩ := h
  rw [hs]
  rfl

end Scope

open Scope in
/-- A document is read in steps. -/
theorem Document.steps (d : Document) : Steps { graph := {} } { graph := d.toGraph } := by
  have header : Step { graph := {} } d.start := .settings [] rfl rfl rfl
  have body : Steps d.start (runAll d.body d.start) :=
    (kept_steps d.start).runAll d.body d.start (.refl d.start)
  have closed : runAll d.body d.start = { graph := d.toGraph } :=
    congrArg (Scope.mk d.toGraph) ((runAll_puts d.body d.start).opened_eq_nil rfl)
  rw [closed] at body
  exact header.steps.trans body

/-! ### Building -/

open Scope in
/-- A subgraph is built in steps, whatever subgraphs it is in. -/
theorem Builder.Builds.steps {b c : Builder} (h : b.Builds c) (outer : List Subgraph) :
    Steps ⟨b.graph, b.sub :: outer⟩ ⟨c.graph, c.sub :: outer⟩ := by
  induction h generalizing outer with
  | refl b => exact .refl _
  | addNode n _ ih => exact (ih outer).tail (.addNode _ n)
  | addEdge tail head templates _ ih => exact (ih outer).tail (.connect _ tail head templates)
  | modifyAttrs f _ ih => exact (ih outer).tail (.modifyAttrs _ _ outer _)
  | modifyNode id f _ ih => exact (ih outer).tail (.modifyNode _ id f)
  | modifyEdge index f _ ih => exact (ih outer).tail (.modifyEdge _ index f)
  | @subgraph b c name build _ _ ih ihInner =>
    -- The subgraph inside is open while it is built.
    have inner := ((ih outer).tail (.enter _ name)).trans (ihInner (c.sub :: outer))
    exact inner.tail (.leave _)

open Scope in
/-- Every graph that can be reached is reached by steps from the empty graph. -/
theorem Graph.Reachable.steps {g : Graph} (h : g.Reachable) :
    Steps { graph := {} } { graph := g } := by
  induction h with
  | new directed => exact (Steps.refl _).tail (.settings [] rfl rfl rfl)
  | ofText h =>
    obtain ⟨d, rfl⟩ := exists_toGraph_eq h
    exact d.steps
  | setHeader _ _ _ _ ih => exact ih.tail (.settings [] rfl rfl rfl)
  | setAttrs _ _ ih => exact ih.tail (.settings [] rfl rfl rfl)
  | setNodeDefaults _ _ ih => exact ih.tail (.settings [] rfl rfl rfl)
  | setEdgeDefaults _ _ ih => exact ih.tail (.settings [] rfl rfl rfl)
  | addNode n _ ih => exact ih.tail (.addNode _ n)
  | addEdge tail head templates _ ih => exact ih.tail (.connect _ tail head templates)
  | modifyNode id f _ ih => exact ih.tail (.modifyNode _ id f)
  | modifyEdge index f _ ih => exact ih.tail (.modifyEdge _ index f)
  | subgraph name build _ hbuild ih =>
    exact ((ih.tail (.enter _ name)).trans (hbuild.steps [])).tail (.leave _)

/-! ### Subgraphs that have been built -/

/-- Changing the attributes of a subgraph right after it has been built inside of another is
    building it with other attributes. -/
theorem Builder.Builds.modifySubgraph {b c : Builder} (h : b.Builds c) (name : String)
    {build : Builder → Builder}
    (hbuild : Builds (.start c.graph name) (build (.start c.graph name)))
    (f : Attributes .subgraph → Attributes .subgraph) :
    let child := build (.start c.graph name)
    c.subgraph name build = ⟨child.graph, c.sub.addChild child.sub⟩ ∧
      Builds b ⟨child.graph, c.sub.addChild { child.sub with attrs := f child.sub.attrs }⟩ :=
  ⟨rfl, .subgraph name (fun b => (build b).modifyAttrs f) h (.modifyAttrs f hbuild)⟩

/-- Changing the attributes of a subgraph of a graph right after it has been built is
    building it with other attributes. -/
theorem Graph.Reachable.modifySubgraph {g : Graph} (h : g.Reachable) (name : String)
    {build : Builder → Builder} (hbuild : Builder.Builds (.start g name) (build (.start g name)))
    (f : Attributes .subgraph → Attributes .subgraph) :
    let child := build (.start g name)
    g.subgraph name build = child.graph.attach child.sub ∧
      Reachable (child.graph.attach { child.sub with attrs := f child.sub.attrs }) :=
  ⟨rfl, .subgraph name (fun b => (build b).modifyAttrs f) h (.modifyAttrs f hbuild)⟩

end DotLang
