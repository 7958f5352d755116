import DotLang.Proofs.Graph.Reachable

/-!
# The acts of a document

Statements stand inside of statements, and what they do they do in the order of the
text. The *acts* of a document are the things that its statements do, one after the
other: a node is mentioned, attributes are assigned, a brace is opened or closed, the
edges of a chain are made. Applied in turn they make the graph of the document.

* `Act`, `Document.acts`: the acts of a document, in the order of its text;
* `Document.toGraph_eq`: the graph of a document is what its acts make;
* `Document.prepared`: a node is mentioned before it gets attributes, and all sides of a
  chain take effect before its edges are made, whatever stands in them.
-/

namespace DotLang

/-- Something that a statement does. -/
inductive Act where
  /-- A node is mentioned, by a statement or as a side of an edge operator. -/
  | mention (id : String)
  /-- A node gets the attributes of its statement. -/
  | describe (id : String) (pairs : Assignments)
  /-- Attributes are assigned, outside of a node or an edge. -/
  | assign (target : Target) (pairs : Assignments)
  /-- A subgraph is opened. -/
  | enter (name : String)
  /-- The innermost open subgraph is closed. -/
  | leave
  /-- The edges of a chain are made. -/
  | connect (ends : List Endpoint) (pairs : Assignments)

/-- The effect of an act. -/
def Act.run : Act → Scope → Scope
  | .mention id, s => s.declare id
  | .describe id pairs, s =>
    let attrs := (∅ : Attributes .node).assignAll pairs
    { s with graph := s.graph.modifyNode id (·.merge attrs) }
  | .assign target pairs, s => s.assign pairs target
  | .enter name, s => s.enter name
  | .leave, s => s.leave
  | .connect ends pairs, s => s.connectChain ends pairs

mutual

/-- What a side of an edge operator does. -/
def Endpoint.acts : Endpoint → List Act
  | .node ref => [.mention ref.id]
  | .subgraph name body => .enter name :: (actsAll body ++ [.leave])

/-- What a statement does. -/
def Stmt.acts : Stmt → List Act
  | .attributes target pairs => [.assign target pairs]
  | .node ref pairs => [.mention ref.id, .describe ref.id pairs]
  | .subgraph name body => .enter name :: (actsAll body ++ [.leave])
  | .edge ends pairs => actsEnds ends ++ [.connect ends pairs]

/-- What statements do, in their order. -/
def actsAll : List Stmt → List Act
  | [] => []
  | stmt :: body => stmt.acts ++ actsAll body

/-- What the sides of edge operators do, in their order. -/
def actsEnds : List Endpoint → List Act
  | [] => []
  | e :: ends => e.acts ++ actsEnds ends

end

/-- What the statements of a document do, in the order of its text. -/
def Document.acts (d : Document) : List Act := actsAll d.body

/-! ### Statements and their acts -/

namespace Scope

/-- What acts make of a graph on the way. -/
def after (s : Scope) (acts : List Act) : Scope := acts.foldl (fun s a => a.run s) s

@[simp] theorem after_nil (s : Scope) : s.after [] = s := rfl

@[simp] theorem after_cons (s : Scope) (a : Act) (acts : List Act) :
    s.after (a :: acts) = (a.run s).after acts :=
  rfl

@[simp] theorem after_append (s : Scope) (acts more : List Act) :
    s.after (acts ++ more) = (s.after acts).after more :=
  List.foldl_append

end Scope

mutual

theorem Endpoint.run_eq : (e : Endpoint) → (s : Scope) → e.run s = s.after e.acts
  | .node ref, s => by
    rw [Endpoint.run, Endpoint.acts]
    rfl
  | .subgraph name body, s => by
    rw [Endpoint.run, Endpoint.acts, runAll_eq body, Scope.after_cons, Scope.after_append]
    rfl

theorem Stmt.run_eq : (stmt : Stmt) → (s : Scope) → stmt.run s = s.after stmt.acts
  | .attributes target pairs, s => by
    rw [Stmt.run, Stmt.acts]
    rfl
  | .node ref pairs, s => by
    rw [Stmt.run, Stmt.acts]
    rfl
  | .subgraph name body, s => by
    rw [Stmt.run, Stmt.acts, runAll_eq body, Scope.after_cons, Scope.after_append]
    rfl
  | .edge ends pairs, s => by
    rw [Stmt.run, Stmt.acts, runEnds_eq ends, Scope.after_append]
    rfl

/-- Statements do what their acts do. -/
theorem runAll_eq : (body : List Stmt) → (s : Scope) → runAll body s = s.after (actsAll body)
  | [], s => by
    rw [runAll, actsAll, Scope.after_nil]
  | stmt :: body, s => by
    rw [runAll, actsAll, Scope.after_append, Stmt.run_eq stmt, runAll_eq body]

theorem runEnds_eq :
    (ends : List Endpoint) → (s : Scope) → runEnds ends s = s.after (actsEnds ends)
  | [], s => by
    rw [runEnds, actsEnds, Scope.after_nil]
  | e :: ends, s => by
    rw [runEnds, actsEnds, Scope.after_append, Endpoint.run_eq e, runEnds_eq ends]

end

/-- A document before its first statement. -/
def Document.start (d : Document) : Scope := { graph := d.header.toGraph }

/-- The graph of a document is what its acts make. -/
theorem Document.toGraph_eq (d : Document) : d.toGraph = (d.start.after d.acts).graph :=
  congrArg Scope.graph (runAll_eq d.body d.start)

namespace Scope

variable {P : Scope → Prop} {s : Scope}

/-- What every operation keeps, acts keep. -/
theorem Kept.act (hk : Kept P) (a : Act) (h : P s) : P (a.run s) :=
  match a with
  | .mention id => hk.declare id h
  | .describe id pairs => hk.mergeNode id pairs h
  | .assign target pairs => hk.assign pairs target h
  | .enter name => hk.enter name h
  | .leave => hk.leave h
  | .connect ends pairs => hk.connectChain ends pairs h

theorem Kept.after (hk : Kept P) (acts : List Act) (h : P s) : P (s.after acts) :=
  foldl (fun _ a h => hk.act a h) acts h

/-- No operation takes a node away. -/
theorem kept_hasNode (id : String) : Kept fun s => s.graph.hasNode id = true where
  declare {s} other h := by
    obtain ⟨g, opened⟩ := s
    cases opened <;> exact Graph.hasNode_declareNode.2 (.inr h)
  mergeNode other pairs h := by rwa [Graph.hasNode_modifyNode]
  connect {s} tail head l r pairs h := by
    obtain ⟨g, opened⟩ := s
    cases opened <;> exact Graph.hasNode_addEdge.2 (.inr (.inr h))
  assign {s} pairs target h := by
    obtain ⟨g, opened⟩ := s
    cases target <;> cases opened <;> exact h
  enter name h := h
  leave {s} h := by
    obtain ⟨g, opened⟩ := s
    match opened with
    | [] => exact h
    | [sub] => exact h
    | sub :: parent :: outer => exact h

/-- What has been mentioned is a node. -/
theorem hasNode_after {acts : List Act} {id : String} (h : .mention id ∈ acts) :
    (s.after acts).graph.hasNode id = true := by
  obtain ⟨before, more, rfl⟩ := List.append_of_mem h
  rw [after_append, after_cons]
  refine (kept_hasNode id).after more ?_
  obtain ⟨g, opened⟩ := s.after before
  cases opened <;> exact Graph.hasNode_declareNode.2 (.inl rfl)

end Scope

/-! ### What comes before an act -/

/-- What an act is done right behind: a node is mentioned before it gets attributes, and all
    sides of a chain take effect before its edges are made. -/
def Act.needs : Act → List Act
  | .describe id _ => [.mention id]
  | .connect ends _ => actsEnds ends
  | _ => []

/-- Every act is done right behind those that it needs. -/
def Prepared (acts : List Act) : Prop :=
  ∀ before a after, acts = before ++ a :: after → a.needs <:+ before

namespace Prepared

variable {acts more : List Act} {a : Act}

theorem nil : Prepared [] := by
  intro before a after heq
  cases before <;> cases heq

/-- The first acts need no more than all of them. -/
theorem left (h : Prepared (acts ++ more)) : Prepared acts := by
  rintro before a after rfl
  exact h before a (after ++ more) (by simp)

theorem append (h : Prepared acts) (h' : Prepared more) : Prepared (acts ++ more) := by
  intro before a after heq
  -- The act is among the first ones or among the later ones.
  rcases List.append_eq_append_iff.1 heq with ⟨mid, rfl, hmore⟩ | ⟨mid, hacts, hmid⟩
  · exact (h' mid a after hmore).trans (List.suffix_append acts mid)
  · cases mid with
    | nil =>
      have hnil : a.needs <:+ [] := h' [] a after hmid.symm
      exact hnil.trans List.nil_suffix
    | cons b mid =>
      obtain ⟨rfl, -⟩ := List.cons.inj hmid
      exact h before a mid hacts

/-- One more act can be done behind those that it needs. -/
theorem concat (h : Prepared acts) (ha : a.needs <:+ acts) : Prepared (acts ++ [a]) := by
  intro before b after heq
  rcases List.append_eq_append_iff.1 heq with ⟨mid, rfl, hlast⟩ | ⟨mid, hacts, hmid⟩
  · cases mid with
    | nil =>
      obtain ⟨rfl, -⟩ := List.cons.inj hlast
      rwa [List.append_nil]
    | cons c mid =>
      obtain ⟨-, hnil⟩ := List.cons.inj hlast
      cases mid <;> cases hnil
  · cases mid with
    | nil =>
      obtain ⟨rfl, -⟩ := List.cons.inj hmid
      rwa [hacts, List.append_nil] at ha
    | cons c mid =>
      obtain ⟨rfl, -⟩ := List.cons.inj hmid
      exact h before b mid hacts

/-- An act that needs nothing can be done anywhere. -/
theorem singleton (ha : a.needs = []) : Prepared [a] :=
  nil.concat (a := a) (ha ▸ List.nil_suffix)

/-- Braces need nothing around them. -/
theorem block (h : Prepared acts) (name : String) :
    Prepared (.enter name :: (acts ++ [.leave])) :=
  (singleton rfl).append (h.append (singleton rfl))

end Prepared

mutual

theorem Endpoint.prepared : (e : Endpoint) → Prepared e.acts
  | .node ref => by
    rw [Endpoint.acts]
    exact .singleton rfl
  | .subgraph name body => by
    rw [Endpoint.acts]
    exact (prepared_actsAll body).block name

theorem Stmt.prepared : (stmt : Stmt) → Prepared stmt.acts
  | .attributes target pairs => by
    rw [Stmt.acts]
    exact .singleton rfl
  | .node ref pairs => by
    rw [Stmt.acts]
    have mention : Prepared [.mention ref.id] := .singleton rfl
    exact mention.concat (a := .describe ref.id pairs) List.suffix_rfl
  | .subgraph name body => by
    rw [Stmt.acts]
    exact (prepared_actsAll body).block name
  | .edge ends pairs => by
    rw [Stmt.acts]
    exact (prepared_actsEnds ends).concat List.suffix_rfl

theorem prepared_actsAll : (body : List Stmt) → Prepared (actsAll body)
  | [] => by
    rw [actsAll]
    exact .nil
  | stmt :: body => by
    rw [actsAll]
    exact stmt.prepared.append (prepared_actsAll body)

theorem prepared_actsEnds : (ends : List Endpoint) → Prepared (actsEnds ends)
  | [] => by
    rw [actsEnds]
    exact .nil
  | e :: ends => by
    rw [actsEnds]
    exact e.prepared.append (prepared_actsEnds ends)

end

/-- In a document, every act is done right behind those that it needs. -/
theorem Document.prepared (d : Document) : Prepared d.acts :=
  prepared_actsAll d.body

end DotLang
