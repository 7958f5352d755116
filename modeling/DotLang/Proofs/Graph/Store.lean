import DotLang.Proofs.Graph.Blocks
import DotLang.Proofs.Syntax.Acceptance

/-!
# The store of a document

Nodes, edges and the attributes for those to come belong to the whole document,
whatever braces they are written in. They are changed by the acts of a document in
turn, each of which looks at nothing else.

* `Store`, `Act.apply`: what belongs to the whole document, and what acts do to it;
* `Document.store_before`: the store at every moment of a document;
* `Document.Checked.accepted`: all assignments of a document that is accepted succeed.
-/

namespace DotLang

/-- What belongs to a whole document and to no block of it. -/
structure Store where
  nodeDefaults : Attributes .node := ∅
  edgeDefaults : Attributes .edge := ∅
  nodeMap : NodeMap := ∅
  edges : Array Edge := #[]

/-- The nodes and edges of a graph, and the attributes for those to come. -/
def Graph.store (g : Graph) : Store where
  nodeDefaults := g.nodeDefaults
  edgeDefaults := g.edgeDefaults
  nodeMap := g.nodeMap
  edges := g.edges

/-- The effect of an act on the store. A chain only appends its edges. -/
def Act.apply : Act → Store → Store
  | .mention id, t => { t with nodeMap := t.nodeMap.declare id t.nodeDefaults }
  | .describe id pairs, t =>
    let attrs := (∅ : Attributes .node).assignAll pairs
    { t with nodeMap := t.nodeMap.modify id (·.merge attrs) }
  | .assign .nodes pairs, t => { t with nodeDefaults := t.nodeDefaults.assignAll pairs }
  | .assign .edges pairs, t => { t with edgeDefaults := t.edgeDefaults.assignAll pairs }
  | .assign .scope _, t => t
  | .enter _, t => t
  | .leave, t => t
  | .connect ends pairs, t =>
    { t with edges := t.edges ++ (Scope.chainEdges t.edgeDefaults ends pairs).toArray }

namespace Store

/-- What acts make of a store. -/
def after (t : Store) (acts : List Act) : Store := acts.foldl (fun t a => a.apply t) t

@[simp] theorem after_nil (t : Store) : t.after [] = t := rfl

@[simp] theorem after_cons (t : Store) (a : Act) (acts : List Act) :
    t.after (a :: acts) = (a.apply t).after acts :=
  rfl

@[simp] theorem after_append (t : Store) (acts more : List Act) :
    t.after (acts ++ more) = (t.after acts).after more :=
  List.foldl_append

end Store

/-- What an act assigns to a target. -/
def Act.assigned (target : Target) : Act → Assignments
  | .assign t pairs => if t = target then pairs else []
  | _ => []

namespace Store

variable (t : Store) (a : Act) (acts : List Act)

theorem nodeDefaults_apply :
    (a.apply t).nodeDefaults = t.nodeDefaults.assignAll (a.assigned .nodes) := by
  cases a with
  | assign target pairs => cases target <;> rfl
  | _ => rfl

theorem edgeDefaults_apply :
    (a.apply t).edgeDefaults = t.edgeDefaults.assignAll (a.assigned .edges) := by
  cases a with
  | assign target pairs => cases target <;> rfl
  | _ => rfl

/-- The attributes for nodes to come are those that have been assigned to them. -/
theorem nodeDefaults_after : (t.after acts).nodeDefaults =
    t.nodeDefaults.assignAll (acts.flatMap (Act.assigned .nodes)) := by
  induction acts generalizing t with
  | nil => rfl
  | cons a acts ih =>
    rw [after_cons, ih, nodeDefaults_apply, List.flatMap_cons, Attributes.assignAll_append]

/-- The attributes for edges to come are those that have been assigned to them. -/
theorem edgeDefaults_after : (t.after acts).edgeDefaults =
    t.edgeDefaults.assignAll (acts.flatMap (Act.assigned .edges)) := by
  induction acts generalizing t with
  | nil => rfl
  | cons a acts ih =>
    rw [after_cons, ih, edgeDefaults_apply, List.flatMap_cons, Attributes.assignAll_append]

end Store

/-! ### The store at every moment -/

namespace Scope

/-- When the edges of a chain are made, the nodes that its sides stand for are present. -/
theorem present_after (s : Scope) {before : List Act} {ends : List Endpoint}
    (h : actsEnds ends <:+ before) :
    ∀ e ∈ ends, ∀ id ∈ e.ids, (s.after before).Present id := by
  obtain ⟨earlier, rfl⟩ := h
  rw [after_append, ← runEnds_eq]
  exact (runEnds_puts ends (s.after earlier)).present

/-- An act that makes no edges does to the store what it does to a scope. -/
theorem store_run (s : Scope) {a : Act} (ha : ∀ ends pairs, a ≠ .connect ends pairs) :
    (a.run s).graph.store = a.apply s.graph.store := by
  obtain ⟨g, opened⟩ := s
  match a with
  | .mention id => cases opened <;> rfl
  | .describe id pairs => rfl
  | .assign target pairs => cases target <;> cases opened <;> rfl
  | .enter name => rfl
  | .leave =>
    match opened with
    | [] => rfl
    | [sub] => rfl
    | sub :: parent :: outer => rfl
  | .connect ends pairs => exact absurd rfl (ha ends pairs)

/-- Acts do to the store what they do to a scope, whatever subgraphs are open, if the sides
    of every chain take effect before its edges are made. -/
theorem store_after (s : Scope) {acts : List Act} (h : Prepared acts) :
    (s.after acts).graph.store = s.graph.store.after acts := by
  -- What comes before a chain is at the beginning, so the induction is on the end.
  induction acts using List.reverseRecOn with
  | nil => rfl
  | append_singleton acts a ih =>
    have before := ih h.left
    rw [after_append, Store.after_append, ← before]
    by_cases ha : ∃ ends pairs, a = .connect ends pairs
    · obtain ⟨ends, pairs, rfl⟩ := ha
      have present := s.present_after (h acts (.connect ends pairs) [] rfl)
      show ((s.after acts).connectChain ends pairs).graph.store = _
      rw [connectChain_eq present]
      rfl
    · exact (s.after acts).store_run fun ends pairs heq => ha ⟨ends, pairs, heq⟩

end Scope

namespace Document

variable {d : Document} {before after : List Act}

/-- The store at every moment of a document. -/
theorem store_before (h : d.acts = before ++ after) :
    (d.start.after before).graph.store = Store.after {} before :=
  d.start.store_after (Prepared.left (h ▸ d.prepared))

/-- The store of the graph of a document. -/
theorem store_toGraph (d : Document) : d.toGraph.store = Store.after {} d.acts := by
  rw [toGraph_eq]
  exact store_before (List.append_nil d.acts).symm

end Document

/-! ### Assignments that succeed -/

/-- Whether a text can be assigned to a key does not depend on the set. -/
theorem Attributes.exists_set {o : Owner} {key text : String} {b : Attributes o}
    (h : (∅ : Attributes o).set key text = .ok b) (a : Attributes o) :
    ∃ c, a.set key text = .ok c := by
  cases ht : o.typeOf? key with
  | none => exact ⟨_, set_of_unknown ht a text⟩
  | some t =>
    rcases set_of_known ht a text with ⟨v, hv, -, hset⟩ | ⟨m, hm, -⟩
    · exact ⟨_, hset⟩
    · rcases set_of_known ht ∅ text with ⟨v, hv, hread, -⟩ | ⟨m', -, hset⟩
      · rw [hm] at hread
        cases hread
      · rw [h] at hset
        cases hset

/-- Texts that are accepted are assigned, all of them. -/
theorem Owner.Accepts.setAll_eq {o : Owner} {pairs : Assignments} (h : o.Accepts pairs)
    (a : Attributes o) : a.setAll pairs = .ok (a.assignAll pairs) := by
  refine Attributes.setAll_eq_of_forall (fun pair hp c => ?_) a
  obtain ⟨b, hb⟩ := h pair hp
  exact Attributes.exists_set hb c

/-- The assignments of an act to nodes and edges, or to those to come, succeed. -/
def Act.Accepted : Act → Prop
  | .describe _ pairs => Owner.node.Accepts pairs
  | .assign .nodes pairs => Owner.node.Accepts pairs
  | .assign .edges pairs => Owner.edge.Accepts pairs
  | .connect _ pairs => Owner.edge.Accepts pairs
  | _ => True

mutual

theorem Endpoint.Checked.accepted :
    (e : Endpoint) → e.Checked Owner.Accepts → ∀ a ∈ e.acts, a.Accepted
  | .node ref, _ => by
    simp [Endpoint.acts, Act.Accepted]
  | .subgraph name body, h => by
    rw [Endpoint.Checked] at h
    simpa [Endpoint.acts, or_imp, forall_and, Act.Accepted] using CheckedAll.accepted body h

theorem Stmt.Checked.accepted {nested : Bool} : (stmt : Stmt) →
    stmt.Checked Owner.Accepts nested → ∀ a ∈ stmt.acts, a.Accepted
  | .attributes target pairs, h => by
    rw [Stmt.Checked] at h
    rw [Stmt.acts, List.forall_mem_singleton]
    cases target with
    | scope => trivial
    | nodes => exact h
    | edges => exact h
  | .node ref pairs, h => by
    rw [Stmt.Checked] at h
    simpa [Stmt.acts, Act.Accepted] using h
  | .subgraph name body, h => by
    rw [Stmt.Checked] at h
    simpa [Stmt.acts, or_imp, forall_and, Act.Accepted] using CheckedAll.accepted body h
  | .edge ends pairs, h => by
    rw [Stmt.Checked] at h
    simpa [Stmt.acts, or_imp, forall_and, Act.Accepted, h.2] using CheckedEnds.accepted ends h.1

theorem CheckedAll.accepted {nested : Bool} : (body : List Stmt) →
    CheckedAll Owner.Accepts nested body → ∀ a ∈ actsAll body, a.Accepted
  | [], _ => by
    simp [actsAll]
  | stmt :: body, h => by
    rw [CheckedAll] at h
    rw [actsAll, List.forall_mem_append]
    exact ⟨Stmt.Checked.accepted stmt h.1, CheckedAll.accepted body h.2⟩

theorem CheckedEnds.accepted : (ends : List Endpoint) →
    CheckedEnds Owner.Accepts ends → ∀ a ∈ actsEnds ends, a.Accepted
  | [], _ => by
    simp [actsEnds]
  | e :: ends, h => by
    rw [CheckedEnds] at h
    rw [actsEnds, List.forall_mem_append]
    exact ⟨Endpoint.Checked.accepted e h.1, CheckedEnds.accepted ends h.2⟩

end

/-- All assignments of an accepted document succeed. -/
theorem Document.Checked.accepted {d : Document} (h : d.Checked Owner.Accepts) :
    ∀ a ∈ d.acts, a.Accepted :=
  CheckedAll.accepted d.body h

/-- What has been assigned to nodes and to edges to come, at every moment of an accepted
    document: all the texts of the statements so far, in their order. -/
theorem Document.Checked.defaults {d : Document} (h : d.Checked Owner.Accepts)
    {before after : List Act} (heq : d.acts = before ++ after) :
    (∅ : Attributes .node).setAll (before.flatMap (Act.assigned .nodes)) =
        .ok (d.start.after before).graph.nodeDefaults ∧
      (∅ : Attributes .edge).setAll (before.flatMap (Act.assigned .edges)) =
        .ok (d.start.after before).graph.edgeDefaults := by
  have accepted : ∀ a ∈ before, a.Accepted := by
    intro a ha
    exact h.accepted a (by rw [heq]; exact List.mem_append_left _ ha)
  have nodes : Owner.node.Accepts (before.flatMap (Act.assigned .nodes)) := by
    intro pair hpair
    obtain ⟨a, ha, hpair⟩ := List.mem_flatMap.1 hpair
    match a with
    | .assign .nodes pairs => exact accepted _ ha pair hpair
  have edges : Owner.edge.Accepts (before.flatMap (Act.assigned .edges)) := by
    intro pair hpair
    obtain ⟨a, ha, hpair⟩ := List.mem_flatMap.1 hpair
    match a with
    | .assign .edges pairs => exact accepted _ ha pair hpair
  have store := store_before heq
  rw [nodes.setAll_eq, edges.setAll_eq]
  constructor
  · exact congrArg Except.ok ((congrArg Store.nodeDefaults store).trans
      (Store.nodeDefaults_after {} before)).symm
  · exact congrArg Except.ok ((congrArg Store.edgeDefaults store).trans
      (Store.edgeDefaults_after {} before)).symm

end DotLang
