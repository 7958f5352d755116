import DotLang.Listing.Lines

/-!
# All subgraphs of a tree

Subgraphs stand inside of subgraphs. What holds at every depth is said of the list
of all of them, in the order in which they end.

* `Subgraph.forest`: some subgraphs and all those inside of them;
* `Subgraph.containsNode_iff`, `Subgraph.recordsEdge_iff`: a node is declared, or
  an edge was made, in one of them.
-/

namespace DotLang

namespace Subgraph

mutual

/-- A subgraph and those inside of it, which come first. -/
def tree : Subgraph → List Subgraph
  | ⟨name, attrs, nodeIds, edgeIndices, children⟩ =>
    forest children ++ [⟨name, attrs, nodeIds, edgeIndices, children⟩]

/-- Subgraphs and those inside of them. -/
def forest : List Subgraph → List Subgraph
  | [] => []
  | s :: subs => s.tree ++ forest subs

end

variable {s t : Subgraph} {subs : List Subgraph}

theorem tree_eq (s : Subgraph) : s.tree = forest s.children ++ [s] := by
  obtain ⟨name, attrs, nodeIds, edgeIndices, children⟩ := s
  rw [tree]

@[simp] theorem forest_nil : forest [] = [] := by
  rw [forest]

@[simp] theorem forest_cons (s : Subgraph) (subs : List Subgraph) :
    forest (s :: subs) = s.tree ++ forest subs := by
  rw [forest]

@[simp] theorem forest_append (subs others : List Subgraph) :
    forest (subs ++ others) = forest subs ++ forest others := by
  induction subs with
  | nil => rw [forest_nil, List.nil_append, List.nil_append]
  | cons s subs ih => rw [List.cons_append, forest_cons, forest_cons, ih, List.append_assoc]

/-- What is true of all subgraphs of a tree. -/
theorem forall_tree {Q : Subgraph → Prop} :
    (∀ t ∈ s.tree, Q t) ↔ (∀ t ∈ forest s.children, Q t) ∧ Q s := by
  rw [tree_eq, List.forall_mem_append, List.forall_mem_singleton]

theorem forall_forest_nil {Q : Subgraph → Prop} : ∀ t ∈ forest [], Q t := by
  rw [forest_nil]
  nofun

theorem forall_forest_cons {Q : Subgraph → Prop} :
    (∀ t ∈ forest (s :: subs), Q t) ↔ (∀ t ∈ s.tree, Q t) ∧ ∀ t ∈ forest subs, Q t := by
  rw [forest_cons, List.forall_mem_append]

theorem mem_tree : t ∈ s.tree ↔ t ∈ forest s.children ∨ t = s := by
  rw [tree_eq, List.mem_append, List.mem_singleton]

theorem mem_tree_self (s : Subgraph) : s ∈ s.tree :=
  mem_tree.2 (.inr rfl)

mutual

/-- What is inside of a subgraph of a tree is in the tree. -/
theorem mem_tree_trans {t u : Subgraph} : (s : Subgraph) → t ∈ s.tree → u ∈ t.tree → u ∈ s.tree
  | ⟨name, attrs, nodeIds, edgeIndices, children⟩, ht, hu => by
    rcases mem_tree.1 ht with ht | rfl
    · exact mem_tree.2 (.inl (mem_forest_trans children ht hu))
    · exact hu

theorem mem_forest_trans {t u : Subgraph} :
    (subs : List Subgraph) → t ∈ forest subs → u ∈ t.tree → u ∈ forest subs
  | [], ht, _ => by
    rw [forest_nil] at ht
    cases ht
  | s :: subs, ht, hu => by
    rw [forest_cons, List.mem_append] at ht ⊢
    exact ht.imp (fun ht => mem_tree_trans s ht hu) fun ht => mem_forest_trans subs ht hu

end

section

variable {Q : Subgraph → Prop} {outer : List Subgraph} {s' parent : Subgraph}

/-- A subgraph among others may change in itself. -/
theorem forall_forest_change (h : ∀ t ∈ forest (subs ++ s :: outer), Q t)
    (hc : s'.children = s.children) (hs : Q s') : ∀ t ∈ forest (subs ++ s' :: outer), Q t := by
  rw [forest_append, List.forall_mem_append, forall_forest_cons, forall_tree] at h ⊢
  rw [hc]
  exact ⟨h.1, ⟨h.2.1.1, hs⟩, h.2.2⟩

/-- A subgraph without others inside may come between subgraphs. -/
theorem forall_forest_insert (h : ∀ t ∈ forest (subs ++ outer), Q t) (hc : s.children = [])
    (hs : Q s) : ∀ t ∈ forest (subs ++ s :: outer), Q t := by
  rw [forest_append, List.forall_mem_append] at h ⊢
  rw [forall_forest_cons, forall_tree, hc]
  exact ⟨h.1, ⟨forall_forest_nil, hs⟩, h.2⟩

/-- A subgraph may go inside of the next one. -/
theorem forall_forest_addChild (h : ∀ t ∈ forest (subs ++ s :: parent :: outer), Q t)
    (hp : Q (parent.addChild s)) : ∀ t ∈ forest (subs ++ parent.addChild s :: outer), Q t := by
  have hc : (parent.addChild s).children = parent.children ++ [s] := rfl
  rw [forest_append, List.forall_mem_append, forall_forest_cons, forall_forest_cons] at h
  obtain ⟨hsubs, hs, hparent, houter⟩ := h
  rw [forest_append, List.forall_mem_append, forall_forest_cons, forall_tree, hc, forest_append,
    List.forall_mem_append, forall_forest_cons]
  exact ⟨hsubs, ⟨⟨(forall_tree.1 hparent).1, hs, forall_forest_nil⟩, hp⟩, houter⟩

end

/-! ### Nodes and edges of a tree -/

mutual

/-- A node is in a subgraph if it is declared somewhere in its tree. -/
theorem containsNode_iff (id : String) :
    (s : Subgraph) → (s.containsNode id = true ↔ ∃ t ∈ s.tree, id ∈ t.nodeIds)
  | ⟨name, attrs, nodeIds, edgeIndices, children⟩ => by
    rw [containsNode, Bool.or_eq_true, anyContainsNode_iff id children, tree_eq]
    simp only [List.mem_append, List.mem_singleton, or_and_right, exists_or, exists_eq_left,
      Array.contains_iff_mem]
    exact or_comm

theorem anyContainsNode_iff (id : String) :
    (subs : List Subgraph) →
      (anyContainsNode id subs = true ↔ ∃ t ∈ forest subs, id ∈ t.nodeIds)
  | [] => by simp [anyContainsNode]
  | s :: subs => by
    rw [anyContainsNode, Bool.or_eq_true, containsNode_iff id s, anyContainsNode_iff id subs]
    simp only [forest_cons, List.mem_append, or_and_right, exists_or]

end

mutual

/-- An edge is recorded by a subgraph if it was made somewhere in its tree. -/
theorem recordsEdge_iff (index : Nat) :
    (s : Subgraph) → (s.recordsEdge index = true ↔ ∃ t ∈ s.tree, index ∈ t.edgeIndices)
  | ⟨name, attrs, nodeIds, edgeIndices, children⟩ => by
    rw [recordsEdge, Bool.or_eq_true, anyRecordsEdge_iff index children, tree_eq]
    simp only [List.mem_append, List.mem_singleton, or_and_right, exists_or, exists_eq_left,
      Array.contains_iff_mem]
    exact or_comm

theorem anyRecordsEdge_iff (index : Nat) :
    (subs : List Subgraph) →
      (anyRecordsEdge index subs = true ↔ ∃ t ∈ forest subs, index ∈ t.edgeIndices)
  | [] => by simp [anyRecordsEdge]
  | s :: subs => by
    rw [anyRecordsEdge, Bool.or_eq_true, recordsEdge_iff index s, anyRecordsEdge_iff index subs]
    simp only [forest_cons, List.mem_append, or_and_right, exists_or]

end

/-- The edges made in subgraphs and those inside of them, in the order in which the
    subgraphs end. -/
def recorded (subs : List Subgraph) : List Nat :=
  (forest subs).flatMap fun s => s.edgeIndices.toList

theorem mem_recorded {index : Nat} :
    index ∈ recorded subs ↔ ∃ t ∈ forest subs, index ∈ t.edgeIndices := by
  simp [recorded]

@[simp] theorem recorded_nil : recorded [] = [] := by
  rw [recorded, forest_nil, List.flatMap_nil]

@[simp] theorem recorded_append (subs others : List Subgraph) :
    recorded (subs ++ others) = recorded subs ++ recorded others := by
  rw [recorded, forest_append, List.flatMap_append, recorded, recorded]

theorem recorded_cons (s : Subgraph) (subs : List Subgraph) :
    recorded (s :: subs) = recorded s.children ++ s.edgeIndices.toList ++ recorded subs := by
  simp [recorded, tree_eq]

/-- What the first subgraph has recorded comes first. -/
theorem recorded_cons_eq_append (s : Subgraph) (subs : List Subgraph) :
    recorded (s :: subs) = recorded [s] ++ recorded subs :=
  recorded_append [s] subs

end Subgraph

end DotLang
