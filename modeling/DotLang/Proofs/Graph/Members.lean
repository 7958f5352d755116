import DotLang.Proofs.Listing.Replay
import Mathlib.Data.List.Induction

/-!
# Members of subgraphs

The members of a subgraph are the nodes declared in it and those declared inside of
it, each once. They are collected by adding one after the other, unless it is there.
So they stand in the order in which they come for the first time on a walk through the
tree, on which a subgraph is before those inside of it.

* `Subgraph.toList_foldl_addMember`: what is added to nothing, without repetitions;
* `Subgraph.mem_memberIds`: the members are the nodes that a subgraph contains;
* `Subgraph.preorder`, `Subgraph.declared`: the walk, and the nodes that come on it;
* `Subgraph.collectMembers_eq`: collecting members adds the nodes on the walk;
* `Subgraph.memberIds_listed`: what the list of the members says.
-/

namespace DotLang

namespace Subgraph

variable {id : String} {members : Array String}

theorem addMember_of_mem (h : id ∈ members) : addMember members id = members :=
  if_pos (Array.contains_iff_mem.2 h)

theorem addMember_of_not_mem (h : id ∉ members) : addMember members id = members.push id :=
  if_neg (mt Array.contains_iff_mem.1 h)

/-- Without repetitions, a list grows at its end by what has not come before. -/
theorem eraseDups_concat (first : List String) (id : String) : (first ++ [id]).eraseDups =
    if id ∈ first then first.eraseDups else first.eraseDups ++ [id] := by
  rw [List.eraseDups_append]
  split
  · next h => simp [List.removeAll, h]
  · next h => simp [List.removeAll, h, List.eraseDups_cons]

/-- Adding members to nothing leaves out what has come before. -/
theorem toList_foldl_addMember (ids : List String) :
    (ids.foldl addMember #[]).toList = ids.eraseDups := by
  -- The induction is on the end of the list, where it grows.
  induction ids using List.reverseRecOn with
  | nil => rfl
  | append_singleton first id ih =>
    have mem : id ∈ first.foldl addMember #[] ↔ id ∈ first := by simp [mem_foldl_addMember]
    rw [List.foldl_append, List.foldl_cons, List.foldl_nil, eraseDups_concat, ← ih]
    split
    · next h => rw [addMember_of_mem (mem.2 h)]
    · next h => rw [addMember_of_not_mem (mt mem.1 h), Array.toList_push]

/-- Members may be collected first and added then. -/
theorem foldl_foldl_addMember (ids : List String) (acc members : Array String) :
    (ids.foldl addMember acc).foldl addMember members =
      ids.foldl addMember (acc.foldl addMember members) := by
  induction ids generalizing acc with
  | nil => rfl
  | cons id ids ih =>
    have first : (addMember acc id).foldl addMember members =
        addMember (acc.foldl addMember members) id := by
      by_cases h : id ∈ acc
      · have there : id ∈ acc.foldl addMember members := by
          rw [← Array.foldl_toList]
          exact mem_foldl_addMember.2 (.inr (by simpa using h))
        rw [addMember_of_mem h, addMember_of_mem there]
      · rw [addMember_of_not_mem h, Array.foldl_push]
    rw [List.foldl_cons, ih, first, List.foldl_cons]

theorem collectAll_append (members : Array String) (subs others : List Subgraph) :
    collectAll members (subs ++ others) = collectAll (collectAll members subs) others := by
  induction subs generalizing members with
  | nil => rw [List.nil_append, collectAll]
  | cons s subs ih => rw [List.cons_append, collectAll, ih, collectAll]

/-! ### The walk through a tree -/

mutual

/-- A subgraph, and then those inside of it from left to right, each with what is inside of it
    in turn. -/
def preorder : Subgraph → List Subgraph
  | ⟨name, attrs, nodeIds, edgeIndices, children⟩ =>
    ⟨name, attrs, nodeIds, edgeIndices, children⟩ :: preorderAll children

/-- Subgraphs from left to right, each with what is inside of it. -/
def preorderAll : List Subgraph → List Subgraph
  | [] => []
  | s :: subs => s.preorder ++ preorderAll subs

end

mutual

/-- On the walk there are the subgraphs of the tree. -/
theorem preorder_perm_tree : (s : Subgraph) → s.preorder.Perm s.tree
  | ⟨name, attrs, nodeIds, edgeIndices, children⟩ => by
    rw [preorder, tree_eq]
    exact ((preorderAll_perm_forest children).cons _).trans (List.perm_append_singleton _ _).symm

theorem preorderAll_perm_forest : (subs : List Subgraph) → (preorderAll subs).Perm (forest subs)
  | [] => by rw [preorderAll, forest_nil]
  | s :: subs => by
    rw [preorderAll, forest_cons]
    exact (preorder_perm_tree s).append (preorderAll_perm_forest subs)

end

/-- The nodes declared in subgraphs themselves, as often as they are declared. -/
def declaredIn (subs : List Subgraph) : List String := subs.flatMap fun s => s.nodeIds.toList

@[simp] theorem declaredIn_nil : declaredIn [] = [] := rfl

@[simp] theorem declaredIn_cons (s : Subgraph) (subs : List Subgraph) :
    declaredIn (s :: subs) = s.nodeIds.toList ++ declaredIn subs :=
  List.flatMap_cons

@[simp] theorem declaredIn_append (subs others : List Subgraph) :
    declaredIn (subs ++ others) = declaredIn subs ++ declaredIn others :=
  List.flatMap_append

theorem mem_declaredIn {subs : List Subgraph} :
    id ∈ declaredIn subs ↔ ∃ t ∈ subs, id ∈ t.nodeIds := by
  simp only [declaredIn, List.mem_flatMap, Array.mem_toList_iff]

/-- The nodes that come on the walk through the tree of a subgraph. -/
def declared (s : Subgraph) : List String := declaredIn s.preorder

mutual

/-- Collecting the members of a subgraph adds the nodes that come on the walk. -/
theorem collectMembers_eq (members : Array String) :
    (s : Subgraph) → s.collectMembers members = s.declared.foldl addMember members
  | ⟨name, attrs, nodeIds, edgeIndices, children⟩ => by
    rw [collectMembers, ← Array.foldl_toList, collectAll_eq _ children, declared, preorder,
      declaredIn_cons, List.foldl_append]

theorem collectAll_eq (members : Array String) : (subs : List Subgraph) →
    collectAll members subs = (declaredIn (preorderAll subs)).foldl addMember members
  | [] => by rw [collectAll, preorderAll, declaredIn_nil, List.foldl_nil]
  | s :: subs => by
    rw [collectAll, collectAll_eq _ subs, collectMembers_eq members s, preorderAll,
      declaredIn_append, List.foldl_append, declared]

end

/-- The subgraphs contain the nodes that come on the walk. -/
theorem containsNode_iff_declared {s : Subgraph} :
    s.containsNode id = true ↔ id ∈ s.declared := by
  rw [containsNode_iff, declared, mem_declaredIn]
  simp only [s.preorder_perm_tree.mem_iff]

theorem anyContainsNode_iff_declared {subs : List Subgraph} :
    anyContainsNode id subs = true ↔ id ∈ declaredIn (preorderAll subs) := by
  rw [anyContainsNode_iff, mem_declaredIn]
  simp only [(preorderAll_perm_forest subs).mem_iff]

theorem mem_collectAll (subs : List Subgraph) :
    id ∈ collectAll members subs ↔ id ∈ members ∨ anyContainsNode id subs = true := by
  rw [collectAll_eq, mem_foldl_addMember, anyContainsNode_iff_declared]

/-! ### The members -/

/-- The members are the nodes on the walk, without those that have come before. -/
theorem toList_memberIds (s : Subgraph) : s.memberIds.toList = s.declared.eraseDups := by
  rw [memberIds, collectMembers_eq, toList_foldl_addMember]

/-- The members of a subgraph are the nodes that it contains. -/
theorem mem_memberIds {s : Subgraph} : id ∈ s.memberIds ↔ s.containsNode id = true := by
  rw [← Array.mem_toList_iff, toList_memberIds, List.mem_eraseDups, containsNode_iff_declared]

/-- Without repetitions, a list is in the order in which its members come for the first time. -/
theorem pairwise_idxOf_eraseDups (ids : List String) :
    ids.eraseDups.Pairwise fun id id' => ids.idxOf id < ids.idxOf id' := by
  -- The induction is on the end of the list: what is in the list before comes first in it.
  induction ids using List.reverseRecOn with
  | nil => exact .nil
  | append_singleton first id ih =>
    have before : ∀ x ∈ first.eraseDups, (first ++ [id]).idxOf x = first.idxOf x := fun x hx => by
      rw [List.idxOf_append, if_pos (List.mem_eraseDups.1 hx)]
    have kept : first.eraseDups.Pairwise fun x y =>
        (first ++ [id]).idxOf x < (first ++ [id]).idxOf y :=
      ih.imp_of_mem fun hx hy hlt => by rwa [before _ hx, before _ hy]
    rw [eraseDups_concat]
    split
    · exact kept
    · next h =>
      refine List.pairwise_append.2 ⟨kept, List.pairwise_singleton _ _, fun x hx y hy => ?_⟩
      obtain rfl := List.mem_singleton.1 hy
      rw [before x hx, List.idxOf_append, if_neg h]
      exact Nat.lt_add_left _ (List.idxOf_lt_length_of_mem (List.mem_eraseDups.1 hx))

/-- What the list of the members of a subgraph says. -/
structure MembersListed (s : Subgraph) : Prop where
  /-- No member is there twice. -/
  nodup : s.memberIds.toList.Nodup
  /-- The members are the nodes that the subgraph contains. -/
  mem_iff : ∀ id, id ∈ s.memberIds ↔ s.containsNode id = true
  /-- These are declared in the subgraph or in one inside of it. -/
  declared_iff : ∀ id, s.containsNode id = true ↔ ∃ t ∈ s.preorder, id ∈ t.nodeIds
  /-- The members stand in the order in which they come for the first time on the walk. -/
  inOrder : s.memberIds.toList.Pairwise fun id id' => s.declared.idxOf id < s.declared.idxOf id'
  /-- They are what comes on the walk, without what has come before. -/
  toList_eq : s.memberIds.toList = s.declared.eraseDups

/-- The members of every subgraph are listed, in the order of the walk. -/
theorem memberIds_listed (s : Subgraph) : s.MembersListed := by
  have inOrder : s.memberIds.toList.Pairwise fun id id' =>
      s.declared.idxOf id < s.declared.idxOf id' := by
    rw [toList_memberIds]
    exact pairwise_idxOf_eraseDups s.declared
  refine
    { nodup := inOrder.imp fun hlt heq => ?_
      mem_iff := fun _ => mem_memberIds
      declared_iff := fun _ => containsNode_iff_declared.trans mem_declaredIn
      inOrder := inOrder
      toList_eq := s.toList_memberIds }
  rw [heq] at hlt
  exact Nat.lt_irrefl _ hlt

/-- Nodes declared in the subgraph itself come first, also those declared after the subgraph
    inside. -/
example :
    let inner : Subgraph := { name := "inner", nodeIds := #["b", "a"] }
    let outer : Subgraph := { name := "", nodeIds := #["a", "c"], children := [inner] }
    outer.declared = ["a", "c", "b", "a"] ∧ outer.memberIds = #["a", "c", "b"] := by
  decide +kernel

end Subgraph

end DotLang
