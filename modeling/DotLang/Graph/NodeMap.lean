import DotLang.Attribute.Attributes
import DotLang.Graph.OrderedMap

/-!
# The nodes of a graph

Nodes are found by name and keep the order in which their names came. Whole nodes are
stored, so that a node brings its name along. It is the one under which it is found: the
name of a node never changes, and the map keeps the proof.

* `NodeMap.declare`, `NodeMap.insert`, `NodeMap.modify`: what is done to nodes;
* `NodeMap.attrs?_declare`, `NodeMap.attrs?_modify`: what is found afterwards;
* `NodeMap.get?_eq_some_iff`: the node of a name is the one of that name.
-/

namespace DotLang

/-- A node. -/
structure Node where
  id : String
  attrs : Attributes .node := ∅
  deriving DecidableEq, Inhabited

/-- Nodes by name, in the order in which they came. -/
structure NodeMap where
  /-- The nodes by the names under which they are found. -/
  byName : OrderedMap Node := ∅
  /-- A node is found under its own name. -/
  named : ∀ id n, byName.get? id = some n → n.id = id := by
    intro id n h
    cases (OrderedMap.get?_empty id).symm.trans h

namespace NodeMap

instance : EmptyCollection NodeMap := ⟨{}⟩

/-- The names, in the order in which they came. -/
def keys (m : NodeMap) : Array String := m.byName.keys

/-- The number of nodes. -/
def size (m : NodeMap) : Nat := m.byName.size

/-- Whether there is a node of the name. -/
def contains (m : NodeMap) (id : String) : Bool := m.byName.contains id

/-- The node of a name. -/
def get? (m : NodeMap) (id : String) : Option Node := m.byName.get? id

/-- The attributes of the node of a name. -/
def attrs? (m : NodeMap) (id : String) : Option (Attributes .node) := (m.get? id).map Node.attrs

/-- The nodes, in the order in which they came. -/
def toList (m : NodeMap) : List Node := m.byName.values

/-- Adds a node with the attributes of the template, unless there is a node of
    the name. -/
def declare (m : NodeMap) (id : String) (template : Attributes .node) : NodeMap where
  byName := m.byName.insertIfNew id ⟨id, template⟩
  named := OrderedMap.forall_insertIfNew m.named rfl

/-- Adds a node. It takes the place of a node of the same name. -/
def insert (m : NodeMap) (n : Node) : NodeMap where
  byName := m.byName.insert n.id n
  named := OrderedMap.forall_modify (OrderedMap.forall_insertIfNew m.named rfl) fun _ _ => rfl

/-- Changes the attributes of the node of a name, if there is one. -/
def modify (m : NodeMap) (id : String) (f : Attributes .node → Attributes .node) : NodeMap where
  byName := m.byName.modify id fun n => { n with attrs := f n.attrs }
  named := OrderedMap.forall_modify m.named fun _ h => h

/-! ### What is found -/

@[simp] theorem attrs?_empty (id : String) : (∅ : NodeMap).attrs? id = none := by
  rw [attrs?, get?, show (∅ : NodeMap).byName.get? id = none from OrderedMap.get?_empty id]
  rfl

/-- There is a node of a name exactly if the name is among the names. -/
theorem contains_iff {m : NodeMap} {id : String} : m.contains id = true ↔ id ∈ m.keys :=
  OrderedMap.contains_iff

/-- There is a node of a name exactly if there are attributes of one. -/
theorem contains_eq_isSome (m : NodeMap) (id : String) : m.contains id = (m.attrs? id).isSome := by
  rw [contains, attrs?, get?, Option.isSome_map, OrderedMap.contains_eq_isSome]

/-- The node of a name has that name. -/
theorem get?_eq_map_attrs? (m : NodeMap) (id : String) :
    m.get? id = (m.attrs? id).map (Node.mk id) := by
  rw [attrs?, Option.map_map]
  cases h : m.get? id with
  | none => rfl
  | some n =>
    obtain rfl := m.named id n h
    rfl

theorem get?_eq_some_iff {m : NodeMap} {id : String} {n : Node} :
    m.get? id = some n ↔ n.id = id ∧ m.attrs? id = some n.attrs := by
  rw [get?_eq_map_attrs?, Option.map_eq_some_iff]
  constructor
  · rintro ⟨attrs, h, rfl⟩
    exact ⟨rfl, h⟩
  · rintro ⟨rfl, h⟩
    exact ⟨n.attrs, h, rfl⟩

/-- A new node gets the attributes of the template, and all others keep theirs. -/
theorem attrs?_declare (m : NodeMap) (id other : String) (template : Attributes .node) :
    (m.declare id template).attrs? other =
      if other = id then some ((m.attrs? id).getD template) else m.attrs? other := by
  rw [attrs?, get?, declare, OrderedMap.get?_insertIfNew, attrs?, attrs?, get?, get?]
  split
  · cases m.byName.get? id <;> rfl
  · rfl

/-- The changed attributes are found under the name, and all others are as before. -/
theorem attrs?_modify (m : NodeMap) (id other : String)
    (f : Attributes .node → Attributes .node) :
    (m.modify id f).attrs? other =
      if other = id then (m.attrs? id).map f else m.attrs? other := by
  rw [attrs?, get?, modify, OrderedMap.get?_modify, attrs?, attrs?, get?, get?]
  split
  · rw [Option.map_map, Option.map_map]
    rfl
  · rfl

theorem contains_declare {m : NodeMap} {id other : String} {template : Attributes .node} :
    (m.declare id template).contains other = true ↔ other = id ∨ m.contains other = true :=
  OrderedMap.contains_insertIfNew

@[simp] theorem keys_modify (m : NodeMap) (id : String)
    (f : Attributes .node → Attributes .node) : (m.modify id f).keys = m.keys :=
  OrderedMap.keys_modify m.byName id _

@[simp] theorem contains_modify (m : NodeMap) (id other : String)
    (f : Attributes .node → Attributes .node) :
    (m.modify id f).contains other = m.contains other := by
  rw [Bool.eq_iff_iff, contains_iff, contains_iff, keys_modify]

/-- A node that takes the place of another stands where the other one stood. -/
theorem keys_insert (m : NodeMap) (n : Node) :
    (m.insert n).keys = (m.declare n.id n.attrs).keys :=
  OrderedMap.keys_modify (m.declare n.id n.attrs).byName n.id _

theorem contains_insert {m : NodeMap} {n : Node} {other : String} :
    (m.insert n).contains other = true ↔ other = n.id ∨ m.contains other = true := by
  rw [contains_iff, keys_insert, ← contains_iff, contains_declare]

/-- A node of a name that is there is not added again. -/
theorem declare_eq_self {m : NodeMap} {id : String} (h : m.contains id = true)
    (template : Attributes .node) : m.declare id template = m := by
  obtain ⟨byName, named⟩ := m
  simp only [declare, OrderedMap.insertIfNew_eq_self h]

/-! ### The nodes in order -/

/-- The nodes are those that are found under their names. -/
theorem mem_toList {m : NodeMap} {n : Node} : n ∈ m.toList ↔ m.get? n.id = some n := by
  rw [toList, OrderedMap.values, List.mem_filterMap]
  constructor
  · rintro ⟨id, -, h⟩
    rwa [← m.named id n h] at h
  · intro h
    refine ⟨n.id, Array.mem_toList_iff.2 (OrderedMap.contains_iff.1 ?_), h⟩
    rw [OrderedMap.contains_eq_isSome]
    exact Option.isSome_of_eq_some h

/-- What is true of all nodes is true of those that are found. -/
theorem forall_toList {m : NodeMap} {P : Node → Prop} :
    (∀ n ∈ m.toList, P n) ↔ ∀ id n, m.byName.get? id = some n → P n := by
  constructor
  · intro h id n hn
    obtain rfl := m.named id n hn
    exact h n (mem_toList.2 hn)
  · exact fun h n hn => h n.id n (mem_toList.1 hn)

/-- The names of the nodes are the names, in the same order. -/
theorem map_id_toList (m : NodeMap) : m.toList.map Node.id = m.keys.toList := by
  have named : ∀ e ∈ m.byName.toList, e.2.id = e.1 := fun e he =>
    m.named e.1 e.2 (OrderedMap.get?_eq_some_iff.2 he)
  rw [toList, ← OrderedMap.map_snd_toList, List.map_map, keys, ← OrderedMap.map_fst_toList]
  exact List.map_congr_left named

theorem length_toList (m : NodeMap) : m.toList.length = m.size := by
  rw [← List.length_map Node.id, map_id_toList, Array.length_toList]
  rfl

end NodeMap

end DotLang
