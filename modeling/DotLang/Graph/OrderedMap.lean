import Std.Data.TreeMap

/-!
# Maps in order of insertion

A map from texts that remembers the order in which its keys came. Changing the
value of a key keeps its place. The keys stand in an array and the values in a
search tree, so that looking up does not go through the whole map.

The view of a map is the list of its entries, `OrderedMap.toList`.

* `OrderedMap.toList_insertIfNew`, `OrderedMap.toList_modify`: what the
  operations do to the view;
* `OrderedMap.get?_eq_some_iff`, `OrderedMap.contains_iff`: what is found is what
  the view holds;
* `OrderedMap.forall_insertIfNew`, `OrderedMap.forall_modify`: what the operations keep true of
  all entries;
* `OrderedMap.nodup_keys`: no key occurs twice.
-/

namespace DotLang

/-- A map from texts to values of type `ν`, in order of first insertion. -/
structure OrderedMap (ν : Type) where
  /-- The keys, in order of insertion. -/
  keys : Array String := #[]
  /-- The values by key. -/
  tree : Std.TreeMap String ν := ∅
  /-- No key occurs twice. -/
  nodup : keys.toList.Nodup := by simp
  /-- The keys are exactly those that have a value. -/
  mem_keys : ∀ k, k ∈ keys ↔ k ∈ tree := by simp

namespace OrderedMap

variable {ν : Type}

/-- The map without entries. -/
def empty : OrderedMap ν := {}

instance : EmptyCollection (OrderedMap ν) := ⟨empty⟩

instance : Inhabited (OrderedMap ν) := ⟨empty⟩

/-- The number of entries. -/
def size (m : OrderedMap ν) : Nat := m.keys.size

/-- Whether there is no entry. -/
def isEmpty (m : OrderedMap ν) : Bool := m.keys.isEmpty

/-- The value of a key. -/
def get? (m : OrderedMap ν) (k : String) : Option ν := m.tree[k]?

/-- Whether a key has a value. -/
def contains (m : OrderedMap ν) (k : String) : Bool := m.tree.contains k

/-- The entries, in order of insertion. -/
def toList (m : OrderedMap ν) : List (String × ν) :=
  m.keys.toList.filterMap fun k => (m.get? k).map (k, ·)

/-- The values, in order of insertion of their keys. -/
def values (m : OrderedMap ν) : List ν := m.keys.toList.filterMap m.get?

/-- Adds an entry at the end if the key is new, and changes nothing otherwise. -/
def insertIfNew (m : OrderedMap ν) (k : String) (v : ν) : OrderedMap ν :=
  if h : k ∈ m.tree then m
  else
    { keys := m.keys.push k
      tree := m.tree.insert k v
      nodup := by
        have := mt (m.mem_keys k).1 h
        simp only [Array.toList_push, List.nodup_append, List.mem_singleton]
        refine ⟨m.nodup, by simp, fun a ha b hb => ?_⟩
        rintro rfl
        exact this (by rw [← hb]; simpa using ha)
      mem_keys := fun k' => by
        rw [Array.mem_push, Std.TreeMap.mem_insert, m.mem_keys k', Std.compare_eq_iff_eq,
          or_comm, eq_comm] }

/-- Changes the value of a key, if it has one. -/
def modify (m : OrderedMap ν) (k : String) (f : ν → ν) : OrderedMap ν :=
  match h : m.tree[k]? with
  | none => m
  | some v =>
    { keys := m.keys
      tree := m.tree.insert k (f v)
      nodup := m.nodup
      mem_keys := fun k' => by
        rw [Std.TreeMap.mem_insert, m.mem_keys k', Std.compare_eq_iff_eq]
        refine ⟨.inr, fun h' => h'.elim ?_ id⟩
        rintro rfl
        exact Std.TreeMap.mem_iff_isSome_getElem?.2 (by rw [h]; rfl) }

/-- Gives a key a value: the key keeps its place, or comes last if it is new. -/
def insert (m : OrderedMap ν) (k : String) (v : ν) : OrderedMap ν :=
  (m.insertIfNew k v).modify k fun _ => v

/-! ### Look-ups -/

@[simp] theorem get?_empty (k : String) : (empty : OrderedMap ν).get? k = none := by
  simp [get?, empty]

/-- A key has a value exactly if it is among the keys. -/
theorem contains_iff {m : OrderedMap ν} {k : String} : m.contains k = true ↔ k ∈ m.keys := by
  rw [m.mem_keys]
  exact Std.TreeMap.contains_iff_mem

/-- A key has a value exactly if looking it up finds one. -/
theorem contains_eq_isSome (m : OrderedMap ν) (k : String) :
    m.contains k = (m.get? k).isSome :=
  Std.TreeMap.contains_eq_isSome_getElem?

/-- A new key gets the value, and all others keep theirs. -/
theorem get?_insertIfNew (m : OrderedMap ν) (k k' : String) (v : ν) :
    (m.insertIfNew k v).get? k' = if k' = k then some ((m.get? k).getD v) else m.get? k' := by
  unfold insertIfNew get?
  split
  · next h =>
    obtain ⟨w, hw⟩ := Option.isSome_iff_exists.1 (Std.TreeMap.mem_iff_isSome_getElem?.1 h)
    by_cases hk : k' = k
    · subst hk; simp [hw]
    · simp [hk]
  · next h =>
    rw [Std.TreeMap.getElem?_insert]
    by_cases hk : k' = k
    · subst hk
      have : m.tree[k']? = none := Std.TreeMap.getElem?_eq_none h
      simp [this]
    · simp [hk, Ne.symm hk]

/-- The changed value is found under its key, and all others are as before. -/
theorem get?_modify (m : OrderedMap ν) (k k' : String) (f : ν → ν) :
    (m.modify k f).get? k' = if k' = k then (m.get? k).map f else m.get? k' := by
  unfold modify get?
  split
  · next h =>
    by_cases hk : k' = k
    · subst hk; simp [h]
    · simp [hk]
  · next v h =>
    rw [Std.TreeMap.getElem?_insert]
    by_cases hk : k' = k
    · subst hk; simp [h]
    · simp [hk, Ne.symm hk]

/-- What is true of all entries and of a new one stays true of all. -/
theorem forall_insertIfNew {P : String → ν → Prop} {m : OrderedMap ν} {k : String} {v : ν}
    (h : ∀ k v, m.get? k = some v → P k v) (hv : P k v) :
    ∀ k' w, (m.insertIfNew k v).get? k' = some w → P k' w := by
  intro k' w hw
  rw [get?_insertIfNew] at hw
  split at hw
  · next heq =>
    subst heq
    cases hk : m.get? k' with
    | none =>
      rw [hk] at hw
      exact Option.some.inj hw ▸ hv
    | some old =>
      rw [hk] at hw
      exact Option.some.inj hw ▸ h k' old hk
  · exact h k' w hw

/-- What is true of all entries, and kept by a change of a value, stays true of all. -/
theorem forall_modify {P : String → ν → Prop} {m : OrderedMap ν} {k : String} {f : ν → ν}
    (h : ∀ k v, m.get? k = some v → P k v) (hf : ∀ v, P k v → P k (f v)) :
    ∀ k' w, (m.modify k f).get? k' = some w → P k' w := by
  intro k' w hw
  rw [get?_modify] at hw
  split at hw
  · next heq =>
    subst heq
    obtain ⟨old, hold, rfl⟩ := Option.map_eq_some_iff.1 hw
    exact hf old (h k' old hold)
  · exact h k' w hw

theorem contains_insertIfNew {m : OrderedMap ν} {k k' : String} {v : ν} :
    (m.insertIfNew k v).contains k' = true ↔ k' = k ∨ m.contains k' = true := by
  rw [contains_eq_isSome, contains_eq_isSome, get?_insertIfNew]
  by_cases hk : k' = k <;> simp [hk]

/-- A new key comes last. -/
theorem keys_insertIfNew (m : OrderedMap ν) (k : String) (v : ν) :
    (m.insertIfNew k v).keys = if m.keys.contains k then m.keys else m.keys.push k := by
  rw [insertIfNew]
  by_cases h : k ∈ m.tree
  · rw [dif_pos h, if_pos (Array.contains_iff_mem.2 ((m.mem_keys k).2 h))]
  · rw [dif_neg h, if_neg fun hc => h ((m.mem_keys k).1 (Array.contains_iff_mem.1 hc))]

@[simp] theorem keys_modify (m : OrderedMap ν) (k : String) (f : ν → ν) :
    (m.modify k f).keys = m.keys := by
  rw [modify]
  split <;> rfl

/-- A key that has a value is not added again. -/
theorem insertIfNew_eq_self {m : OrderedMap ν} {k : String} (h : m.contains k = true) (v : ν) :
    m.insertIfNew k v = m :=
  dif_pos (Std.TreeMap.contains_iff_mem.1 h)

/-! ### The view -/

/-- Collecting depends on the members of a list only. -/
theorem filterMap_congr_of_mem {α β : Type} {l : List α} {f g : α → Option β}
    (h : ∀ a ∈ l, f a = g a) : l.filterMap f = l.filterMap g := by
  induction l with
  | nil => rfl
  | cons a l ih =>
    rw [List.filterMap_cons, List.filterMap_cons, h a List.mem_cons_self,
      ih fun b hb => h b (List.mem_cons_of_mem _ hb)]

/-- The keys of the view are the keys. -/
theorem map_fst_toList (m : OrderedMap ν) : m.toList.map Prod.fst = m.keys.toList := by
  have found : ∀ k ∈ m.keys.toList, (m.get? k).isSome = true := fun k hk => by
    rw [← contains_eq_isSome, contains_iff]
    simpa using hk
  unfold toList
  generalize m.keys.toList = ks at found
  induction ks with
  | nil => rfl
  | cons k ks ih =>
    obtain ⟨v, hv⟩ := Option.isSome_iff_exists.1 (found k List.mem_cons_self)
    simp [hv, ih fun k hk => found k (List.mem_cons_of_mem _ hk)]

/-- No key occurs twice. -/
theorem nodup_keys (m : OrderedMap ν) : (m.toList.map Prod.fst).Nodup := by
  rw [map_fst_toList]
  exact m.nodup

/-- What is found is what the view holds. -/
theorem get?_eq_some_iff {m : OrderedMap ν} {k : String} {v : ν} :
    m.get? k = some v ↔ (k, v) ∈ m.toList := by
  simp only [toList, List.mem_filterMap, Option.map_eq_some_iff, Prod.mk.injEq]
  constructor
  · intro h
    have : k ∈ m.keys := by rw [← contains_iff, contains_eq_isSome, h]; rfl
    exact ⟨k, by simpa using this, v, h, rfl, rfl⟩
  · rintro ⟨k', -, v', h, rfl, rfl⟩
    exact h

/-- The values of the view are the values. -/
theorem map_snd_toList (m : OrderedMap ν) : m.toList.map Prod.snd = m.values := by
  unfold toList values
  induction m.keys.toList with
  | nil => rfl
  | cons k ks ih => cases h : m.get? k <;> simp [h, ih]

/-- The view has as many entries as the map. -/
theorem length_toList (m : OrderedMap ν) : m.toList.length = m.size := by
  rw [← List.length_map Prod.fst, map_fst_toList]
  rfl

/-- A new key comes last, and a key that is there changes nothing. -/
theorem toList_insertIfNew (m : OrderedMap ν) (k : String) (v : ν) :
    (m.insertIfNew k v).toList = if m.contains k then m.toList else m.toList ++ [(k, v)] := by
  by_cases h : k ∈ m.tree
  · have : m.contains k = true := Std.TreeMap.contains_iff_mem.2 h
    simp [insertIfNew, h, this]
  · have hc : ¬m.contains k = true := mt Std.TreeMap.contains_iff_mem.1 h
    have lookup := get?_insertIfNew m k (v := v)
    have keys : (m.insertIfNew k v).keys = m.keys.push k := by simp [insertIfNew, h]
    have new : k ∉ m.keys.toList := by
      have := mt (m.mem_keys k).1 h
      simpa using this
    have none_before : m.get? k = none := Std.TreeMap.getElem?_eq_none h
    rw [if_neg hc]
    unfold toList
    rw [keys, Array.toList_push, List.filterMap_append]
    congr 1
    · refine filterMap_congr_of_mem fun k' hk' => ?_
      have : k' ≠ k := fun hk => new (hk ▸ hk')
      rw [lookup, if_neg this]
    · simp [lookup, none_before]

/-- The changed value stands where the old one stood. -/
theorem toList_modify (m : OrderedMap ν) (k : String) (f : ν → ν) :
    (m.modify k f).toList = m.toList.map fun e => if e.1 = k then (e.1, f e.2) else e := by
  rw [toList, keys_modify, toList, List.map_filterMap]
  refine filterMap_congr_of_mem fun k' _ => ?_
  rw [get?_modify]
  by_cases hk : k' = k
  · subst hk
    cases m.get? k' <;> simp
  · cases m.get? k' <;> simp [hk]

end OrderedMap

end DotLang
