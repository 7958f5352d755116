import Std.Data.HashMap
import DotLang.Graph.OrderedMap

/-!
# Maps in two tables

How a map in order of insertion is worked on in place. The keys stand in one table and the values
in another, and nothing but the way in which it is worked on keeps the two in step: a key is noted
where its first value is made. Values are changed through references, which say what stands in a
place and what becomes of the whole when something else is written there.

* `Reference`: a place in something;
* `Tables.getOrInsertWith`, `Tables.getMut?`: the place of a value;
* `Tables.after`, `OrderedMap.after`: what calls make of the map without entries;
* `OrderedMap.View`: what can be seen of a map.
-/

namespace DotLang

/-- A place where a value of type `ν` stands, in something of type `σ`. -/
structure Reference (σ ν : Type) where
  /-- What stands there. -/
  value : ν
  /-- The whole, after a value has been written there. -/
  write : ν → σ

/-- The whole, after the value has been changed. -/
def Reference.change {σ ν : Type} (r : Reference σ ν) (f : ν → ν) : σ := r.write (f r.value)

namespace OrderedMap

/-- What changes a map with keys of type `κ`. -/
inductive Call (κ ν : Type) where
  /-- Looks for the value of a key, makes one if there is none, and changes it. -/
  | getOrInsertWith (key : κ) (make : Unit → ν) (f : ν → ν)
  /-- Changes the value of a key, if there is one. -/
  | getMut (key : κ) (f : ν → ν)

/-- What can be seen of a map. -/
structure View (κ ν : Type) where
  size : Nat
  isEmpty : Bool
  get? : κ → Option ν
  contains : κ → Bool
  values : List ν

end OrderedMap

open OrderedMap (Call View)

/-- A map in two tables. -/
structure Tables (κ ν : Type) [BEq κ] [Hashable κ] where
  /-- The keys, in order of insertion. -/
  order : Array κ := #[]
  /-- The values by key. -/
  table : Std.HashMap κ ν := ∅

namespace Tables

variable {κ ν : Type} [BEq κ] [Hashable κ]

/-- The number of keys. -/
def size (t : Tables κ ν) : Nat := t.order.size

/-- Whether there is no key. -/
def isEmpty (t : Tables κ ν) : Bool := t.order.isEmpty

/-- The value of a key. -/
def get? (t : Tables κ ν) (key : κ) : Option ν := t.table[key]?

/-- Whether a key has a value. -/
def contains (t : Tables κ ν) (key : κ) : Bool := t.table.contains key

/-- The values that are found, in the order of the keys. -/
def values (t : Tables κ ν) : List ν := t.order.toList.filterMap t.get?

/-- The place of the value of a key among values. If there is none, it is made, and what makes it
    may change the keys. -/
def orInsertWith (table : Std.HashMap κ ν) (key : κ) (make : StateM (Array κ) ν) :
    StateM (Array κ) (Reference (Std.HashMap κ ν) ν) :=
  match table[key]? with
  | some v => pure ⟨v, table.insert key⟩
  | none => do
    let v ← make
    pure ⟨v, table.insert key⟩

/-- The place of the value of a key. If there is none, the key is noted and a value is made. -/
def getOrInsertWith (t : Tables κ ν) (key : κ) (make : Unit → ν) : Reference (Tables κ ν) ν :=
  let noting : StateM (Array κ) ν := do
    modify (·.push key)
    pure (make ())
  let (place, order) := orInsertWith t.table key noting t.order
  ⟨place.value, fun v => ⟨order, place.write v⟩⟩

/-- The place of the value of a key, if there is one. -/
def getMut? (t : Tables κ ν) (key : κ) : Option (Reference (Tables κ ν) ν) :=
  t.table[key]?.map fun v => ⟨v, fun w => { t with table := t.table.insert key w }⟩

/-- What a call makes of a map. -/
def call (t : Tables κ ν) : Call κ ν → Tables κ ν
  | .getOrInsertWith key make f => (t.getOrInsertWith key make).change f
  | .getMut key f =>
    match t.getMut? key with
    | some place => place.change f
    | none => t

/-- What calls make of the map without entries, one after the other. -/
def after (calls : List (Call κ ν)) : Tables κ ν := calls.foldl call {}

/-- What can be seen of the map. -/
def view (t : Tables κ ν) : View κ ν := ⟨t.size, t.isEmpty, t.get?, t.contains, t.values⟩

end Tables

namespace OrderedMap

variable {ν : Type}

/-- What a call makes of a map. -/
def call (m : OrderedMap ν) : Call String ν → OrderedMap ν
  | .getOrInsertWith key make f => (m.insertIfNew key (make ())).modify key f
  | .getMut key f => m.modify key f

/-- What calls make of the map without entries, one after the other. -/
def after (calls : List (Call String ν)) : OrderedMap ν := calls.foldl call ∅

/-- What can be seen of the map. -/
def view (m : OrderedMap ν) : View String ν := ⟨m.size, m.isEmpty, m.get?, m.contains, m.values⟩

end OrderedMap

end DotLang
