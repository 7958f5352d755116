import DotLang.Graph.Tables

/-!
# The order of insertion

A map in order of insertion is a list of entries: a new key comes last, and a value that changes
keeps its place. This is how a map that keeps its keys and its values in two tables looks from
outside, after any calls. What carries it through the calls is that the keys in the one table are
those of the entries, and that the other finds under each key what the entries have. Keys are told
apart by `==`, which may take different keys for the same.

* `OrderedMap.Call.enter`: what a call does to entries;
* `Tables.Holds.call`, `Tables.holds_after`: the tables stay in step;
* `OrderedMap.toList_call`, `OrderedMap.view_after`: the map that graphs keep their nodes in has the
  same entries, so that the same can be seen of it;
* `OrderedMap.calls_inOrder`: what can be seen after any calls.
-/

namespace DotLang

namespace OrderedMap

section Entries

variable {κ ν : Type} [BEq κ] {es : List (κ × ν)} {key k k' : κ}

/-! ### Entries -/

/-- The entries with the value of a key changed. -/
def changeEntry (key : κ) (f : ν → ν) (es : List (κ × ν)) : List (κ × ν) :=
  es.map fun e => if key == e.1 then (e.1, f e.2) else e

/-- What a call does to entries. -/
def Call.enter (es : List (κ × ν)) : Call κ ν → List (κ × ν)
  | .getOrInsertWith key make f =>
    if es.any (key == ·.1) then changeEntry key f es else es ++ [(key, f (make ()))]
  | .getMut key f => changeEntry key f es

/-- The entries after calls, one after the other, where there were none before. -/
def entriesAfter (calls : List (Call κ ν)) : List (κ × ν) := calls.foldl Call.enter []

/-- What can be seen of entries. -/
def View.ofEntries (es : List (κ × ν)) : View κ ν where
  size := es.length
  isEmpty := es.isEmpty
  get? k := es.lookup k
  contains k := es.any (k == ·.1)
  values := es.map Prod.snd

/-- No two entries have the same key. -/
def Distinct (es : List (κ × ν)) : Prop := es.Pairwise fun e e' => (e.1 == e'.1) = false

theorem map_fst_changeEntry (key : κ) (f : ν → ν) (es : List (κ × ν)) :
    (changeEntry key f es).map Prod.fst = es.map Prod.fst := by
  rw [changeEntry, List.map_map]
  refine List.map_congr_left fun e _ => ?_
  rw [Function.comp_apply]
  split <;> rfl

/-- Whether a key is among entries. -/
theorem any_eq_isSome_lookup (es : List (κ × ν)) (k : κ) :
    es.any (k == ·.1) = (es.lookup k).isSome := by
  rw [Bool.eq_iff_iff, List.any_eq_true, List.lookup_isSome_iff]

/-- Nothing changes if there is no entry of the key. -/
theorem changeEntry_of_new (h : es.any (key == ·.1) = false) (f : ν → ν) :
    changeEntry key f es = es := by
  refine (List.map_congr_left fun e he => ?_).trans es.map_id
  exact if_neg (List.any_eq_false.1 h e he)

/-- Changing a value makes no second entry of a key. -/
theorem Distinct.changeEntry (h : Distinct es) (key : κ) (f : ν → ν) :
    Distinct (changeEntry key f es) := by
  have keys : (es.map Prod.fst).Pairwise fun k k' => (k == k') = false := List.pairwise_map.2 h
  rw [← map_fst_changeEntry key f] at keys
  exact List.pairwise_map.1 keys

variable [EquivBEq κ]

/-- Equal keys have the same value. -/
theorem lookup_congr (h : (k == k') = true) (es : List (κ × ν)) : es.lookup k = es.lookup k' := by
  induction es with
  | nil => rfl
  | cons e es ih => rw [List.lookup_cons, List.lookup_cons, BEq.congr_left h, ih]

/-- The changed value is found under its key, and all others are as before. -/
theorem lookup_changeEntry (key k : κ) (f : ν → ν) (es : List (κ × ν)) :
    (changeEntry key f es).lookup k =
      if key == k then (es.lookup k).map f else es.lookup k := by
  induction es with
  | nil => exact (ite_self _).symm
  | cons e es ih =>
    show List.lookup k ((if key == e.1 then (e.1, f e.2) else e) :: changeEntry key f es) = _
    by_cases hk : (k == e.1) = true
    · -- The first entry is the one that is looked for. It changes if it has the key.
      have same : (key == e.1) = (key == k) := BEq.congr_right (BEq.symm hk)
      rw [same]
      split
      · rw [List.lookup_cons, List.lookup_cons, hk, Option.map_some]
      · rw [List.lookup_cons, List.lookup_cons, hk]
    · have other : ((if key == e.1 then (e.1, f e.2) else e) : κ × ν).1 = e.1 := by split <;> rfl
      rw [List.lookup_cons, List.lookup_cons, other, eq_false_of_ne_true hk]
      exact ih

/-- A new key may come last. -/
theorem Distinct.concat (h : Distinct es) (hkey : es.any (key == ·.1) = false) (v : ν) :
    Distinct (es ++ [(key, v)]) := by
  refine List.pairwise_append.2 ⟨h, List.pairwise_singleton _ _, fun e he e' he' => ?_⟩
  obtain rfl := List.mem_singleton.1 he'
  rw [BEq.comm]
  exact eq_false_of_ne_true (List.any_eq_false.1 hkey e he)

/-- Under their own keys the values of entries are found, all of them. -/
theorem filterMap_lookup (h : Distinct es) :
    (es.map Prod.fst).filterMap (List.lookup · es) = es.map Prod.snd := by
  induction es with
  | nil => rfl
  | cons e es ih =>
    obtain ⟨he, hes⟩ := List.pairwise_cons.1 h
    have later : (es.map Prod.fst).filterMap (List.lookup · (e :: es)) =
        (es.map Prod.fst).filterMap (List.lookup · es) := by
      refine filterMap_congr_of_mem fun k hk => ?_
      obtain ⟨e', he', rfl⟩ := List.mem_map.1 hk
      rw [List.lookup_cons, BEq.comm, he e' he']
    rw [List.map_cons, List.map_cons, List.filterMap_cons, List.lookup_cons, BEq.rfl]
    exact congrArg (e.2 :: ·) (later.trans (ih hes))

omit [EquivBEq κ] in
/-- What is found under a key is what its entry has. -/
theorem Distinct.lookup_eq_some_iff [LawfulBEq κ] (h : Distinct es) {v : ν} :
    es.lookup k = some v ↔ (k, v) ∈ es := by
  induction es with
  | nil => simp
  | cons e es ih =>
    obtain ⟨he, hes⟩ := List.pairwise_cons.1 h
    rw [List.lookup_cons, List.mem_cons]
    cases hk : k == e.1 with
    | true =>
      -- No later entry has the key of the first one.
      have later : (k, v) ∉ es := fun hmem => by
        have hne := he _ hmem
        rw [BEq.comm, hk] at hne
        cases hne
      rw [or_iff_left later, eq_of_beq hk]
      exact ⟨fun hv => by rw [← Option.some.inj hv], fun hv => by rw [← hv]⟩
    | false =>
      have other : (k, v) ≠ e := fun heq => by
        rw [← heq, beq_self_eq_true] at hk
        cases hk
      rw [or_iff_right other]
      exact ih hes

/-- Keys, and what can be seen of the map with the keys, are those of entries. -/
structure InOrder (keys : List κ) (v : View κ ν) (es : List (κ × ν)) : Prop where
  keys_eq : keys = es.map Prod.fst
  /-- Whatever can be seen is seen of the entries. -/
  view_eq : v = .ofEntries es
  /-- No key is there twice. -/
  distinct : keys.Pairwise fun k k' => (k == k') = false
  /-- The keys are those that have a value. -/
  contains_iff : ∀ k, v.contains k = true ↔ ∃ k' ∈ keys, (k == k') = true
  /-- No value is lost. -/
  length_values : v.values.length = v.size

omit [EquivBEq κ] in
theorem Distinct.inOrder (h : Distinct es) : InOrder (es.map Prod.fst) (.ofEntries es) es where
  keys_eq := rfl
  view_eq := rfl
  distinct := List.pairwise_map.2 h
  contains_iff k := by
    show es.any (k == ·.1) = true ↔ _
    rw [List.any_eq_true]
    constructor
    · rintro ⟨e, he, hk⟩
      exact ⟨e.1, List.mem_map_of_mem he, hk⟩
    · rintro ⟨k', hk', hk⟩
      obtain ⟨e, he, rfl⟩ := List.mem_map.1 hk'
      exact ⟨e, he, hk⟩
  length_values := List.length_map _

end Entries

end OrderedMap

open OrderedMap

/-! ### Two tables -/

namespace Tables

variable {κ ν : Type} [BEq κ] [Hashable κ]

/-- The place of a value that is there or that is made. -/
theorem getOrInsertWith_eq (t : Tables κ ν) (key : κ) (make : Unit → ν) :
    t.getOrInsertWith key make =
      match t.table[key]? with
      | some v => ⟨v, fun w => ⟨t.order, t.table.insert key w⟩⟩
      | none => ⟨make (), fun w => ⟨t.order.push key, t.table.insert key w⟩⟩ := by
  rw [getOrInsertWith, orInsertWith]
  cases t.table[key]? <;> rfl

/-- Tables that are in step have the keys and the values of entries. -/
structure Holds (t : Tables κ ν) (es : List (κ × ν)) : Prop where
  keys : t.order.toList = es.map Prod.fst
  lookup : ∀ k, t.table[k]? = es.lookup k
  distinct : Distinct es

variable [EquivBEq κ] [LawfulHashable κ] {t : Tables κ ν} {es : List (κ × ν)}

namespace Holds

/-- A value that is there may change. -/
theorem change (h : t.Holds es) {key : κ} {v : ν} (hv : t.table[key]? = some v) (f : ν → ν) :
    Holds ⟨t.order, t.table.insert key (f v)⟩ (changeEntry key f es) where
  keys := by rw [map_fst_changeEntry, h.keys]
  lookup k := by
    show (t.table.insert key (f v))[k]? = _
    rw [Std.HashMap.getElem?_insert, lookup_changeEntry]
    split
    · next hk => rw [← lookup_congr hk, ← h.lookup, hv, Option.map_some]
    · exact h.lookup k
  distinct := h.distinct.changeEntry key f

/-- A new key may be noted together with its value. -/
theorem push (h : t.Holds es) {key : κ} (new : es.any (key == ·.1) = false) (v : ν) :
    Holds ⟨t.order.push key, t.table.insert key v⟩ (es ++ [(key, v)]) where
  keys := by
    show (t.order.push key).toList = _
    rw [Array.toList_push, h.keys, List.map_append]
    rfl
  lookup k := by
    show (t.table.insert key v)[k]? = _
    rw [Std.HashMap.getElem?_insert, List.lookup_append, List.lookup_cons, List.lookup_nil,
      BEq.comm]
    cases hk : k == key with
    | true =>
      -- Nothing is found under the new key among the entries before.
      rw [any_eq_isSome_lookup, Option.isSome_eq_false_iff, Option.isNone_iff_eq_none] at new
      rw [lookup_congr hk, new]
      rfl
    | false => exact (h.lookup k).trans Option.or_none.symm
  distinct := h.distinct.concat new v

/-- Each call keeps the tables in step. -/
theorem call (h : t.Holds es) (c : Call κ ν) : (t.call c).Holds (c.enter es) := by
  have found : ∀ key, es.any (key == ·.1) = (t.table[key]?).isSome := fun key => by
    rw [any_eq_isSome_lookup, h.lookup]
  cases c with
  | getOrInsertWith key make f =>
    rw [Tables.call, getOrInsertWith_eq, Call.enter]
    cases hv : t.table[key]? with
    | some v =>
      have there : es.any (key == ·.1) = true := by rw [found, hv, Option.isSome_some]
      rw [if_pos there]
      exact h.change hv f
    | none =>
      have new : es.any (key == ·.1) = false := by rw [found, hv, Option.isSome_none]
      rw [if_neg (ne_true_of_eq_false new)]
      exact h.push new _
  | getMut key f =>
    rw [Tables.call, getMut?, Call.enter]
    cases hv : t.table[key]? with
    | some v => exact h.change hv f
    | none =>
      have new : es.any (key == ·.1) = false := by rw [found, hv, Option.isSome_none]
      rw [changeEntry_of_new new]
      exact h

/-- Whatever can be seen of tables in step is seen of the entries. -/
theorem view_eq (h : t.Holds es) : t.view = .ofEntries es := by
  have size : t.size = es.length := by
    rw [Tables.size, ← Array.length_toList, h.keys, List.length_map]
  have isEmpty : t.isEmpty = es.isEmpty := by
    rw [Tables.isEmpty, ← Array.isEmpty_toList, h.keys, List.isEmpty_map]
  have get? : t.get? = (List.lookup · es) := funext h.lookup
  have contains : t.contains = fun k => es.any (k == ·.1) := funext fun k => by
    rw [Tables.contains, Std.HashMap.contains_eq_isSome_getElem?, h.lookup, any_eq_isSome_lookup]
  have values : t.values = es.map Prod.snd := by
    rw [Tables.values, get?, h.keys, filterMap_lookup h.distinct]
  rw [view, size, isEmpty, get?, contains, values]
  rfl

theorem inOrder (h : t.Holds es) : InOrder t.order.toList t.view es := by
  rw [h.keys, h.view_eq]
  exact h.distinct.inOrder

end Holds

/-- After any calls the tables are in step. -/
theorem holds_after (calls : List (Call κ ν)) : (after calls).Holds (entriesAfter calls) := by
  have all : ∀ (t : Tables κ ν) es, t.Holds es →
      (calls.foldl Tables.call t).Holds (calls.foldl Call.enter es) := by
    induction calls with
    | nil => exact fun _ _ h => h
    | cons c calls ih => exact fun t es h => ih _ _ (h.call c)
  exact all {} [] ⟨rfl, fun k => Std.HashMap.getElem?_empty, .nil⟩

end Tables

/-! ### The map of a graph -/

namespace OrderedMap

variable {ν : Type} {m : OrderedMap ν}

theorem distinct_toList (m : OrderedMap ν) : Distinct m.toList :=
  (List.pairwise_map.1 m.nodup_keys).imp fun hne => beq_false_of_ne hne

theorem get?_eq_lookup (m : OrderedMap ν) (k : String) : m.get? k = m.toList.lookup k := by
  ext v
  rw [get?_eq_some_iff, m.distinct_toList.lookup_eq_some_iff]

theorem contains_eq_any (m : OrderedMap ν) (k : String) :
    m.contains k = m.toList.any (k == ·.1) := by
  rw [contains_eq_isSome, get?_eq_lookup, any_eq_isSome_lookup]

theorem toList_modify_eq (m : OrderedMap ν) (key : String) (f : ν → ν) :
    (m.modify key f).toList = changeEntry key f m.toList := by
  rw [toList_modify, changeEntry]
  simp only [beq_iff_eq, @eq_comm _ key]

/-- The entries after a call. -/
theorem toList_call (m : OrderedMap ν) (c : Call String ν) :
    (m.call c).toList = c.enter m.toList := by
  cases c with
  | getMut key f => exact m.toList_modify_eq key f
  | getOrInsertWith key make f =>
    rw [OrderedMap.call, toList_modify_eq, toList_insertIfNew, contains_eq_any, Call.enter]
    split
    · rfl
    · next new =>
      -- Only the new entry has the key.
      have before := changeEntry_of_new (eq_false_of_ne_true new) f
      rw [changeEntry] at before
      rw [changeEntry, List.map_append, before, List.map_singleton, if_pos (beq_self_eq_true key)]

theorem toList_after (calls : List (Call String ν)) :
    (after calls).toList = entriesAfter calls := by
  have all : ∀ m : OrderedMap ν,
      (calls.foldl OrderedMap.call m).toList = calls.foldl Call.enter m.toList := by
    induction calls with
    | nil => exact fun _ => rfl
    | cons c calls ih => exact fun m => (ih _).trans (by rw [toList_call]; rfl)
  exact all ∅

/-- Whatever can be seen of the map is seen of its entries. -/
theorem view_eq (m : OrderedMap ν) : m.view = .ofEntries m.toList := by
  have isEmpty : m.isEmpty = m.toList.isEmpty := by
    rw [OrderedMap.isEmpty, ← Array.isEmpty_toList, ← map_fst_toList, List.isEmpty_map]
  rw [view, isEmpty, funext m.get?_eq_lookup, funext m.contains_eq_any, ← m.length_toList,
    ← m.map_snd_toList]
  rfl

/-- After the same calls, the map of a graph has the keys of two tables. -/
theorem keys_after (calls : List (Call String ν)) :
    (after calls).keys.toList = (Tables.after calls).order.toList := by
  rw [← map_fst_toList, toList_after, (Tables.holds_after calls).keys]

/-- After the same calls, the same can be seen of the map of a graph and of two tables. -/
theorem view_after (calls : List (Call String ν)) :
    (after calls).view = (Tables.after calls).view := by
  rw [view_eq, toList_after, (Tables.holds_after calls).view_eq]

/-- After any calls, a map in two tables and the map of a graph are in order of insertion. -/
theorem calls_inOrder {κ μ : Type} [BEq κ] [EquivBEq κ] [Hashable κ] [LawfulHashable κ]
    (calls : List (Call κ μ)) (named : List (Call String ν)) :
    InOrder (Tables.after calls).order.toList (Tables.after calls).view (entriesAfter calls) ∧
      InOrder (after named).keys.toList (after named).view (entriesAfter named) := by
  refine ⟨(Tables.holds_after calls).inOrder, ?_⟩
  rw [keys_after, view_after]
  exact (Tables.holds_after named).inOrder

/-- A key that comes again keeps its place, and a key that has not come has no value to change. -/
theorem calls_inOrder_again :
    ∃ (calls : List (Call Nat Nat)) (named : List (Call String (List Nat))),
      (Tables.after calls).view = .ofEntries [(3, 33), (1, 10), (2, 20)] ∧
      (after named).view = .ofEntries [("a", [1, 3]), ("b", [2])] ∧
      InOrder (Tables.after calls).order.toList (Tables.after calls).view (entriesAfter calls) ∧
        InOrder (after named).keys.toList (after named).view (entriesAfter named) :=
  let calls : List (Call Nat Nat) :=
    [(3, 30), (1, 10), (2, 20)].map (fun e => .getOrInsertWith e.1 (fun _ => 0) fun _ => e.2) ++
      [.getMut 3 fun _ => 33, .getMut 4 fun _ => 44]
  let named : List (Call String (List Nat)) :=
    [("a", 1), ("b", 2), ("a", 3)].map fun e => .getOrInsertWith e.1 (fun _ => []) (· ++ [e.2])
  have both := calls_inOrder calls named
  ⟨calls, named, both.1.view_eq.trans rfl, both.2.view_eq.trans rfl, both⟩

end OrderedMap

end DotLang
