import DotLang.Attribute.Fields
import DotLang.Proofs.Attribute.Texts

/-!
# Collecting entries

A set is written down by collecting its fields, then the free texts that no field hides, and
sorting what was found. So each key is there once, with the text that is found under it, and a set
that comes of assignments is made again by assigning its entries, in whatever order.

* `Attributes.collect_eq`: what is collected and sorted are the entries;
* `Attributes.entries_list`: what the entries say about a set.
-/

namespace DotLang

/-- The entries of a dictionary have different keys. -/
theorem Dict.pairwise_ne {β : Type} (d : Dict β) : d.entries.Pairwise fun e f => e.1 ≠ f.1 :=
  d.sorted.imp fun hlt => Std.ne_of_lt hlt

namespace Attributes

variable {o : Owner} {a : Attributes o} {k s : String}

/-! ### What is found -/

/-- The fields that are found are those with a value. -/
theorem mem_fields_iff :
    (k, s) ∈ a.fields ↔ ∃ v, a.typed.get? k = some v ∧ v.toText = s := by
  rw [fields, List.mem_filterMap]
  constructor
  · rintro ⟨key, -, hkey⟩
    obtain ⟨v, hv, heq⟩ := Option.map_eq_some_iff.1 hkey
    cases heq
    exact ⟨v, hv, rfl⟩
  · rintro ⟨v, hv, rfl⟩
    have known : k ∈ o.written := by
      rw [o.written_eq, Owner.mem_keys_iff, a.conforms k v hv]
      rfl
    exact ⟨k, known, by rw [hv]; rfl⟩

/-- Whether a field is found under a key. -/
theorem any_fields (a : Attributes o) (k : String) :
    (a.fields.any (·.1 == k)) = (a.typed.get? k).isSome := by
  rw [Bool.eq_iff_iff, List.any_eq_true, Option.isSome_iff_exists]
  constructor
  · rintro ⟨⟨key, s⟩, hmem, hkey⟩
    obtain rfl : key = k := eq_of_beq hkey
    obtain ⟨v, hv, -⟩ := mem_fields_iff.1 hmem
    exact ⟨v, hv⟩
  · rintro ⟨v, hv⟩
    exact ⟨(k, v.toText), mem_fields_iff.2 ⟨v, hv, rfl⟩, beq_self_eq_true k⟩

/-- No two fields are found under a key. -/
theorem pairwise_fields (a : Attributes o) : a.fields.Pairwise fun e f => e.1 ≠ f.1 := by
  have distinct : o.written.Pairwise (· ≠ ·) := by
    rw [o.written_eq]
    exact o.keys_nodup
  refine List.pairwise_filterMap.2 (distinct.imp fun hne e he f hf => ?_)
  obtain ⟨v, -, rfl⟩ := Option.map_eq_some_iff.1 he
  obtain ⟨w, -, rfl⟩ := Option.map_eq_some_iff.1 hf
  exact hne

/-- Free texts with different keys are added if there was nothing under their keys before. -/
theorem foldl_addFree {es : List (String × String)} (hes : es.Pairwise fun e f => e.1 ≠ f.1)
    (found : List (String × String)) :
    es.foldl addFree found = found ++ es.filter fun e => !found.any (·.1 == e.1) := by
  induction es generalizing found with
  | nil => exact (List.append_nil found).symm
  | cons e es ih =>
    obtain ⟨he, hes⟩ := List.pairwise_cons.1 hes
    rw [List.foldl_cons, ih hes, List.filter_cons]
    cases hfound : found.any (·.1 == e.1) with
    | true =>
      have left_out : addFree found e = found := if_pos hfound
      rw [left_out]
      rfl
    | false =>
      have added : addFree found e = found ++ [e] := if_neg (ne_true_of_eq_false hfound)
      -- What is added has a key that the others have not.
      have same : (es.filter fun f => !(found ++ [e]).any (·.1 == f.1)) =
          es.filter fun f => !found.any (·.1 == f.1) :=
        List.filter_congr fun f hf => by
          have other : (e.1 == f.1) = false := beq_eq_false_iff_ne.2 (he f hf)
          rw [List.any_append, List.any_cons, List.any_nil, other, Bool.or_false, Bool.or_false]
      rw [added, same, List.append_assoc]
      rfl

/-- The free texts that no field hides. -/
def free (a : Attributes o) : List (String × String) :=
  a.custom.entries.filter fun e => !(a.typed.get? e.1).isSome

theorem mem_free_iff : (k, s) ∈ a.free ↔ a.typed.get? k = none ∧ a.custom.get? k = some s := by
  rw [free, List.mem_filter, Dict.mem_entries_iff]
  simp [and_comm]

theorem collect_eq_mergeSort (a : Attributes o) :
    a.collect = (a.fields ++ a.free).mergeSort fun e f => e.1 ≤ f.1 := by
  rw [collect, foldl_addFree a.custom.pairwise_ne]
  simp only [any_fields]
  rfl

/-! ### What is sorted -/

/-- Sorted entries with different keys have increasing keys. -/
theorem increasing_mergeSort {es : List (String × String)}
    (hes : es.Pairwise fun e f => e.1 ≠ f.1) :
    (es.mergeSort fun e f => e.1 ≤ f.1).Pairwise fun e f => e.1 < f.1 := by
  have sorted : (es.mergeSort fun e f => e.1 ≤ f.1).Pairwise fun e f => decide (e.1 ≤ f.1) := by
    refine List.pairwise_mergeSort (fun e f g hef hfg => ?_) (fun e f => ?_) es
    · exact decide_eq_true (String.le_trans (of_decide_eq_true hef) (of_decide_eq_true hfg))
    · rw [Bool.or_eq_true, decide_eq_true_iff, decide_eq_true_iff]
      exact String.le_total e.1 f.1
  have distinct := (List.mergeSort_perm es fun e f => e.1 ≤ f.1).symm.pairwise hes Ne.symm
  exact (sorted.and distinct).imp fun ⟨hle, hne⟩ =>
    Std.lt_of_le_of_ne (of_decide_eq_true hle) hne

/-- What is found has different keys. -/
theorem pairwise_fields_free (a : Attributes o) :
    (a.fields ++ a.free).Pairwise fun e f => e.1 ≠ f.1 := by
  refine List.pairwise_append.2 ⟨a.pairwise_fields, ?_, ?_⟩
  · exact a.custom.pairwise_ne.filter _
  · rintro ⟨k, s⟩ hfield ⟨k', s'⟩ hfree heq
    obtain rfl : k = k' := heq
    obtain ⟨v, hv, -⟩ := mem_fields_iff.1 hfield
    rw [(mem_free_iff.1 hfree).1] at hv
    cases hv

/-- Collecting the fields and the free texts, and sorting them, gives the entries. -/
theorem collect_eq (a : Attributes o) : a.collect = a.entries := by
  rw [collect_eq_mergeSort]
  refine Dict.entries_ext (increasing_mergeSort a.pairwise_fields_free) a.texts.sorted ?_
  rintro ⟨k, s⟩
  show _ ↔ (k, s) ∈ a.entries
  rw [List.mem_mergeSort, List.mem_append, mem_fields_iff, mem_free_iff, mem_entries_iff,
    get?_eq_some_iff]

/-! ### What the entries say -/

/-- The entries of a set are its attributes. -/
structure Listed (a : Attributes o) : Prop where
  /-- They are what is collected and sorted. -/
  collect : a.collect = a.entries
  /-- No key is there twice, and the keys are in order. -/
  increasing : a.entries.Pairwise fun e f => e.1 < f.1
  /-- An entry is a field with the text of its value, or a free text that no field hides. -/
  mem_iff : ∀ k s, (k, s) ∈ a.entries ↔ (∃ v, a.typed.get? k = some v ∧ v.toText = s) ∨
    a.typed.get? k = none ∧ a.custom.get? k = some s
  /-- A set that comes of assignments is made again by assigning its entries, in any order. -/
  rebuilt : a.Built → ∀ pairs : List (String × String), pairs.Perm a.entries →
    ofPairs pairs = .ok a

/-- The entries of every set are its attributes. -/
theorem entries_list (a : Attributes o) : a.Listed where
  collect := a.collect_eq
  increasing := a.texts.sorted
  mem_iff _ _ := mem_entries_iff.trans get?_eq_some_iff
  rebuilt built pairs perm := by
    have proper := built.proper
    have accepted : ∀ e ∈ pairs, ∀ c : Attributes o, ∃ c', c.set e.1 e.2 = .ok c' :=
      fun e he c => proper.exists_set (perm.mem_iff.1 he) c
    show setAll ∅ pairs = .ok a
    rw [setAll_eq_of_forall accepted, proper.assignAll_of_mem_iff fun _ => perm.mem_iff]

/-- A set on top of another is made again from its entries in reverse. -/
theorem entries_list_reversed : ∃ a : Attributes .subgraph, a.Built ∧
    a.entries = [("color", "red"), ("fontsize", "14"), ("rank", "same"), ("zorder", "1")] ∧
    a.Listed ∧ ofPairs a.entries.reverse = .ok a :=
  let below : Attributes .subgraph := (assign ∅ "zorder" "1").assign "fontsize" "14.0"
  let above : Attributes .subgraph := (assign ∅ "rank" "same").assign "color" "red"
  have built : (below.merge above).Built :=
    .merge ((Built.empty.assign ..).assign ..) ((Built.empty.assign ..).assign ..)
  ⟨_, built, by decide +kernel, entries_list _,
    (entries_list _).rebuilt built _ (List.reverse_perm _)⟩

end Attributes

end DotLang
