import DotLang.Proofs.Attribute.Assigning

/-!
# Sets on top of sets

A set of attributes is a template that is put on top of another set. Whatever the template has is
found then, and where it has nothing, what was below. So templates can be put together before they
are put on top, and once is as good as twice.

* `Attributes.copyAll_eq`: copying field after field puts a set on top;
* `Attributes.Unhidden.attempt`: no field comes to hide a free text;
* `Attributes.merge_layers`: the laws of templates.
-/

namespace DotLang

namespace Attributes

variable {o : Owner} {a b c : Attributes o} {key : String}

/-! ### Copying fields -/

/-- A field that is copied is that of the other set, if it has a value there. -/
theorem typed_get?_copyField (b a : Attributes o) (key k : String) :
    (b.copyField a key).typed.get? k =
      if k = key then (b.typed.get? k).or (a.typed.get? k) else a.typed.get? k := by
  rw [copyField]
  cases hv : b.typed.get? key with
  | none =>
    show a.typed.get? k = _
    split
    · next hk =>
      rw [hk, hv]
      rfl
    · rfl
  | some v =>
    show (a.put? key v).typed.get? k = _
    rw [put?_eq (b.conforms key v hv)]
    refine (Dict.get?_insert a.typed key k v).trans ?_
    split
    · next hk =>
      rw [hk, hv]
      rfl
    · rfl

theorem custom_copyField (b a : Attributes o) (key : String) :
    (b.copyField a key).custom = a.custom := by
  rw [copyField]
  split
  · rw [put?]
    split <;> rfl
  · rfl

/-- Copying some fields. -/
theorem typed_get?_copyFields (b : Attributes o) (keys : List String) (a : Attributes o)
    (k : String) : (keys.foldl b.copyField a).typed.get? k =
      if k ∈ keys then (b.typed.get? k).or (a.typed.get? k) else a.typed.get? k := by
  induction keys generalizing a with
  | nil => rfl
  | cons key keys ih =>
    rw [List.foldl_cons, ih, typed_get?_copyField]
    by_cases hk : k = key
    · -- A field that is copied again stays as it is.
      rw [if_pos hk, if_pos (List.mem_cons.2 (.inl hk)), ← Option.or_assoc, Option.or_self]
      exact ite_self _
    · simp only [List.mem_cons, hk, false_or, if_false]

theorem custom_copyFields (b : Attributes o) (keys : List String) (a : Attributes o) :
    (keys.foldl b.copyField a).custom = a.custom := by
  induction keys generalizing a with
  | nil => rfl
  | cons key keys ih => rw [List.foldl_cons, ih, custom_copyField]

/-- Free texts that are put in one after the other. -/
theorem foldl_putCustom (es : List (String × String)) (a : Attributes o) :
    (es.foldl (fun c e => c.putCustom e.1 e.2) a).typed = a.typed ∧
      (es.foldl (fun c e => c.putCustom e.1 e.2) a).custom =
        es.foldl (fun d e => d.insert e.1 e.2) a.custom := by
  induction es generalizing a with
  | nil => exact ⟨rfl, rfl⟩
  | cons e es ih => exact ih (a.putCustom e.1 e.2)

/-- Copying field after field, and then the free texts, puts a set on top of another. -/
theorem copyAll_eq (a b : Attributes o) : a.copyAll b = a.merge b := by
  obtain ⟨typed, custom⟩ := foldl_putCustom b.custom.entries (o.copied.foldl b.copyField a)
  refine ext (Dict.ext_get? fun k => ?_) ?_
  · rw [copyAll, typed, typed_get?_copyFields, typed_get?_merge]
    by_cases hk : k ∈ o.copied
    · rw [if_pos hk]
    · -- A key without a field to be copied is not known.
      have unknown : o.typeOf? k = none := by
        rwa [o.copied_eq, Owner.mem_keys_iff, Option.not_isSome_iff_eq_none] at hk
      rw [if_neg hk, b.typed_get?_eq_none unknown, Option.none_or]
  · rw [copyAll, custom, custom_copyFields]
    rfl

/-! ### Free texts that are not hidden -/

theorem unhidden_empty : (∅ : Attributes o).Unhidden := nofun

/-- Assigning a text does not put it under a key that is known. -/
theorem Unhidden.attempt (h : a.Unhidden) (key text : String) :
    (a.attempt key text).2.Unhidden := by
  intro k s hs
  by_cases ht : o.typeOf? k = none
  · exact ht
  · rw [attempt_snd, custom_get?_assign] at hs
    split at hs
    · next hk =>
      rw [← hk, if_neg ht, Option.none_or] at hs
      exact h k s hs
    · exact h k s hs

/-! ### The laws -/

/-- What comes of putting the sets `b` and `c` on top of the set `a`. -/
structure Layers (a b c : Attributes o) : Prop where
  /-- In place it is the same as anew. -/
  inPlace : a.copyAll b = a.merge b
  assoc : (a.merge b).merge c = a.merge (b.merge c)
  empty_merge : (∅ : Attributes o).merge a = a
  merge_empty : a.merge ∅ = a
  again : (a.merge b).merge b = a.merge b
  /-- A field is that of the set on top if it has a value there, and stays what it was if not. -/
  typed : ∀ k, (a.merge b).typed.get? k = (b.typed.get? k).or (a.typed.get? k)
  custom : ∀ k, (a.merge b).custom.get? k = (b.custom.get? k).or (a.custom.get? k)
  /-- What has a value keeps one. -/
  keeps : ∀ k, ((a.typed.get? k).isSome → ((a.merge b).typed.get? k).isSome) ∧
    ((a.custom.get? k).isSome → ((a.merge b).custom.get? k).isSome)
  /-- What is found is that of the set on top, if there is something, as long as no field of
      the set below can hide a free text of it. -/
  found : b.Unhidden → ∀ k, (a.merge b).get? k = (b.get? k).or (a.get? k)
  /-- No field comes to hide a free text, by assigning or by putting sets on top. -/
  unhidden_empty : (∅ : Attributes o).Unhidden
  unhidden_attempt : a.Unhidden → ∀ key text, (a.attempt key text).2.Unhidden
  unhidden_merge : a.Unhidden → b.Unhidden → (a.merge b).Unhidden

theorem merge_assoc (a b c : Attributes o) : (a.merge b).merge c = a.merge (b.merge c) := by
  refine ext_get? (fun k => ?_) fun k => ?_
  · simp only [typed_get?_merge, Option.or_assoc]
  · simp only [custom_get?_merge, Option.or_assoc]

/-- A set on top of the empty one is itself. -/
theorem empty_merge (a : Attributes o) : (∅ : Attributes o).merge a = a := by
  refine ext_get? (fun k => ?_) fun k => ?_
  · rw [typed_get?_merge]
    exact Option.or_none
  · rw [custom_get?_merge]
    exact Option.or_none

/-- The laws of templates, for all sets. -/
theorem merge_layers (a b c : Attributes o) : Layers a b c where
  inPlace := a.copyAll_eq b
  assoc := a.merge_assoc b c
  empty_merge := a.empty_merge
  merge_empty := a.merge_empty
  again := a.merge_merge_self b
  typed := a.typed_get?_merge b
  custom := a.custom_get?_merge b
  keeps k := by
    rw [typed_get?_merge, custom_get?_merge, Option.isSome_or, Option.isSome_or]
    exact ⟨fun h => by rw [h, Bool.or_true], fun h => by rw [h, Bool.or_true]⟩
  found h := h.get?_merge a
  unhidden_empty := unhidden_empty
  unhidden_attempt h := h.attempt
  unhidden_merge := Unhidden.merge

/-- A field of the set below hides a free text that is under its key. -/
example :
    let below : Attributes .node := assign ∅ "label" "below"
    let above : Attributes .node := putCustom ∅ "label" "above"
    above.get? "label" = some "above" ∧ (below.merge above).get? "label" = some "below" := by
  decide +kernel

end Attributes

end DotLang
