import DotLang.Attribute.Attributes
import DotLang.Proofs.Number.ReadBack

/-!
# Sets of attributes and their texts

What the entries of a set say about the set. They say everything about a *proper*
set: one whose numbers are finite and whose free texts are not under known keys.
Reading makes no other sets.

A set is written next to a template, without the entries that both have. Put on
top of the template, what is written gives the same set as the one it was written
from.

* `Attributes.Proper.assignAll_entries`: a set is read back from its entries;
* `Attributes.merge_assignAll_withoutDefaults`: a set on top of a template is read
  back from the entries that the template does not have;
* `Attributes.Proper.withoutDefaults_merge`: putting a set on top of its template
  does not change what is written of it;
* `Attributes.Unhidden.get?_merge`: what is found in a set on top of another;
* `Attributes.Proper.assign`, `Attributes.Proper.merge`: the sets that reading makes
  are proper;
* `Attributes.Built`: the sets that come of assigning and of putting sets on top of sets.
-/

namespace DotLang

/-- The value is not a number beyond the finite ones. -/
def Value.IsFinite : Value → Prop
  | .number x => x.isFinite
  | _ => True

/-- The text of a value is read as the value. -/
theorem ValueType.read_toText {v : Value} (h : v.IsFinite) : v.type.read v.toText = .ok v := by
  cases v with
  | number x =>
    have hx : Number.ofText? x.text = some x := Number.ofText?_text h
    simp only [Value.type, Value.toText, read, hx]
  | flag b => cases b <;> rfl
  | _ => simp [Value.type, Value.toText, read]

/-- Only finite numbers are read. -/
theorem ValueType.isFinite_of_read {t : ValueType} {s : String} {v : Value}
    (h : t.read s = .ok v) : v.IsFinite := by
  cases v with
  | number x =>
    obtain rfl := ValueType.type_of_read h
    simp only [Value.type, read] at h
    split at h
    · next y hy =>
      cases h
      exact Number.isFinite_of_ofText? hy
    · cases h
  | _ => trivial

/-- The value that a text under a known key is read as. -/
def Owner.value? (o : Owner) (key text : String) : Option Value :=
  (o.typeOf? key).bind fun t => (t.read text).toOption

namespace Attributes

variable {o : Owner} {a b d : Attributes o}

/-! ### Assigning a text -/

theorem set_of_unknown {key : String} (ht : o.typeOf? key = none) (a : Attributes o)
    (text : String) : a.set key text = .ok (a.putCustom key text) := by
  rw [set]
  split
  · rfl
  · next t ht' =>
    rw [ht] at ht'
    cases ht'

theorem set_of_known {key : String} {t : ValueType} (ht : o.typeOf? key = some t)
    (a : Attributes o) (text : String) :
    (∃ v h, t.read text = .ok v ∧ a.set key text = .ok (a.put key v h)) ∨
      ∃ m, t.read text = .error m ∧ a.set key text = .error ⟨key, text, m⟩ := by
  rw [set]
  split
  · next ht' =>
    rw [ht] at ht'
    cases ht'
  · next t' ht' =>
    obtain rfl : t = t' := Option.some.inj (ht.symm.trans ht')
    split
    · next v hv => exact .inl ⟨v, by rw [ht, ValueType.type_of_read hv], hv, rfl⟩
    · next m hm => exact .inr ⟨m, hm, rfl⟩

theorem typed_get?_assign (a : Attributes o) (key text k : String) :
    (a.assign key text).typed.get? k =
      if k = key then (o.value? key text).or (a.typed.get? k) else a.typed.get? k := by
  rw [assign, Owner.value?]
  cases ht : o.typeOf? key with
  | none =>
    rw [set_of_unknown ht]
    exact (ite_self _).symm
  | some t =>
    rcases set_of_known ht a text with ⟨v, h, hv, hset⟩ | ⟨m, hm, hset⟩
    · rw [hset, Option.bind_some, hv]
      exact Dict.get?_insert a.typed key k v
    · rw [hset, Option.bind_some, hm]
      exact (ite_self _).symm

theorem custom_get?_assign (a : Attributes o) (key text k : String) :
    (a.assign key text).custom.get? k =
      if k = key then (if o.typeOf? key = none then some text else none).or (a.custom.get? k)
      else a.custom.get? k := by
  cases ht : o.typeOf? key with
  | none =>
    rw [assign, set_of_unknown ht, if_pos rfl]
    exact Dict.get?_insert a.custom key k text
  | some t =>
    have same : (a.assign key text).custom.get? k = a.custom.get? k := by
      rw [assign]
      rcases set_of_known ht a text with ⟨v, h, -, hset⟩ | ⟨m, -, hset⟩
      · rw [hset]
        rfl
      · rw [hset]
    rw [same, if_neg (Option.some_ne_none t)]
    exact (ite_self _).symm

/-- Assignments and later ones. -/
theorem assignAll_append (a : Attributes o) (pairs more : List (String × String)) :
    a.assignAll (pairs ++ more) = (a.assignAll pairs).assignAll more :=
  List.foldl_append

/-- Texts are assigned, all of them, if none of them fails on any set. -/
theorem setAll_eq_of_forall {pairs : List (String × String)}
    (h : ∀ pair ∈ pairs, ∀ c : Attributes o, ∃ c', c.set pair.1 pair.2 = .ok c')
    (a : Attributes o) : a.setAll pairs = .ok (a.assignAll pairs) := by
  have until_eq : a.setUntil pairs = (a.assignAll pairs, none) := by
    induction pairs generalizing a with
    | nil => rfl
    | cons pair pairs ih =>
      obtain ⟨c, hc⟩ := h pair List.mem_cons_self a
      have assign_eq : a.assign pair.1 pair.2 = c := by rw [assign, hc]
      rw [setUntil, hc]
      show c.setUntil pairs = ((a.assign pair.1 pair.2).assignAll pairs, none)
      rw [assign_eq]
      exact ih (fun p hp => h p (List.mem_cons_of_mem _ hp)) c
  rw [setAll, until_eq]

/-! ### Look-ups -/

/-- Sets are equal if they have the same under every key. -/
theorem ext_get? {a b : Attributes o} (ht : ∀ k, a.typed.get? k = b.typed.get? k)
    (hc : ∀ k, a.custom.get? k = b.custom.get? k) : a = b :=
  ext (Dict.ext_get? ht) (Dict.ext_get? hc)

theorem typed_get?_merge (d a : Attributes o) (k : String) :
    (d.merge a).typed.get? k = (a.typed.get? k).or (d.typed.get? k) :=
  Dict.get?_merge d.typed a.typed k

theorem custom_get?_merge (d a : Attributes o) (k : String) :
    (d.merge a).custom.get? k = (a.custom.get? k).or (d.custom.get? k) :=
  Dict.get?_merge d.custom a.custom k

/-- There are no typed values under unknown keys. -/
theorem typed_get?_eq_none (a : Attributes o) {k : String} (h : o.typeOf? k = none) :
    a.typed.get? k = none := by
  refine Option.eq_none_iff_forall_ne_some.2 fun v hv => ?_
  rw [a.conforms k v hv] at h
  cases h

/-! ### Proper sets -/

/-- No free text is under a key that is known, where a field may hide it. -/
def Unhidden (a : Attributes o) : Prop :=
  ∀ k s, a.custom.get? k = some s → o.typeOf? k = none

/-- The numbers of the set are finite, and its free texts are not under known
    keys. -/
structure Proper (a : Attributes o) : Prop where
  isFinite : ∀ k v, a.typed.get? k = some v → v.IsFinite
  unknown : ∀ k s, a.custom.get? k = some s → o.typeOf? k = none

theorem mem_entries_iff {e : String × String} : e ∈ a.entries ↔ a.get? e.1 = some e.2 :=
  Dict.mem_entries_iff

theorem get?_eq_some_iff {k s : String} :
    a.get? k = some s ↔ (∃ v, a.typed.get? k = some v ∧ v.toText = s) ∨
      a.typed.get? k = none ∧ a.custom.get? k = some s := by
  rw [get?_texts]
  cases a.typed.get? k <;> simp

namespace Proper

/-- The text under a key is read as the typed value of the key. -/
theorem value?_eq (h : a.Proper) {k s : String} (hs : a.get? k = some s) :
    o.value? k s = a.typed.get? k := by
  rcases get?_eq_some_iff.1 hs with ⟨v, hv, rfl⟩ | ⟨hnone, hc⟩
  · rw [Owner.value?, a.conforms k v hv, Option.bind_some,
      ValueType.read_toText (h.isFinite k v hv), hv]
    rfl
  · rw [Owner.value?, h.unknown k s hc, hnone]
    rfl

/-- The text under a key that is not known is the free text of the key. -/
theorem custom_eq (h : a.Proper) {k s : String} (hs : a.get? k = some s) :
    a.custom.get? k = if o.typeOf? k = none then some s else none := by
  rcases get?_eq_some_iff.1 hs with ⟨v, hv, rfl⟩ | ⟨hnone, hc⟩
  · have ht := a.conforms k v hv
    rw [if_neg (by rw [ht]; nofun)]
    cases hc : a.custom.get? k with
    | none => rfl
    | some s =>
      rw [h.unknown k s hc] at ht
      cases ht
  · rw [hc, if_pos (h.unknown k s hc)]

/-- A text of a proper set can be assigned. -/
theorem exists_set (h : a.Proper) {e : String × String} (he : e ∈ a.entries) (c : Attributes o) :
    ∃ c', c.set e.1 e.2 = .ok c' := by
  have hs := mem_entries_iff.1 he
  cases ht : o.typeOf? e.1 with
  | none => exact ⟨_, set_of_unknown ht c e.2⟩
  | some t =>
    rcases set_of_known ht c e.2 with ⟨v, h, -, hset⟩ | ⟨m, hm, -⟩
    · exact ⟨_, hset⟩
    · -- The key is known, so the text is that of a typed value, which is read.
      have hv := h.value?_eq hs
      rw [Owner.value?, ht, Option.bind_some, hm] at hv
      rcases get?_eq_some_iff.1 hs with ⟨v, hv', -⟩ | ⟨-, hc⟩
      · rw [hv'] at hv
        cases hv
      · rw [h.unknown _ _ hc] at ht
        cases ht

end Proper

/-! ### Reading entries back -/

/-- Texts of a proper set that are assigned, under the keys that they have. -/
theorem get?_assignAll (h : b.Proper) (pairs : List (String × String))
    (hp : ∀ e ∈ pairs, e ∈ b.entries) (a : Attributes o) (k : String) :
    (a.assignAll pairs).typed.get? k =
        (if k ∈ pairs.map Prod.fst then (b.typed.get? k).or (a.typed.get? k)
          else a.typed.get? k) ∧
      (a.assignAll pairs).custom.get? k =
        if k ∈ pairs.map Prod.fst then (b.custom.get? k).or (a.custom.get? k)
          else a.custom.get? k := by
  induction pairs generalizing a with
  | nil => exact ⟨rfl, rfl⟩
  | cons e pairs ih =>
    have he := mem_entries_iff.1 (hp e List.mem_cons_self)
    obtain ⟨ht, hc⟩ := ih (fun e he => hp e (List.mem_cons_of_mem _ he)) (a.assign e.1 e.2)
    rw [typed_get?_assign, h.value?_eq he] at ht
    rw [custom_get?_assign, ← h.custom_eq he] at hc
    show ((a.assign e.1 e.2).assignAll pairs).typed.get? k = _ ∧
      ((a.assign e.1 e.2).assignAll pairs).custom.get? k = _
    rw [ht, hc, List.map_cons]
    by_cases hk : k = e.1
    · -- A later assignment to the same key assigns the same text again.
      rw [if_pos hk, if_pos hk, ← hk, if_pos List.mem_cons_self, if_pos List.mem_cons_self,
        ← Option.or_assoc, ← Option.or_assoc, Option.or_self, Option.or_self]
      exact ⟨ite_self _, ite_self _⟩
    · simp only [List.mem_cons, hk, false_or, if_false, and_self]

/-- A proper set is read back from its entries, in whatever order and however often they come. -/
theorem Proper.assignAll_of_mem_iff (h : a.Proper) {pairs : List (String × String)}
    (hp : ∀ e, e ∈ pairs ↔ e ∈ a.entries) : (∅ : Attributes o).assignAll pairs = a := by
  have key := get?_assignAll h pairs (fun e he => (hp e).1 he) ∅
  -- Under a key without an entry there is nothing to be read back.
  have absent : ∀ k, k ∉ pairs.map Prod.fst →
      a.typed.get? k = none ∧ a.custom.get? k = none := by
    intro k hk
    have hnone : a.get? k = none := by
      refine Option.eq_none_iff_forall_ne_some.2 fun s hs => hk ?_
      exact List.mem_map_of_mem ((hp (k, s)).2 (mem_entries_iff.2 hs))
    rwa [get?_texts, Option.or_eq_none_iff, Option.map_eq_none_iff] at hnone
  refine ext_get? (fun k => ?_) fun k => ?_
  · rw [(key k).1]
    split
    · exact Option.or_none
    · next hk => exact (absent k hk).1.symm
  · rw [(key k).2]
    split
    · exact Option.or_none
    · next hk => exact (absent k hk).2.symm

/-- A proper set is read back from its entries. -/
theorem Proper.assignAll_entries (h : a.Proper) : (∅ : Attributes o).assignAll a.entries = a :=
  h.assignAll_of_mem_iff fun _ => .rfl

theorem mem_withoutDefaults {e : String × String} {entries defaults : List (String × String)} :
    e ∈ withoutDefaults entries defaults ↔ e ∈ entries ∧ e ∉ defaults := by
  simp [withoutDefaults]

/-- A proper set on top of a proper template is read back from the entries that the
    template does not have. -/
theorem merge_assignAll_withoutDefaults (hd : d.Proper) (ha : a.Proper) :
    d.merge ((∅ : Attributes o).assignAll (withoutDefaults a.entries d.entries)) = d.merge a := by
  have key := get?_assignAll ha (withoutDefaults a.entries d.entries)
    (fun e he => (mem_withoutDefaults.1 he).1) ∅
  -- What is left out of the entries stands in the template.
  have shared : ∀ k, k ∉ (withoutDefaults a.entries d.entries).map Prod.fst → ∀ s,
      a.get? k = some s → d.get? k = some s := by
    intro k hk s hs
    refine mem_entries_iff (e := (k, s)).1 (Classical.byContradiction fun hmem => hk ?_)
    exact List.mem_map_of_mem (f := Prod.fst)
      (mem_withoutDefaults.2 ⟨mem_entries_iff (e := (k, s)).2 hs, hmem⟩)
  refine ext_get? (fun k => ?_) fun k => ?_
  · rw [typed_get?_merge, typed_get?_merge, (key k).1]
    split
    · rw [show (∅ : Attributes o).typed.get? k = none from rfl, Option.or_none]
    · next hk =>
      cases hv : a.typed.get? k with
      | none => rfl
      | some v =>
        have hs : a.get? k = some v.toText := get?_eq_some_iff.2 (.inl ⟨v, hv, rfl⟩)
        rw [← hd.value?_eq (shared k hk _ hs), ha.value?_eq hs, hv]
        rfl
  · rw [custom_get?_merge, custom_get?_merge, (key k).2]
    split
    · rw [show (∅ : Attributes o).custom.get? k = none from rfl, Option.or_none]
    · next hk =>
      cases hc : a.custom.get? k with
      | none => rfl
      | some s =>
        have ht := ha.unknown k s hc
        have hs : a.get? k = some s := get?_eq_some_iff.2 (.inr ⟨a.typed_get?_eq_none ht, hc⟩)
        rw [hd.custom_eq (shared k hk s hs), if_pos ht]
        rfl

/-! ### Sets on top of sets -/

/-- Putting the same set on top again changes nothing. -/
theorem merge_merge_self (d a : Attributes o) : (d.merge a).merge a = d.merge a := by
  refine ext_get? (fun k => ?_) fun k => ?_
  · rw [typed_get?_merge, typed_get?_merge, ← Option.or_assoc, Option.or_self]
  · rw [custom_get?_merge, custom_get?_merge, ← Option.or_assoc, Option.or_self]

/-- The empty set on top of another changes nothing. -/
theorem merge_empty (a : Attributes o) : a.merge ∅ = a := by
  refine ext_get? (fun k => ?_) fun k => ?_
  · rw [typed_get?_merge]
    rfl
  · rw [custom_get?_merge]
    rfl

/-- The keys of both sets are those of one on top of the other. -/
theorem isSome_get?_merge (d a : Attributes o) (k : String) :
    ((d.merge a).get? k).isSome = ((a.get? k).isSome || (d.get? k).isSome) := by
  rw [get?_texts, get?_texts, get?_texts, typed_get?_merge, custom_get?_merge]
  simp only [Option.isSome_or, Option.isSome_map]
  ac_rfl

/-- What is found in a set on top of another. -/
theorem Unhidden.get?_merge (h : a.Unhidden) (d : Attributes o) (k : String) :
    (d.merge a).get? k = (a.get? k).or (d.get? k) := by
  rw [get?_texts, get?_texts, get?_texts, typed_get?_merge, custom_get?_merge]
  -- A typed value of the set on top goes first in both.
  cases hv : a.typed.get? k with
  | some v => rfl
  | none =>
    cases hc : a.custom.get? k with
    | none => rfl
    | some s =>
      -- The key is not known, so the set below has no typed value under it either.
      rw [d.typed_get?_eq_none (h k s hc)]
      rfl

/-- What is written of a proper set on top of another. -/
theorem Proper.get?_merge (h : a.Proper) (d : Attributes o) (k : String) :
    (d.merge a).get? k = (a.get? k).or (d.get? k) :=
  Unhidden.get?_merge h.unknown d k

/-- Putting a set on top of its template does not change what is written of it. -/
theorem Proper.withoutDefaults_merge (h : a.Proper) (d : Attributes o) :
    withoutDefaults (d.merge a).entries d.entries = withoutDefaults a.entries d.entries := by
  refine Dict.entries_ext ((d.merge a).texts.sorted.filter _) (a.texts.sorted.filter _) fun e => ?_
  show e ∈ withoutDefaults _ _ ↔ e ∈ withoutDefaults _ _
  rw [mem_withoutDefaults, mem_withoutDefaults, mem_entries_iff, mem_entries_iff, mem_entries_iff,
    h.get?_merge, Option.or_eq_some_iff]
  constructor
  · rintro ⟨he | ⟨-, he⟩, hne⟩
    · exact ⟨he, hne⟩
    · exact absurd he hne
  · rintro ⟨he, hne⟩
    exact ⟨.inl he, hne⟩

/-- Putting a set on top of another adds nothing to its entries exactly if it has all
    the keys of the other. -/
theorem Proper.entries_merge_eq_iff (h : a.Proper) (d : Attributes o) :
    (d.merge a).entries = a.entries ↔ ∀ k, (d.get? k).isSome → (a.get? k).isSome := by
  constructor
  · -- A key of the set below is among the entries, which are those of the set on top.
    intro heq k hk
    obtain ⟨s, hs⟩ : ∃ s, (d.merge a).get? k = some s := by
      rw [h.get?_merge]
      exact Option.isSome_iff_exists.1 (by rw [Option.isSome_or, hk, Bool.or_true])
    have hmem := mem_entries_iff (e := (k, s)).2 hs
    rw [heq] at hmem
    rw [mem_entries_iff.1 hmem]
    rfl
  · intro hsub
    refine Dict.entries_ext (d.merge a).texts.sorted a.texts.sorted fun e => ?_
    show e ∈ (d.merge a).entries ↔ e ∈ a.entries
    rw [mem_entries_iff, mem_entries_iff, h.get?_merge]
    cases ha : a.get? e.1 with
    | some s => rfl
    | none =>
      have hd : d.get? e.1 = none := by
        refine Option.eq_none_iff_forall_ne_some.2 fun s hs => ?_
        have := hsub e.1 (by rw [hs]; rfl)
        rw [ha] at this
        cases this
      rw [hd]
      rfl

/-! ### The sets that reading makes -/

theorem proper_empty : (∅ : Attributes o).Proper where
  isFinite := nofun
  unknown := nofun

theorem Proper.putCustom (h : a.Proper) {key : String} (ht : o.typeOf? key = none)
    (text : String) : (a.putCustom key text).Proper where
  isFinite := h.isFinite
  unknown k s hs := by
    have hs : (a.custom.insert key text).get? k = some s := hs
    rw [Dict.get?_insert] at hs
    split at hs
    · next hk => rw [hk, ht]
    · exact h.unknown k s hs

theorem Proper.put (h : a.Proper) {key : String} {v : Value} (hv : v.IsFinite)
    (ht : o.typeOf? key = some v.type) : (a.put key v ht).Proper where
  isFinite k w hw := by
    have hw : (a.typed.insert key v).get? k = some w := hw
    rw [Dict.get?_insert] at hw
    split at hw
    · cases hw
      exact hv
    · exact h.isFinite k w hw
  unknown := h.unknown

theorem Proper.assign (h : a.Proper) (key text : String) : (a.assign key text).Proper := by
  rw [Attributes.assign]
  cases ht : o.typeOf? key with
  | none =>
    rw [set_of_unknown ht]
    exact h.putCustom ht text
  | some t =>
    rcases set_of_known ht a text with ⟨v, hv, hread, hset⟩ | ⟨m, -, hset⟩
    · rw [hset]
      exact h.put (ValueType.isFinite_of_read hread) hv
    · rw [hset]
      exact h

theorem Proper.assignAll (h : a.Proper) (pairs : List (String × String)) :
    (a.assignAll pairs).Proper := by
  induction pairs generalizing a with
  | nil => exact h
  | cons e pairs ih => exact ih (h.assign e.1 e.2)

theorem Unhidden.merge (hd : d.Unhidden) (ha : a.Unhidden) : (d.merge a).Unhidden := by
  intro k s hs
  rw [custom_get?_merge, Option.or_eq_some_iff] at hs
  rcases hs with hs | ⟨-, hs⟩
  · exact ha k s hs
  · exact hd k s hs

theorem Proper.merge (hd : d.Proper) (ha : a.Proper) : (d.merge a).Proper where
  isFinite k v hv := by
    rw [typed_get?_merge, Option.or_eq_some_iff] at hv
    rcases hv with hv | ⟨-, hv⟩
    · exact ha.isFinite k v hv
    · exact hd.isFinite k v hv
  unknown := Unhidden.merge hd.unknown ha.unknown

/-- The sets that come of the empty one, by assigning texts and putting sets on top. -/
inductive Built : Attributes o → Prop
  | empty : Built ∅
  | set {a b : Attributes o} {key text : String} : Built a → a.set key text = .ok b → Built b
  | merge {a b : Attributes o} : Built a → Built b → Built (a.merge b)

theorem Built.assign (h : a.Built) (key text : String) : (a.assign key text).Built := by
  rw [Attributes.assign]
  cases hset : a.set key text with
  | ok b => exact .set h hset
  | error e => exact h

theorem Built.assignAll (h : a.Built) (pairs : List (String × String)) :
    (a.assignAll pairs).Built := by
  induction pairs generalizing a with
  | nil => exact h
  | cons e pairs ih => exact ih (h.assign e.1 e.2)

/-- Such sets are proper. -/
theorem Built.proper (h : a.Built) : a.Proper := by
  induction h with
  | empty => exact proper_empty
  | @set a b key text _ hset ih =>
    have assigned : a.assign key text = b := by rw [Attributes.assign, hset]
    exact assigned ▸ ih.assign key text
  | merge _ _ iha ihb => exact iha.merge ihb

end Attributes

end DotLang
