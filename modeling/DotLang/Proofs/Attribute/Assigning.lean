import Mathlib.Data.List.Induction
import DotLang.Attribute.Fields
import DotLang.Proofs.Attribute.Texts

/-!
# Assigning to keys

Texts are assigned to the keys of a set one after the other. Some assignments fail, and these leave
no trace. Of the others the last one to a key decides what is found under it, so nothing depends
on the order of assignments to different keys.

* `Owner.canonical?`: what is found under a key after a text has been assigned to it;
* `Attributes.attempt_eq`, `Attributes.attempts_snd`: assigning in place;
* `Attributes.typed_attempts`, `Attributes.custom_attempts`: a set after any number of assignments;
* `Attributes.attempts_assign`: the laws of assignments.
-/

namespace DotLang

/-! ### Conversions -/

/-- The text that is found under a key after a text has been assigned to it, if it can be
    assigned. Numbers and flags have a text of their own, and all else is found as it was given. -/
def Owner.canonical? (o : Owner) (key text : String) : Option String :=
  match o.typeOf? key with
  | some .number => (Number.ofText? text).map Number.text
  | some .flag =>
    if trueTexts.contains text then some "true"
    else if falseTexts.contains text then some "false"
    else none
  | _ => some text

/-- Each name is found in the table as the text of its word. -/
theorem Word.text_ofName {κ : Type} [Vocabulary κ] [Spelled κ] (s : String) :
    (ofName s : Word κ).text = s := by
  rw [ofName]
  split
  · next k h =>
    obtain ⟨before, after, heq, -⟩ := List.lookup_eq_some_iff.1 h
    exact Spelled.name_of_mem (s, k) (by rw [heq]; simp)
  · rfl

/-- The table has the same words as the vocabulary. -/
theorem Word.ofName_eq {κ : Type} [Vocabulary κ] [Spelled κ] (s : String) :
    (ofName s : Word κ) = ofText s :=
  text_injective (by rw [text_ofName, text_ofText])

/-- It makes no difference where the words are looked up. -/
theorem ValueType.convert_eq (t : ValueType) (s : String) : t.convert s = t.read s := by
  cases t <;> simp only [convert, read, Word.ofName_eq]

/-- What a text is read as is written as its canonical text. -/
theorem Owner.map_toText_value? {o : Owner} {key : String} {t : ValueType}
    (ht : o.typeOf? key = some t) (text : String) :
    (o.value? key text).map Value.toText = o.canonical? key text := by
  rw [value?, canonical?, ht, Option.bind_some]
  cases t with
  | number =>
    show (ValueType.number.read text).toOption.map _ = _
    rw [ValueType.read]
    cases Number.ofText? text <;> rfl
  | flag =>
    show (ValueType.flag.read text).toOption.map _ = _
    rw [ValueType.read]
    split
    · rfl
    · split <;> rfl
  | text => rfl
  | _ => exact congrArg some (Word.text_ofText text)

/-- Everything can be assigned to a key that is not known. -/
theorem Owner.canonical?_of_unknown {o : Owner} {key : String} (ht : o.typeOf? key = none)
    (text : String) : o.canonical? key text = some text := by
  rw [canonical?, ht]

namespace Attributes

variable {o : Owner} {a : Attributes o} {pairs : List (String × String)} {k : String}

/-! ### One assignment in place -/

/-- In place or not, assigning does the same, and nothing if it fails. -/
theorem attempt_eq (a : Attributes o) (key text : String) : a.attempt key text =
    match a.set key text with
    | .ok b => (.ok (), b)
    | .error e => (.error e, a) := by
  rw [attempt, assigning]
  cases ht : o.typeOf? key with
  | none =>
    rw [set_of_unknown ht]
    rfl
  | some t =>
    show (converted key t text >>= fun v => modify (·.put? key v) : Change o Unit) a = _
    rcases set_of_known ht a text with ⟨v, h, hv, hset⟩ | ⟨m, hm, hset⟩
    · have conversion : converted (o := o) key t text = pure v := by
        rw [converted, t.convert_eq, hv]
      rw [hset, conversion, ← put?_eq h]
      rfl
    · have conversion : converted (o := o) key t text = throw ⟨key, text, m⟩ := by
        rw [converted, t.convert_eq, hm]
      rw [hset, conversion]
      rfl

theorem attempt_snd (a : Attributes o) (key text : String) :
    (a.attempt key text).2 = a.assign key text := by
  rw [attempt_eq, assign]
  cases a.set key text <;> rfl

/-- An assignment succeeds if the text has a canonical text under the key. -/
theorem isOk_attempt (a : Attributes o) (key text : String) :
    (a.attempt key text).1.isOk = (o.canonical? key text).isSome := by
  rw [attempt_eq]
  cases ht : o.typeOf? key with
  | none =>
    rw [set_of_unknown ht, Owner.canonical?_of_unknown ht]
    rfl
  | some t =>
    rw [← Owner.map_toText_value? ht, Owner.value?, ht, Option.bind_some]
    rcases set_of_known ht a text with ⟨v, h, hv, hset⟩ | ⟨m, hm, hset⟩
    · rw [hset, hv]
      rfl
    · rw [hset, hm]
      rfl

/-- An assignment that fails says of what, and leaves the set as it was. -/
theorem attempt_failed {key text : String} {e : AttributeError}
    (h : (a.attempt key text).1 = .error e) :
    e.key = key ∧ e.value = text ∧ (a.attempt key text).2 = a := by
  rw [attempt_eq] at h ⊢
  cases ht : o.typeOf? key with
  | none =>
    rw [set_of_unknown ht] at h
    cases h
  | some t =>
    rcases set_of_known ht a text with ⟨v, hv, -, hset⟩ | ⟨m, -, hset⟩
    · rw [hset] at h
      cases h
    · rw [hset] at h ⊢
      cases h
      exact ⟨rfl, rfl, rfl⟩

/-! ### Many assignments -/

/-- The set after assignments in place. -/
theorem attempts_snd (a : Attributes o) (pairs : List (String × String)) :
    (a.attempts pairs).2 = a.assignAll pairs := by
  induction pairs generalizing a with
  | nil => rfl
  | cons pair pairs ih =>
    show ((a.attempt pair.1 pair.2).2.attempts pairs).2 = (a.assign pair.1 pair.2).assignAll pairs
    rw [ih, attempt_snd]

/-- The assignments that have succeeded. -/
def succeeded (a : Attributes o) (pairs : List (String × String)) : List (String × String) :=
  ((pairs.zip (a.attempts pairs).1).filter (·.2.isOk)).map Prod.fst

/-- Whether an assignment succeeds does not depend on those before. -/
theorem succeeded_eq (a : Attributes o) (pairs : List (String × String)) :
    a.succeeded pairs = pairs.filter fun p => (o.canonical? p.1 p.2).isSome := by
  induction pairs generalizing a with
  | nil => rfl
  | cons pair pairs ih =>
    have later := ih (a.attempt pair.1 pair.2).2
    rw [succeeded] at later ⊢
    rw [List.filter_cons, ← later, ← a.isOk_attempt]
    show (((pair, (a.attempt pair.1 pair.2).1) :: _).filter _).map _ = _
    rw [List.filter_cons]
    split <;> rfl

/-- Only assignments that were made have succeeded. -/
theorem succeeded_subset (a : Attributes o) (pairs : List (String × String)) :
    a.succeeded pairs ⊆ pairs := by
  rw [succeeded_eq]
  exact List.filter_sublist.subset

/-- The text that was given last to a key. -/
def lastText? (pairs : List (String × String)) (key : String) : Option String :=
  pairs.reverse.lookup key

theorem lastText?_concat (pairs : List (String × String)) (pair : String × String) (k : String) :
    lastText? (pairs ++ [pair]) k = if k = pair.1 then some pair.2 else lastText? pairs k := by
  rw [lastText?, List.reverse_append]
  show List.lookup k (pair :: pairs.reverse) = _
  rw [List.lookup_cons]
  cases hk : k == pair.1 with
  | true => rw [if_pos (eq_of_beq hk)]
  | false => rw [if_neg (beq_eq_false_iff_ne.1 hk), lastText?]

theorem mem_of_lastText? {s : String} (h : lastText? pairs k = some s) : (k, s) ∈ pairs := by
  obtain ⟨before, after, heq, -⟩ := List.lookup_eq_some_iff.1 h
  rw [← List.mem_reverse, heq]
  simp

theorem lastText?_eq_none (h : k ∉ pairs.map Prod.fst) : lastText? pairs k = none :=
  Option.eq_none_iff_forall_ne_some.2 fun _ hs =>
    h (List.mem_map_of_mem (f := Prod.fst) (mem_of_lastText? hs))

/-- Of two texts that are given to different keys it makes no difference which one is the last. -/
theorem lastText?_swap {p q : String × String} (h : p.1 ≠ q.1) (k : String) :
    lastText? [p, q] k = lastText? [q, p] k := by
  show lastText? (([] ++ [p]) ++ [q]) k = lastText? (([] ++ [q]) ++ [p]) k
  rw [lastText?_concat, lastText?_concat, lastText?_concat, lastText?_concat]
  by_cases hq : k = q.1
  · rw [if_pos hq, if_pos hq, if_neg fun hp => h (hp.symm.trans hq)]
  · rw [if_neg hq, if_neg hq]

/-- What was given last to a key, with success, has a canonical text there. -/
theorem exists_canonical? {s : String} (h : lastText? (a.succeeded pairs) k = some s) :
    ∃ t, o.canonical? k s = some t := by
  have accepted := mem_of_lastText? h
  rw [succeeded_eq, List.mem_filter] at accepted
  exact Option.isSome_iff_exists.1 accepted.2

/-- An assignment that fails changes nothing, and one that succeeds counts. -/
theorem succeeded_concat (a : Attributes o) (pairs : List (String × String))
    (pair : String × String) :
    (o.canonical? pair.1 pair.2 = none ∧ a.succeeded (pairs ++ [pair]) = a.succeeded pairs) ∨
      (∃ t, o.canonical? pair.1 pair.2 = some t) ∧
        a.succeeded (pairs ++ [pair]) = a.succeeded pairs ++ [pair] := by
  rw [succeeded_eq, succeeded_eq, List.filter_append]
  cases h : o.canonical? pair.1 pair.2 with
  | none => exact .inl ⟨rfl, by simp [h]⟩
  | some t => exact .inr ⟨⟨t, rfl⟩, by simp [h]⟩

/-- Where only assignments to one key change what is got from a set, the last one to the key that
    has succeeded decides. `f` is what is got after a text has been assigned: either nothing new
    for any text, or something new for each text that can be assigned. -/
theorem last_decides {β : Type} (get : Attributes o → Option β) {f : String → Option β}
    (step : ∀ (a : Attributes o) key text,
      get (a.assign key text) = if k = key then (f text).or (get a) else get a)
    (hf : (∀ s, f s = none) ∨ ∀ s, (f s).isSome = (o.canonical? k s).isSome)
    (a : Attributes o) (pairs : List (String × String)) :
    get (a.attempts pairs).2 = ((lastText? (a.succeeded pairs) k).bind f).or (get a) := by
  rw [attempts_snd]
  induction pairs using List.reverseRecOn with
  | nil => rfl
  | append_singleton pairs pair ih =>
    rw [assignAll_append]
    show get ((a.assignAll pairs).assign pair.1 pair.2) = _
    rw [step, ih]
    by_cases hk : k = pair.1
    · rw [if_pos hk]
      rcases a.succeeded_concat pairs pair with ⟨rejected, same⟩ | ⟨⟨t, accepted⟩, more⟩
      · have nothing : f pair.2 = none := by
          rcases hf with hf | hf
          · exact hf _
          · rw [← Option.not_isSome_iff_eq_none, hf, hk, rejected]
            nofun
        rw [same, nothing, Option.none_or]
      · rw [more, lastText?_concat, if_pos hk, Option.bind_some]
        rcases hf with hf | hf
        · rw [funext hf, Option.bind_fun_none]
          rfl
        · have something : (f pair.2).isSome := by
            rw [hf, hk, accepted]
            rfl
          obtain ⟨y, hy⟩ := Option.isSome_iff_exists.1 something
          rw [hy]
          rfl
    · rw [if_neg hk]
      rcases a.succeeded_concat pairs pair with ⟨-, same⟩ | ⟨-, more⟩
      · rw [same]
      · rw [more, lastText?_concat, if_neg hk]

/-- The fields after assignments. -/
theorem typed_attempts (a : Attributes o) (pairs : List (String × String)) (k : String) :
    (a.attempts pairs).2.typed.get? k =
      ((lastText? (a.succeeded pairs) k).bind (o.value? k)).or (a.typed.get? k) := by
  refine last_decides (fun a => a.typed.get? k) (fun a key text => ?_) ?_ a pairs
  · rw [typed_get?_assign]
    split
    · next hk => rw [hk]
    · rfl
  · cases ht : o.typeOf? k with
    | none => exact .inl fun s => by rw [Owner.value?, ht, Option.bind_none]
    | some t => exact .inr fun s => by rw [← Owner.map_toText_value? ht, Option.isSome_map]

/-- The free texts after assignments: those under keys that are known stay. -/
theorem custom_attempts (a : Attributes o) (pairs : List (String × String)) (k : String) :
    (a.attempts pairs).2.custom.get? k =
      ((lastText? (a.succeeded pairs) k).bind fun s =>
        if o.typeOf? k = none then some s else none).or (a.custom.get? k) := by
  refine last_decides (fun a => a.custom.get? k) (fun a key text => ?_) ?_ a pairs
  · rw [custom_get?_assign]
    split
    · next hk => rw [hk]
    · rfl
  · by_cases ht : o.typeOf? k = none
    · exact .inr fun s => by rw [if_pos ht, Owner.canonical?_of_unknown ht]
    · exact .inl fun s => if_neg ht

theorem get?_attempts_of_last {s : String} (h : lastText? (a.succeeded pairs) k = some s) :
    (a.attempts pairs).2.get? k = o.canonical? k s := by
  rw [get?_texts, typed_attempts, custom_attempts, h, Option.bind_some, Option.bind_some]
  cases ht : o.typeOf? k with
  | none =>
    rw [Owner.value?, ht, Owner.canonical?_of_unknown ht, typed_get?_eq_none _ ht, if_pos rfl]
    rfl
  | some t =>
    obtain ⟨c, hc⟩ := exists_canonical? h
    have text := Owner.map_toText_value? ht s
    rw [hc] at text ⊢
    obtain ⟨v, hv, rfl⟩ := Option.map_eq_some_iff.1 text
    rw [hv]
    rfl

theorem get?_attempts_of_none (h : lastText? (a.succeeded pairs) k = none) :
    (a.attempts pairs).2.get? k = a.get? k := by
  rw [get?_texts, get?_texts, typed_attempts, custom_attempts, h, Option.bind_none,
    Option.bind_none, Option.none_or, Option.none_or]

theorem attempts_congr {pairs' : List (String × String)}
    (h : ∀ k, lastText? (a.succeeded pairs) k = lastText? (a.succeeded pairs') k) :
    (a.attempts pairs).2 = (a.attempts pairs').2 :=
  ext_get? (fun k => by rw [typed_attempts, typed_attempts, h])
    fun k => by rw [custom_attempts, custom_attempts, h]

/-- Two assignments to different keys can change places. -/
theorem attempts_swap (a : Attributes o) {p q : String × String} (h : p.1 ≠ q.1) :
    (a.attempts [p, q]).2 = (a.attempts [q, p]).2 := by
  refine attempts_congr fun k => ?_
  rw [succeeded_eq, succeeded_eq]
  by_cases hp : (o.canonical? p.1 p.2).isSome
  · by_cases hq : (o.canonical? q.1 q.2).isSome
    · simpa [hp, hq] using lastText?_swap h k
    · simp [hp, hq]
  · simp [hp, List.filter_cons]

/-! ### The laws -/

/-- What comes of assigning texts to keys of a set, one after the other. -/
structure Assigns (a : Attributes o) (pairs : List (String × String)) : Prop where
  /-- In place it is the same as anew, step by step and in the end. -/
  inPlace : ∀ key text, a.attempt key text =
    match a.set key text with
    | .ok b => (.ok (), b)
    | .error e => (.error e, a)
  assignAll : (a.attempts pairs).2 = a.assignAll pairs
  /-- An assignment succeeds exactly if the text has a canonical text under the key. -/
  isOk : ∀ key text, (a.attempt key text).1.isOk = (o.canonical? key text).isSome
  /-- One that fails says of what, and leaves the set as it was. -/
  failed : ∀ key text e, (a.attempt key text).1 = .error e →
    e.key = key ∧ e.value = text ∧ (a.attempt key text).2 = a
  /-- Under a key is the canonical text of the last one to it that has succeeded. -/
  last : ∀ k s, lastText? (a.succeeded pairs) k = some s →
    ∃ t, o.canonical? k s = some t ∧ (a.attempts pairs).2.get? k = some t
  /-- Without such a one, what was there before is found. -/
  other : ∀ k, lastText? (a.succeeded pairs) k = none → (a.attempts pairs).2.get? k = a.get? k
  /-- There are no more free texts under keys that are known. -/
  custom : ∀ k, o.typeOf? k ≠ none → (a.attempts pairs).2.custom.get? k = a.custom.get? k
  /-- The fields of other keys stay. -/
  typed : ∀ k, k ∉ pairs.map Prod.fst → (a.attempts pairs).2.typed.get? k = a.typed.get? k
  /-- The last ones to each key that have succeeded decide on the set. -/
  determined : ∀ pairs', (∀ k, lastText? (a.succeeded pairs) k = lastText? (a.succeeded pairs') k) →
    (a.attempts pairs).2 = (a.attempts pairs').2
  /-- Those to different keys can change places. -/
  commute : ∀ key text key' text', key ≠ key' →
    (a.attempts [(key, text), (key', text')]).2 = (a.attempts [(key', text'), (key, text)]).2

/-- The laws of assignments, for every set and all texts. -/
theorem attempts_assign (a : Attributes o) (pairs : List (String × String)) :
    a.Assigns pairs where
  inPlace := a.attempt_eq
  assignAll := a.attempts_snd pairs
  isOk := a.isOk_attempt
  failed _ _ _ := attempt_failed
  last _ _ h :=
    let ⟨t, ht⟩ := exists_canonical? h
    ⟨t, ht, (get?_attempts_of_last h).trans ht⟩
  other _ := get?_attempts_of_none
  custom k hk := by
    have nothing : (fun s : String => if o.typeOf? k = none then some s else none) =
        fun _ => none := funext fun _ => if_neg hk
    rw [custom_attempts, nothing, Option.bind_fun_none, Option.none_or]
  typed k hk := by
    have given : k ∉ (a.succeeded pairs).map Prod.fst := fun h =>
      hk (List.map_subset _ (a.succeeded_subset pairs) h)
    rw [typed_attempts, lastText?_eq_none given, Option.bind_none, Option.none_or]
  determined _ := attempts_congr
  commute key text key' text' hne := a.attempts_swap (p := (key, text)) (q := (key', text')) hne

/-- Of assignments to a graph one fails, and one is to a key that is not known. A free text under
    a known key is hidden. -/
theorem attempts_assign_mixed : ∃ (a : Attributes .graph) (pairs : List (String × String)),
    a.entries = [("label", "free")] ∧
    (a.attempts pairs).1.map Except.isOk = [true, true, false, true, true] ∧
    (a.attempts pairs).2.entries =
      [("compound", "true"), ("label", "seen"), ("nodesep", "0.5"), ("zorder", "0.50")] ∧
    (a.attempts pairs).2.custom.get? "label" = some "free" ∧ a.Assigns pairs :=
  ⟨putCustom ∅ "label" "free", [("compound", "T"), ("nodesep", " 0.50"), ("nodesep", "wide"),
    ("zorder", "0.50"), ("label", "seen")], by decide +kernel, by decide +kernel,
    by decide +kernel, by decide +kernel, attempts_assign _ _⟩

end Attributes

end DotLang
