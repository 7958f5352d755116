import DotLang.Attribute.Dict
import DotLang.Attribute.Owner

/-!
# Sets of attributes

A set of attributes holds typed values for the keys that its owner knows and free
texts for any keys. The two are independent: a free text may sit under a known
key, but then the typed value hides it wherever the set is read or written.

* `Attributes.set`: assigning a text, which may fail to convert;
* `Attributes.merge`: putting the values of one set on top of another;
* `Attributes.entries`: the set as pairs of texts, sorted by key;
* `Attributes.get?_texts`: what is found under a key.
-/

namespace DotLang

/-- An assignment that failed: the text is no value of the type of the key. -/
structure AttributeError where
  key : String
  value : String
  mismatch : Mismatch
  deriving DecidableEq

/-- The message of a failed assignment. -/
def AttributeError.message (e : AttributeError) : String :=
  s!"invalid value \"{e.value}\" for attribute \"{e.key}\": expected a {e.mismatch.expected}"

/-- A set of attributes of the owner `o`. -/
structure Attributes (o : Owner) where
  /-- The values of known keys. -/
  typed : Dict Value := ∅
  /-- The free texts. -/
  custom : Dict String := ∅
  /-- Only known keys have typed values, and these are of the type of the key. -/
  conforms : ∀ k v, typed.get? k = some v → o.typeOf? k = some v.type := by
    intro k v h; cases h

namespace Attributes

variable {o : Owner}

/-- The set without attributes. -/
def empty : Attributes o := {}

instance : EmptyCollection (Attributes o) := ⟨empty⟩

instance : Inhabited (Attributes o) := ⟨empty⟩

instance : DecidableEq (Attributes o) := fun a b =>
  decidable_of_iff (a.typed = b.typed ∧ a.custom = b.custom) <| by
    cases a; cases b; simp

/-- Sets with the same typed values and the same free texts are equal. -/
theorem ext {a b : Attributes o} (typed : a.typed = b.typed) (custom : a.custom = b.custom) :
    a = b := by
  cases a; cases b; cases typed; cases custom; rfl

/-! ### Changing single attributes -/

/-- Gives a known key a value of its type. -/
def put (a : Attributes o) (key : String) (v : Value) (h : o.typeOf? key = some v.type) :
    Attributes o where
  typed := a.typed.insert key v
  custom := a.custom
  conforms k w hw := by
    rw [Dict.get?_insert] at hw
    split at hw
    · next hk => cases hw; rw [hk, h]
    · exact a.conforms k w hw

/-- Gives a key a value of its type. Nothing happens if the owner does not know
    the key or the value is of another type. -/
def put? (a : Attributes o) (key : String) (v : Value) : Attributes o :=
  if h : o.typeOf? key = some v.type then a.put key v h else a

theorem put?_eq {key : String} {v : Value} (h : o.typeOf? key = some v.type) (a : Attributes o) :
    a.put? key v = a.put key v h :=
  dif_pos h

/-- Gives a key a free text. -/
def putCustom (a : Attributes o) (key text : String) : Attributes o :=
  { a with custom := a.custom.insert key text }

/-- Takes the typed value of a key away. -/
def unset (a : Attributes o) (key : String) : Attributes o where
  typed := a.typed.erase key
  custom := a.custom
  conforms k v h := by
    rw [Dict.get?_erase] at h
    split at h
    · cases h
    · exact a.conforms k v h

/-- Assigns a text to a key. Under a known key it is converted to a value of the
    type of the key, and any other key takes it as it is. -/
def set (a : Attributes o) (key text : String) : Except AttributeError (Attributes o) :=
  match ht : o.typeOf? key with
  | none => .ok (a.putCustom key text)
  | some t =>
    match hv : t.read text with
    | .ok v => .ok (a.put key v (by rw [ht, ValueType.type_of_read hv]))
    | .error m => .error ⟨key, text, m⟩

/-- Assigns texts to keys, one after the other, up to the first failure. The
    assignments before it stay. -/
def setUntil (a : Attributes o) : List (String × String) → Attributes o × Option AttributeError
  | [] => (a, none)
  | (key, text) :: pairs =>
    match a.set key text with
    | .ok b => b.setUntil pairs
    | .error e => (a, some e)

/-- Assigns texts to keys, one after the other, if none of them fails. -/
def setAll (a : Attributes o) (pairs : List (String × String)) :
    Except AttributeError (Attributes o) :=
  match a.setUntil pairs with
  | (b, none) => .ok b
  | (_, some e) => .error e

/-- The set that a list of assignments builds. -/
def ofPairs (pairs : List (String × String)) : Except AttributeError (Attributes o) :=
  empty.setAll pairs

/-- Assigns a text to a key, unless it does not convert. -/
def assign (a : Attributes o) (key text : String) : Attributes o :=
  match a.set key text with
  | .ok b => b
  | .error _ => a

/-- Assigns texts to keys, one after the other. Those that do not convert are left
    out. -/
def assignAll (a : Attributes o) (pairs : List (String × String)) : Attributes o :=
  pairs.foldl (fun a pair => a.assign pair.1 pair.2) a

/-! ### Sets as templates -/

/-- The attributes of both sets, those of `b` where both have one. -/
def merge (a b : Attributes o) : Attributes o where
  typed := a.typed.merge b.typed
  custom := a.custom.merge b.custom
  conforms k v h := by
    rw [Dict.get?_merge] at h
    cases hb : b.typed.get? k with
    | some w => rw [hb] at h; cases h; exact b.conforms k _ hb
    | none => rw [hb] at h; exact a.conforms k v h

/-- Equality of sets, numbers being compared as numbers. -/
def same (a b : Attributes o) : Bool :=
  a.typed.entries.length == b.typed.entries.length &&
    (a.typed.entries.zip b.typed.entries).all (fun (d, e) => d.1 == e.1 && d.2.same e.2) &&
    a.custom == b.custom

/-! ### Sets as text -/

/-- The attributes as texts. A typed value hides the free text of its key. -/
def texts (a : Attributes o) : Dict String :=
  a.custom.merge (a.typed.map Value.toText)

/-- The attributes as pairs of key and text, sorted by key. -/
def entries (a : Attributes o) : List (String × String) := a.texts.entries

/-- The text of an attribute. -/
def get? (a : Attributes o) (key : String) : Option String := a.texts.get? key

/-- Whether there is no attribute. -/
def isEmpty (a : Attributes o) : Bool := a.entries.isEmpty

/-- Under a key is the text of its typed value, and else the free text. -/
theorem get?_texts (a : Attributes o) (key : String) :
    a.get? key = ((a.typed.get? key).map Value.toText).or (a.custom.get? key) := by
  rw [get?, texts, Dict.get?_merge, Dict.get?_map]

/-- The entries without those that are also among the defaults. -/
def withoutDefaults (entries defaults : List (String × String)) : List (String × String) :=
  entries.filter fun e => !defaults.contains e

end Attributes

end DotLang
