/-!
# Dictionaries sorted by key

A dictionary is a list of entries whose keys increase strictly in code point
order. Two dictionaries with the same look-ups are therefore equal.

* `Dict.get?_insert`, `Dict.get?_erase`, `Dict.get?_merge`, `Dict.get?_map`: what
  each operation does to look-ups;
* `Dict.mem_entries_iff`: the entries are exactly what look-ups find;
* `Dict.ext_get?`: equal look-ups, equal dictionaries.
-/

namespace DotLang

/-- A dictionary from texts to values of type `β`. -/
structure Dict (β : Type) where
  /-- The entries, in increasing order of their keys. -/
  entries : List (String × β)
  sorted : entries.Pairwise fun a b => a.1 < b.1

namespace Dict

variable {β γ : Type}

/-- The dictionary without entries. -/
def empty : Dict β := ⟨[], .nil⟩

instance : EmptyCollection (Dict β) := ⟨empty⟩

instance : Inhabited (Dict β) := ⟨empty⟩

instance [DecidableEq β] : DecidableEq (Dict β) := fun d e =>
  decidable_of_iff (d.entries = e.entries) <| by
    cases d; cases e; simp

/-- The value of the first entry with the key `k`. -/
def lookup (k : String) : List (String × β) → Option β
  | [] => none
  | e :: es => if k = e.1 then some e.2 else lookup k es

/-- The value of a key. -/
def get? (d : Dict β) (k : String) : Option β := lookup k d.entries

/-- Whether a key has a value. -/
def contains (d : Dict β) (k : String) : Bool := (d.get? k).isSome

/-- Whether there is no entry. -/
def isEmpty (d : Dict β) : Bool := d.entries.isEmpty

/-- Puts an entry in its place among entries sorted by key, instead of an entry
    of the same key if there is one. -/
def insertEntry (k : String) (v : β) : List (String × β) → List (String × β)
  | [] => [(k, v)]
  | e :: es =>
    if k < e.1 then (k, v) :: e :: es
    else if k = e.1 then (k, v) :: es
    else e :: insertEntry k v es

/-- An entry put in is the new one or was there. -/
theorem mem_insertEntry {k : String} {v : β} {e : String × β} {es : List (String × β)}
    (h : e ∈ insertEntry k v es) : e = (k, v) ∨ e ∈ es := by
  induction es with
  | nil => simpa [insertEntry] using h
  | cons a es ih =>
    unfold insertEntry at h
    split at h
    · simpa using h
    · split at h
      · rcases List.mem_cons.1 h with h | h
        · exact .inl h
        · exact .inr (List.mem_cons_of_mem _ h)
      · rcases List.mem_cons.1 h with h | h
        · exact .inr (h ▸ List.mem_cons_self)
        · exact (ih h).imp id (List.mem_cons_of_mem _)

/-- Putting an entry in its place keeps the entries sorted. -/
theorem sorted_insertEntry (k : String) (v : β) {es : List (String × β)}
    (h : es.Pairwise fun a b => a.1 < b.1) :
    (insertEntry k v es).Pairwise fun a b => a.1 < b.1 := by
  induction es with
  | nil => simp [insertEntry]
  | cons a es ih =>
    rw [List.pairwise_cons] at h
    unfold insertEntry
    split
    · next hk =>
      refine List.pairwise_cons.2 ⟨fun b hb => ?_, List.pairwise_cons.2 h⟩
      rcases List.mem_cons.1 hb with rfl | hb
      · exact hk
      · exact String.lt_trans hk (h.1 b hb)
    · split
      · next hk => exact List.pairwise_cons.2 ⟨fun b hb => by rw [hk]; exact h.1 b hb, h.2⟩
      · next hk hne =>
        refine List.pairwise_cons.2 ⟨fun b hb => ?_, ih h.2⟩
        rcases mem_insertEntry hb with rfl | hb
        · show a.1 < k
          grind
        · exact h.1 b hb

/-- The dictionary in which the key `k` has the value `v`. -/
def insert (d : Dict β) (k : String) (v : β) : Dict β :=
  ⟨insertEntry k v d.entries, sorted_insertEntry k v d.sorted⟩

/-- The dictionary in which the key `k` has no value. -/
def erase (d : Dict β) (k : String) : Dict β :=
  ⟨d.entries.filter fun e => e.1 != k, d.sorted.filter _⟩

/-- The entries of both dictionaries, those of `e` where both have one. -/
def merge (d e : Dict β) : Dict β :=
  e.entries.foldl (fun acc entry => acc.insert entry.1 entry.2) d

/-- The dictionary with every value changed by `f`. -/
def map (f : β → γ) (d : Dict β) : Dict γ :=
  ⟨d.entries.map fun e => (e.1, f e.2), List.pairwise_map.2 d.sorted⟩

/-! ### Look-ups -/

/-- The entries are exactly what look-ups find. -/
theorem mem_entries_iff {d : Dict β} {k : String} {v : β} :
    (k, v) ∈ d.entries ↔ d.get? k = some v := by
  obtain ⟨es, hs⟩ := d
  simp only [get?]
  induction es with
  | nil => simp [lookup]
  | cons a es ih =>
    rw [List.pairwise_cons] at hs
    rw [List.mem_cons, lookup, ih hs.2]
    split
    · next hk =>
      constructor
      · rintro (h | h)
        · rw [← h]
        · exact absurd (hs.1 _ ((ih hs.2).2 h)) (hk ▸ String.lt_irrefl _)
      · intro h
        exact .inl (Prod.ext hk (Option.some.inj h).symm)
    · next hk => exact ⟨fun h => h.resolve_left fun h => hk (congrArg Prod.fst h), .inr⟩

/-- A look-up after putting an entry in its place. -/
theorem lookup_insertEntry (k k' : String) (v : β) (es : List (String × β)) :
    lookup k' (insertEntry k v es) = if k' = k then some v else lookup k' es := by
  induction es with
  | nil => rfl
  | cons a es ih => grind [insertEntry, lookup]

@[simp] theorem get?_empty (k : String) : (empty : Dict β).get? k = none := rfl

/-- A key has the value that was put in last. -/
theorem get?_insert (d : Dict β) (k k' : String) (v : β) :
    (d.insert k v).get? k' = if k' = k then some v else d.get? k' :=
  lookup_insertEntry k k' v d.entries

/-- An erased key has no value, and the others keep theirs. -/
theorem get?_erase (d : Dict β) (k k' : String) :
    (d.erase k).get? k' = if k' = k then none else d.get? k' := by
  ext v
  rw [← mem_entries_iff]
  show (k', v) ∈ d.entries.filter _ ↔ _
  rw [List.mem_filter, mem_entries_iff]
  by_cases h : k' = k <;> simp [h]

/-- The value in the dictionary put on top, if there is one, else the value
    below. -/
theorem get?_merge (d e : Dict β) (k : String) :
    (d.merge e).get? k = (e.get? k).or (d.get? k) := by
  obtain ⟨es, hs⟩ := e
  induction es generalizing d with
  | nil => rfl
  | cons a es ih =>
    rw [List.pairwise_cons] at hs
    have tail := ih (d.insert a.1 a.2) hs.2
    rw [get?_insert] at tail
    show (Dict.merge (d.insert a.1 a.2) ⟨es, hs.2⟩).get? k = _
    rw [tail]
    show (lookup k es).or _ = (if k = a.1 then some a.2 else lookup k es).or _
    split
    · next hk =>
      -- No later entry has the key of the first one.
      have none_later : lookup k es = none := by
        cases hv : lookup k es with
        | none => rfl
        | some v =>
          have later := (mem_entries_iff (d := ⟨es, hs.2⟩)).2 hv
          exact absurd (hs.1 _ later) (hk ▸ String.lt_irrefl _)
      rw [none_later]
      rfl
    · rfl

/-- A look-up in a changed dictionary. -/
theorem get?_map (f : β → γ) (d : Dict β) (k : String) :
    (d.map f).get? k = (d.get? k).map f := by
  obtain ⟨es, hs⟩ := d
  simp only [map, get?]
  clear hs
  induction es with
  | nil => rfl
  | cons a es ih => grind [lookup]

/-- Sorted entries with the same members are the same list. -/
theorem entries_ext {es fs : List (String × β)} (he : es.Pairwise fun a b => a.1 < b.1)
    (hf : fs.Pairwise fun a b => a.1 < b.1) (h : ∀ e, e ∈ es ↔ e ∈ fs) : es = fs := by
  induction es generalizing fs with
  | nil =>
    cases fs with
    | nil => rfl
    | cons b fs => exact absurd ((h b).2 List.mem_cons_self) (by simp)
  | cons a es ih =>
    cases fs with
    | nil => exact absurd ((h a).1 List.mem_cons_self) (by simp)
    | cons b fs =>
      rw [List.pairwise_cons] at he hf
      -- Each head is a member of the other list, so neither is smaller.
      have hab : a = b := by
        rcases List.mem_cons.1 ((h a).1 List.mem_cons_self) with hab | ha
        · exact hab
        · rcases List.mem_cons.1 ((h b).2 List.mem_cons_self) with hba | hb
          · exact hba.symm
          · exact absurd (hf.1 a ha) (String.lt_asymm (he.1 b hb))
      subst hab
      refine congrArg (a :: ·) (ih he.2 hf.2 fun e => ⟨fun hm => ?_, fun hm => ?_⟩)
      · refine (List.mem_cons.1 ((h e).1 (List.mem_cons_of_mem _ hm))).resolve_left ?_
        rintro rfl
        exact String.lt_irrefl _ (he.1 e hm)
      · refine (List.mem_cons.1 ((h e).2 (List.mem_cons_of_mem _ hm))).resolve_left ?_
        rintro rfl
        exact String.lt_irrefl _ (hf.1 e hm)

/-- Dictionaries with the same look-ups are equal. -/
theorem ext_get? {d e : Dict β} (h : ∀ k, d.get? k = e.get? k) : d = e := by
  have same : d.entries = e.entries :=
    entries_ext d.sorted e.sorted fun ⟨k, v⟩ => by rw [mem_entries_iff, mem_entries_iff, h]
  cases d; cases e; cases same; rfl

end Dict

end DotLang
