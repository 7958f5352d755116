import DotLang.Attribute.Attributes

/-!
# Field by field

How sets of attributes are worked on in place. A text is assigned to a field by its key, after
the text has been converted, and this may fail. Putting a set on top of another copies one field
after the other, and writing a set down collects one field after the other. Each of the three
has a list of keys of its own, and words are found in tables apart from their names.

* `Word.ofName`: the word that a table has under a name;
* `Attributes.attempt`, `Attributes.attempts`: an assignment, and any number of them;
* `Attributes.copyAll`: putting a set on top;
* `Attributes.collect`: the entries.
-/

namespace DotLang

/-! ### Tables of words -/

/-- A vocabulary with a table in which its words are found by their names. -/
class Spelled (κ : Type) [Vocabulary κ] where
  /-- The names, each with its word. -/
  spellings : List (String × κ)
  lookup_name : ∀ k : κ, spellings.lookup (Vocabulary.name k) = some k
  name_of_mem : ∀ e ∈ spellings, Vocabulary.name e.2 = e.1

instance : Spelled Shape where
  spellings :=
    [("box", .box), ("rect", .rect), ("square", .square), ("ellipse", .ellipse), ("oval", .oval),
     ("circle", .circle), ("doublecircle", .doubleCircle), ("point", .point), ("egg", .egg),
     ("triangle", .triangle), ("invtriangle", .invTriangle), ("diamond", .diamond),
     ("trapezium", .trapezium), ("parallelogram", .parallelogram), ("house", .house),
     ("pentagon", .pentagon), ("hexagon", .hexagon), ("octagon", .octagon), ("plain", .plain),
     ("plaintext", .plainText), ("none", .none), ("note", .note), ("tab", .tab),
     ("folder", .folder), ("box3d", .box3d), ("component", .component), ("cylinder", .cylinder),
     ("star", .star), ("underline", .underline), ("record", .record), ("Mrecord", .mRecord)]
  lookup_name k := by cases k <;> decide
  name_of_mem := by decide

instance : Spelled EdgeStyle where
  spellings :=
    [("solid", .solid), ("dashed", .dashed), ("dotted", .dotted), ("bold", .bold),
     ("invis", .invis), ("tapered", .tapered)]
  lookup_name k := by cases k <;> decide
  name_of_mem := by decide

instance : Spelled ArrowType where
  spellings :=
    [("normal", .normal), ("inv", .inv), ("dot", .dot), ("invdot", .invDot), ("odot", .oDot),
     ("invodot", .invODot), ("none", .none), ("tee", .tee), ("empty", .empty),
     ("invempty", .invEmpty), ("diamond", .diamond), ("odiamond", .oDiamond),
     ("ediamond", .eDiamond), ("crow", .crow), ("box", .box), ("obox", .oBox), ("open", .open),
     ("halfopen", .halfOpen), ("vee", .vee)]
  lookup_name k := by cases k <;> decide
  name_of_mem := by decide

instance : Spelled RankDir where
  spellings :=
    [("TB", .topToBottom), ("LR", .leftToRight), ("BT", .bottomToTop), ("RL", .rightToLeft)]
  lookup_name k := by cases k <;> decide
  name_of_mem := by decide

instance : Spelled Splines where
  spellings :=
    [("none", .none), ("line", .line), ("polyline", .polyline), ("curved", .curved),
     ("ortho", .ortho), ("spline", .spline)]
  lookup_name k := by cases k <;> decide
  name_of_mem := by decide

instance : Spelled Rank where
  spellings :=
    [("same", .same), ("min", .min), ("max", .max), ("source", .source), ("sink", .sink)]
  lookup_name k := by cases k <;> decide
  name_of_mem := by decide

/-- The word that the table has under a name, or the name itself if it has none. -/
def Word.ofName {κ : Type} [Vocabulary κ] [Spelled κ] (s : String) : Word κ :=
  match h : (Spelled.spellings (κ := κ)).lookup s with
  | some k => .known k
  | none => .other s fun k hk => by
    rw [← hk, Spelled.lookup_name] at h
    cases h

/-- Converts a text to a value, looking words up in their tables. -/
def ValueType.convert : ValueType → String → Except Mismatch Value
  | shape, s => .ok (.shape (.ofName s))
  | edgeStyle, s => .ok (.edgeStyle (.ofName s))
  | arrowType, s => .ok (.arrowType (.ofName s))
  | rankDir, s => .ok (.rankDir (.ofName s))
  | splines, s => .ok (.splines (.ofName s))
  | rank, s => .ok (.rank (.ofName s))
  | t, s => t.read s

/-! ### Lists of keys -/

namespace Owner

/-- The keys of the fields that are copied when a set is put on top of another. -/
def copied : Owner → List String
  | node => ["shape", "label", "color", "fillcolor", "fontname", "fontsize"]
  | edge => ["label", "color", "style", "arrowhead", "arrowtail", "weight"]
  | graph =>
    ["label", "rankdir", "bgcolor", "fontname", "fontsize", "splines", "nodesep", "ranksep",
     "compound"]
  | subgraph =>
    ["label", "color", "fillcolor", "bgcolor", "style", "fontname", "fontsize", "rank"]

/-- The keys of the fields that are written down. -/
def written : Owner → List String
  | node => ["shape", "label", "color", "fillcolor", "fontname", "fontsize"]
  | edge => ["label", "color", "style", "arrowhead", "arrowtail", "weight"]
  | graph =>
    ["label", "rankdir", "bgcolor", "fontname", "fontsize", "splines", "nodesep", "ranksep",
     "compound"]
  | subgraph =>
    ["label", "color", "fillcolor", "bgcolor", "style", "fontname", "fontsize", "rank"]

/-- The keys that are known. -/
theorem mem_keys_iff {o : Owner} {key : String} :
    key ∈ o.schema.map Prod.fst ↔ (o.typeOf? key).isSome := by
  rw [typeOf?, List.lookup_isSome_iff, List.mem_map]
  constructor
  · rintro ⟨field, hmem, rfl⟩
    exact ⟨field, hmem, beq_self_eq_true _⟩
  · rintro ⟨field, hmem, hkey⟩
    exact ⟨field, hmem, (eq_of_beq hkey).symm⟩

/-- All fields are copied. -/
theorem copied_eq (o : Owner) : o.copied = o.schema.map Prod.fst := by
  cases o <;> rfl

/-- All fields are written down. -/
theorem written_eq (o : Owner) : o.written = o.schema.map Prod.fst := by
  cases o <;> rfl

end Owner

namespace Attributes

variable {o : Owner}

/-! ### Assigning -/

/-- What changes a set of attributes in place and may fail. What was changed before a failure
    stays changed. -/
abbrev Change (o : Owner) := ExceptT AttributeError (StateM (Attributes o))

/-- The value that a text is converted to for a key. -/
def converted (key : String) (t : ValueType) (text : String) : Change o Value :=
  match t.convert text with
  | .ok v => pure v
  | .error m => throw ⟨key, text, m⟩

/-- Assigns a text to a key. -/
def assigning (key text : String) : Change o Unit :=
  match o.typeOf? key with
  | some t => do
    let v ← converted key t text
    modify (·.put? key v)
  | none => modify (·.putCustom key text)

/-- What comes of assigning a text to a key of the set, and the set then. -/
def attempt (a : Attributes o) (key text : String) : Except AttributeError Unit × Attributes o :=
  assigning key text a

/-- What comes of assignments one after the other, whether or not those before have failed, and
    the set after all of them. -/
def attempts (a : Attributes o) :
    List (String × String) → List (Except AttributeError Unit) × Attributes o
  | [] => ([], a)
  | (key, text) :: pairs =>
    let first := a.attempt key text
    let later := first.2.attempts pairs
    (first.1 :: later.1, later.2)

/-! ### Putting a set on top -/

/-- Copies the field of a key from another set, if it has a value there. -/
def copyField (b a : Attributes o) (key : String) : Attributes o :=
  match b.typed.get? key with
  | some v => a.put? key v
  | none => a

/-- Copies all fields of the set `b`, and then its free texts. -/
def copyAll (a b : Attributes o) : Attributes o :=
  b.custom.entries.foldl (fun c e => c.putCustom e.1 e.2) (o.copied.foldl b.copyField a)

/-! ### Writing down -/

/-- The fields that have a value, as texts. -/
def fields (a : Attributes o) : List (String × String) :=
  o.written.filterMap fun key => (a.typed.get? key).map fun v => (key, v.toText)

/-- Adds a free text to what was found, unless there is something under its key. -/
def addFree (found : List (String × String)) (e : String × String) : List (String × String) :=
  if found.any (·.1 == e.1) then found else found ++ [e]

/-- The fields and the free texts that no field hides, sorted by key. -/
def collect (a : Attributes o) : List (String × String) :=
  (a.custom.entries.foldl addFree a.fields).mergeSort fun e f => e.1 ≤ f.1

end Attributes

end DotLang
