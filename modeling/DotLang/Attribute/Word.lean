/-!
# Words of a vocabulary

Some attributes take a word out of a fixed vocabulary, such as the name of a
node shape. A text outside of the vocabulary is kept as it is, so that it is
written back unchanged.

* `Word.ofText`, `Word.text`: every text is the text of exactly one word
  (`Word.text_ofText`, `Word.ofText_text`).
-/

namespace DotLang

/-- A finite vocabulary: its words have different names. -/
class Vocabulary (κ : Type) where
  /-- All the words. -/
  all : List κ
  /-- The name of a word. -/
  name : κ → String
  mem_all : ∀ k, k ∈ all
  name_injective : ∀ k l, name k = name l → k = l

/-- A word of the vocabulary `κ`, or a text that names none of them. There is one word for each
    text. If the name of a known word were kept as another text, it would still be written, found
    and put on top like the word: all of this looks at nothing but the text. -/
inductive Word (κ : Type) [Vocabulary κ] where
  /-- A word of the vocabulary. -/
  | known (k : κ)
  /-- Any other text. -/
  | other (text : String) (unknown : ∀ k : κ, Vocabulary.name k ≠ text)
  deriving DecidableEq

namespace Word

variable {κ : Type} [Vocabulary κ]

/-- The text of a word. -/
def text : Word κ → String
  | known k => Vocabulary.name k
  | other s _ => s

/-- The word that a text stands for. -/
def ofText (s : String) : Word κ :=
  match h : (Vocabulary.all (κ := κ)).find? fun k => Vocabulary.name k == s with
  | some k => known k
  | none => other s fun k hk =>
    absurd (List.find?_eq_none.1 h k (Vocabulary.mem_all k)) (by simp [hk])

/-- A text is read as a word of that text. -/
@[simp] theorem text_ofText (s : String) : (ofText s : Word κ).text = s := by
  unfold ofText
  split
  · next k h => exact eq_of_beq (List.find?_some h :)
  · rfl

/-- Words of the same text are equal. -/
theorem text_injective {v w : Word κ} (h : v.text = w.text) : v = w := by
  cases v with
  | known k =>
    cases w with
    | known l => rw [Vocabulary.name_injective k l h]
    | other s hs => exact absurd h (hs k)
  | other s hs =>
    cases w with
    | known l => exact absurd h.symm (hs l)
    | other t ht => cases h; rfl

/-- The text of a word is read as that word. -/
@[simp] theorem ofText_text (w : Word κ) : ofText w.text = w :=
  text_injective (text_ofText w.text)

end Word

end DotLang
