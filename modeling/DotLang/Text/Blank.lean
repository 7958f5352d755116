import DotLang.Text.CodePoint

/-!
# White space

The characters with the Unicode property White_Space. They separate tokens and
may surround the text of a number.

* `isBlank`: the property, for every character;
* `trimBlank`: a text without the white space at its two ends.
-/

namespace DotLang

/-- The ranges of the property White_Space. -/
def blankRanges : List (Nat × Nat) :=
  [(0x9, 0xd), (0x20, 0x20), (0x85, 0x85), (0xa0, 0xa0), (0x1680, 0x1680), (0x2000, 0x200a),
   (0x2028, 0x2029), (0x202f, 0x202f), (0x205f, 0x205f), (0x3000, 0x3000)]

/-- Whether a character is white space. -/
def isBlank (c : Char) : Bool :=
  inRanges blankRanges c

/-- The text without the white space at its two ends. -/
def trimBlank (cs : List Char) : List Char :=
  ((cs.dropWhile isBlank).reverse.dropWhile isBlank).reverse

/-- A text that neither starts nor ends with white space is its own trimmed
    text. -/
theorem trimBlank_eq_self {cs : List Char} (h₁ : ∀ c ∈ cs.head?, isBlank c = false)
    (h₂ : ∀ c ∈ cs.getLast?, isBlank c = false) : trimBlank cs = cs := by
  have drop : ∀ l : List Char, (∀ c ∈ l.head?, isBlank c = false) → l.dropWhile isBlank = l := by
    intro l hl
    cases l with
    | nil => rfl
    | cons c l => simp [hl c (by simp)]
  rw [trimBlank, drop cs h₁, drop cs.reverse (by simpa using h₂), List.reverse_reverse]

end DotLang
