/-!
# Classes of characters

A class of characters beyond ASCII is a list of ranges of code points, ends
included, in increasing order.

* `inRanges`: membership of a character in such a list.
-/

namespace DotLang

/-- Whether the code point of `c` lies in one of the ranges. -/
def inRanges (ranges : List (Nat × Nat)) (c : Char) : Bool :=
  ranges.any fun r => r.1 ≤ c.toNat && c.toNat ≤ r.2

/-- Membership in a list of ranges, said of one range. -/
theorem inRanges_iff {ranges : List (Nat × Nat)} {c : Char} :
    inRanges ranges c = true ↔ ∃ r ∈ ranges, r.1 ≤ c.toNat ∧ c.toNat ≤ r.2 := by
  simp [inRanges]

end DotLang
