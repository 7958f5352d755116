/-!
# Lines of a text

A newline ends a line, and a carriage return directly before it belongs to the
end. What follows the last newline is a line if it is not empty.

* `splitLines`: the lines of a text, without their ends.
-/

namespace DotLang

/-- Puts a character at the start of the first line. -/
def consLine (c : Char) : List (List Char) → List (List Char)
  | [] => [[c]]
  | line :: lines => (c :: line) :: lines

/-- The lines of a text, without their ends. -/
def splitLines : List Char → List (List Char)
  | [] => []
  | '\r' :: '\n' :: cs => [] :: splitLines cs
  | '\n' :: cs => [] :: splitLines cs
  | c :: cs => consLine c (splitLines cs)

/-- A character is put in front of the first line, a newline is one line more, and a carriage
    return in front of it goes with it. -/
theorem splitLines_cons (c : Char) (cs : List Char) : splitLines (c :: cs) =
    if c = '\n' then [] :: splitLines cs
    else if c = '\r' ∧ cs.head? = some '\n' then splitLines cs
    else consLine c (splitLines cs) := by
  by_cases hc : c = '\n'
  · rw [if_pos hc, hc, splitLines]
  rw [if_neg hc]
  by_cases hend : c = '\r' ∧ cs.head? = some '\n'
  · obtain ⟨rfl, hhead⟩ := hend
    obtain ⟨cs, rfl⟩ := List.head?_eq_some_iff.1 hhead
    rw [if_pos ⟨rfl, rfl⟩, splitLines, splitLines]
  · rw [if_neg hend, splitLines]
    · rintro cs rfl rfl
      exact hend ⟨rfl, rfl⟩
    · exact hc

end DotLang
