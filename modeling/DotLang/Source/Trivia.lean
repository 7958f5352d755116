import DotLang.Source.Position
import DotLang.Text.Blank

/-!
# Trivia

What may stand between two tokens and has no meaning: white space, comments from
`//` to the end of the line and from `/*` to the next `*/`, and lines that start
with `#`.

* `Cursor.skipTrivia`: the cursor after as much trivia as there is;
* `Cursor.skipTrivia_reaches`: what is skipped is a part of the text.
-/

namespace DotLang

/-- What the text before a cursor has opened. -/
inductive Gap where
  /-- Nothing. -/
  | clear
  /-- A comment that the end of the line closes. -/
  | line
  /-- A comment that a star and a slash close. -/
  | block
  deriving DecidableEq

/-- The first place that is not trivia. A comment that is never closed reaches to
    the end of the text. -/
def Gap.skip : Gap → Position → List Char → Cursor
  | .clear, p, '/' :: '/' :: cs => skip .line ((p.advance '/').advance '/') cs
  | .clear, p, '/' :: '*' :: cs => skip .block ((p.advance '/').advance '*') cs
  | .clear, p, c :: cs =>
    if isBlank c then skip .clear (p.advance c) cs
    else if c = '#' ∧ p.col = 1 then skip .line (p.advance c) cs
    else ⟨p, c :: cs⟩
  | .line, p, c :: cs => skip (if c = '\n' then .clear else .line) (p.advance c) cs
  | .block, p, '*' :: '/' :: cs => skip .clear ((p.advance '*').advance '/') cs
  | .block, p, c :: cs => skip .block (p.advance c) cs
  | _, p, [] => ⟨p, []⟩

/-- What is skipped is a part of the text. -/
theorem Gap.skip_reaches (g : Gap) (p : Position) (cs : List Char) :
    ∃ w, (⟨p, cs⟩ : Cursor).Reaches w (g.skip p cs) := by
  have cons : ∀ {p : Position} {c : Char} {cs : List Char} {d : Cursor},
      (∃ w, (⟨p.advance c, cs⟩ : Cursor).Reaches w d) → ∃ w, (⟨p, c :: cs⟩ : Cursor).Reaches w d :=
    fun ⟨w, h₁, h₂⟩ => ⟨_ :: w, by simp only [List.cons_append]; rw [← h₁], h₂⟩
  fun_induction Gap.skip g p cs with
  | case1 p cs ih => exact cons (cons ih)
  | case2 p cs ih => exact cons (cons ih)
  | case3 p c cs _ _ _ ih => exact cons ih
  | case4 p c cs _ _ _ _ ih => exact cons ih
  | case5 p c cs => exact ⟨[], .refl _⟩
  | case6 p c cs ih => exact cons ih
  | case7 p cs ih => exact cons (cons ih)
  | case8 p c cs _ ih => exact cons ih
  | case9 g p => exact ⟨[], .refl _⟩

namespace Cursor

/-- The cursor after as much trivia as there is. -/
def skipTrivia (c : Cursor) : Cursor := Gap.clear.skip c.pos c.rest

/-- What is skipped is a part of the text. -/
theorem skipTrivia_reaches (c : Cursor) : ∃ w, c.Reaches w c.skipTrivia :=
  Gap.clear.skip_reaches c.pos c.rest

end Cursor

end DotLang
