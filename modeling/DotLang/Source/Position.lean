/-!
# Places in a text

A place is a line and a column, both counted from one; columns count
characters. A cursor is a place together with the text that follows it.

* `Position.advance`: the place after one more character;
* `Cursor.Reaches`: one cursor lies further on in the same text than another.
-/

namespace DotLang

/-- A line and a column. -/
structure Position where
  line : Nat
  col : Nat
  deriving DecidableEq, Repr, Inhabited

namespace Position

/-- The place where every text starts. -/
def start : Position := ⟨1, 1⟩

/-- The place after the character `c`. -/
def advance (p : Position) (c : Char) : Position :=
  if c = '\n' then ⟨p.line + 1, 1⟩ else ⟨p.line, p.col + 1⟩

/-- The place after the characters `cs`. -/
def advanceAll (p : Position) (cs : List Char) : Position := cs.foldl advance p

@[simp] theorem advanceAll_nil (p : Position) : p.advanceAll [] = p := rfl

@[simp] theorem advanceAll_cons (p : Position) (c : Char) (cs : List Char) :
    p.advanceAll (c :: cs) = (p.advance c).advanceAll cs := rfl

@[simp] theorem advanceAll_append (p : Position) (cs ds : List Char) :
    p.advanceAll (cs ++ ds) = (p.advanceAll cs).advanceAll ds :=
  List.foldl_append

end Position

/-- A place in a text and the text from there on. -/
structure Cursor where
  pos : Position
  rest : List Char
  deriving DecidableEq, Repr, Inhabited

namespace Cursor

/-- The cursor at the start of a text. -/
def ofText (text : List Char) : Cursor := ⟨.start, text⟩

/-- The text between two cursors is `w`. -/
def Reaches (c : Cursor) (w : List Char) (d : Cursor) : Prop :=
  c.rest = w ++ d.rest ∧ d.pos = c.pos.advanceAll w

theorem Reaches.refl (c : Cursor) : c.Reaches [] c := ⟨rfl, rfl⟩

/-- The texts between cursors add up. -/
theorem Reaches.trans {c d e : Cursor} {v w : List Char} (h₁ : c.Reaches v d)
    (h₂ : d.Reaches w e) : c.Reaches (v ++ w) e := by
  constructor
  · rw [h₁.1, h₂.1, List.append_assoc]
  · rw [h₂.2, h₁.2, Position.advanceAll_append]

end Cursor

end DotLang
