import DotLang.Source.Token

/-!
# Trivia in rounds

A reader that skips trivia piece by piece: in each round it skips one comment or a run of white
space, and it stops after a round that found neither. A comment that the end of the line closes
is skipped without its newline, which is white space for another round. Nothing in the loop
itself says that it stops: it is given a number of rounds, and where it needs more, it is `none`.

* `Cursor.round?`: one round;
* `Cursor.skipRounds`: all rounds.
-/

namespace DotLang

/-- The place behind the next star and slash. `star` says whether the character before was a
    star. -/
def closeComment (star : Bool) : Position → List Char → Cursor
  | p, [] => ⟨p, []⟩
  | p, c :: cs =>
    if star ∧ c = '/' then ⟨p.advance c, cs⟩ else closeComment (c = '*') (p.advance c) cs

namespace Cursor

/-- The place of the next newline. -/
def skipLine (c : Cursor) : Cursor := (scanWhile (· != '\n') c.pos c.rest).2

/-- The place after a comment, if one starts at the cursor. -/
def comment? (c : Cursor) : Option Cursor :=
  match c.rest with
  | '#' :: _ => if c.pos.col = 1 then some c.skipLine else none
  | '/' :: '/' :: _ => some c.skipLine
  | '/' :: '*' :: cs => some (closeComment false ((c.pos.advance '/').advance '*') cs)
  | _ => none

/-- The place after white space, if there is some at the cursor. -/
def blanks? (c : Cursor) : Option Cursor :=
  if c.rest.head?.any isBlank then some (scanWhile isBlank c.pos c.rest).2 else none

/-- The place after a round, if it has skipped something. -/
def round? (c : Cursor) : Option Cursor := c.comment?.or c.blanks?

/-- The place after all rounds, if there are fewer than the number. -/
def skipRounds (n : Nat) (c : Cursor) : Option Cursor :=
  match n with
  | 0 => none
  | n + 1 =>
    match c.round? with
    | some d => d.skipRounds n
    | none => some c

end Cursor

end DotLang
