import DotLang.Number.Basic

/-!
# Decimal fractions

A decimal fraction is a natural number and a power of ten. It is what the text
of a number denotes before rounding, and what the text of a number is chosen
from.

* `Decimal.magnitude`: the binary magnitude nearest to a decimal fraction;
* `Decimal.shortest`: the decimal fraction of fewest digits that reads back as a
  magnitude, and of these the nearest;
* `Decimal.ofChars?`, `Decimal.chars`: reading and writing, the latter without
  an exponent.
-/

namespace DotLang

/-- The decimal fraction `digits · 10 ^ exponent`. -/
structure Decimal where
  digits : Nat
  exponent : Int
  deriving DecidableEq, Repr

namespace Decimal

/-- The number of decimal digits of a natural number. -/
def width (n : Nat) : Nat := (Nat.toDigits 10 n).length

/-- The exponent within the bounds that matter. Above `400` every positive
    decimal fraction is beyond the finite numbers, and with its digits below
    the point `400` it rounds to zero. -/
def boundedExponent (d : Decimal) : Int :=
  max (min d.exponent 400) (-(400 + width d.digits))

/-- The magnitude nearest to a decimal fraction, at least
    `Number.infinity` if that is too large for a finite number. -/
def magnitude (d : Decimal) : Nat :=
  let e := d.boundedExponent
  Number.nearest (d.digits * 10 ^ e.toNat * 2 ^ 1074) (10 ^ (-e).toNat)

/-- The decimal fraction that equals a magnitude. Each halving that is left of its
    units is a five and a place after the point. -/
def exact (m : Nat) : Decimal :=
  let halvings := 1074 - Number.doublings m
  ⟨Number.significand m * 2 ^ (Number.doublings m - 1074) * 5 ^ halvings, -halvings⟩

/-- The fractions on either side of `d` that are left when its last digits are
    dropped, the nearer one first, in a tie the larger one. -/
def neighbours (d : Decimal) (dropped : Nat) : List Decimal :=
  let low : Decimal := ⟨d.digits / 10 ^ dropped, d.exponent + dropped⟩
  let high : Decimal := ⟨d.digits / 10 ^ dropped + 1, d.exponent + dropped⟩
  if dropped = 0 then [d]
  else if 2 * (d.digits % 10 ^ dropped) < 10 ^ dropped then [low, high]
  else [high, low]

/-- The decimal fraction of fewest digits that reads back as the magnitude `m`,
    and of those the nearest to its value. The exact value stands in if no
    fraction of at most seventeen digits reads back. -/
def shortest (m : Nat) : Decimal :=
  let d := exact m
  let digits := width d.digits
  ((List.range 17).findSome? fun n =>
    (d.neighbours (digits - (n + 1))).find? fun d => d.magnitude == m).getD d

/-- The text of a decimal fraction: its digits in full, and a point with the
    digits after it unless these are all zero. -/
def chars (d : Decimal) : List Char :=
  let places := (-d.exponent).toNat
  let ds := Nat.toDigits 10 d.digits ++ List.replicate d.exponent.toNat '0'
  let ds := List.replicate (places + 1 - ds.length) '0' ++ ds
  let whole := ds.take (ds.length - places)
  let fraction := ((ds.drop (ds.length - places)).reverse.dropWhile (· == '0')).reverse
  if d.digits = 0 then ['0']
  else if fraction.isEmpty then whole
  else whole ++ '.' :: fraction

/-- The number that a list of decimal digits denotes. -/
def digitsValue (ds : List Char) : Nat :=
  ds.foldl (fun n c => 10 * n + (c.toNat - '0'.toNat)) 0

/-- Reads one digit or more, to the end of the text. -/
def digits? (cs : List Char) : Option Nat :=
  if !cs.isEmpty && cs.all Char.isDigit then some (digitsValue cs) else none

/-- Reads digits after an optional sign, to the end of the text. -/
def integer? : List Char → Option Int
  | '-' :: ds => (digits? ds).map fun n => -(n : Int)
  | '+' :: ds => (digits? ds).map fun n => (n : Int)
  | ds => (digits? ds).map fun n => (n : Int)

/-- Reads the power of ten that may end a number: nothing, or the letter `e` in
    either case and an integer. -/
def exponent? : List Char → Option Int
  | [] => some 0
  | c :: cs => if c == 'e' || c == 'E' then integer? cs else none

/-- Reads a decimal fraction without a sign: digits, perhaps with a point before,
    among or after them, and perhaps a power of ten. -/
def ofChars? (cs : List Char) : Option Decimal :=
  let whole := cs.takeWhile Char.isDigit
  let rest := cs.dropWhile Char.isDigit
  let pointed := rest.head? == some '.'
  let fraction := if pointed then rest.tail.takeWhile Char.isDigit else []
  let rest := if pointed then rest.tail.dropWhile Char.isDigit else rest
  if whole.isEmpty && fraction.isEmpty then none
  else (exponent? rest).map fun e => ⟨digitsValue (whole ++ fraction), e - fraction.length⟩

end Decimal

end DotLang
