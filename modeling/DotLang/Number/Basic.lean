/-!
# Binary numbers

The numbers that attributes hold: a sign and a magnitude in the binary
floating-point format of 64 bits. A magnitude is the pattern of its 63 bits,
eleven of exponent above fifty-two of fraction, read as a natural number. The
order of magnitudes is the order of the values they stand for, and every value
is a whole number of *units* of `2⁻¹⁰⁷⁴`.

* `Number.units`: the value of a magnitude, in units;
* `Number.below`: the largest magnitude whose value does not exceed a number of
  units;
* `Number.nearest`: the magnitude nearest to a fraction of units, a tie going to
  the even one.
-/

-- The powers in the bounds of the format are those of `Nat` itself, also where another
-- instance for powers is around.
attribute [instance (20000), default_instance 20000] instPowNat

namespace DotLang

/-- A number: a sign and a magnitude. -/
structure Number where
  /-- The sign; zero has one too. -/
  negative : Bool
  /-- The bits of exponent and fraction. -/
  magnitude : Nat
  magnitude_lt : magnitude < 2 ^ 63
  deriving DecidableEq

namespace Number

/-- The magnitude of the infinities. The magnitudes above it are no numbers. -/
def infinity : Nat := 2047 * 2 ^ 52

/-- The number with the given 64 bits, the sign being the highest. -/
def ofBits (bits : Nat) : Number where
  negative := bits / 2 ^ 63 % 2 == 1
  magnitude := bits % 2 ^ 63
  magnitude_lt := Nat.mod_lt _ (by decide)

/-- Whether the number is neither infinite nor a failed computation. -/
def isFinite (x : Number) : Bool := x.magnitude < infinity

/-- Whether the bits stand for no number at all. -/
def isNaN (x : Number) : Bool := infinity < x.magnitude

/-- Numeric equality: the two zeros are equal, and what is no number differs
    from everything. -/
def same (x y : Number) : Bool :=
  !x.isNaN && !y.isNaN && x.magnitude == y.magnitude &&
    (x.negative == y.negative || x.magnitude == 0)

/-- The digits of a magnitude: the fraction, with a leading one if there is an
    exponent. -/
def significand (m : Nat) : Nat := if m < 2 ^ 52 then m else 2 ^ 52 + m % 2 ^ 52

/-- How often the digits of a magnitude are doubled: once less than the exponent
    says. -/
def doublings (m : Nat) : Nat := m / 2 ^ 52 - 1

/-- The value of a magnitude, in units of `2⁻¹⁰⁷⁴`. -/
def units (m : Nat) : Nat := significand m * 2 ^ doublings m

/-- The largest magnitude whose value does not exceed `u` units. The doublings
    are as many as leave 53 digits of `u`. -/
def below (u : Nat) : Nat :=
  (u.log2 - 52) * 2 ^ 52 + u / 2 ^ (u.log2 - 52)

/-- The magnitude whose value is nearest to `num / den` units. A number in the
    middle goes to the even magnitude. -/
def nearest (num den : Nat) : Nat :=
  let m := below (num / den)
  let middle := (units m + units (m + 1)) * den
  if 2 * num < middle then m
  else if middle < 2 * num then m + 1
  else if m % 2 = 0 then m
  else m + 1

end Number

end DotLang
