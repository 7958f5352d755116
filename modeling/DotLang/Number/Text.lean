import DotLang.Number.Decimal
import DotLang.Text.Blank

/-!
# The text of numbers

A number is written with as few digits as read back, never with an exponent, and
read from any decimal notation that names a finite number.

* `Number.text`: the text of every number, the infinities and what is no number
  included;
* `Number.ofText?`: reading, with white space allowed at both ends.
-/

namespace DotLang

namespace Number

/-- The text of a number: `14`, `0.5`, `-0`, `inf`. -/
def text (x : Number) : String :=
  if x.isNaN then "NaN"
  else
    let sign := if x.negative then ['-'] else []
    let body := if x.isFinite then (Decimal.shortest x.magnitude).chars else ['i', 'n', 'f']
    String.ofList (sign ++ body)

/-- The number with the given sign that is nearest to a decimal fraction, if
    that is finite. -/
def ofDecimal? (negative : Bool) (d : Decimal) : Option Number :=
  if h : d.magnitude < infinity then
    some ⟨negative, d.magnitude, Nat.lt_trans h (by decide)⟩
  else none

/-- Reads a number from a text without white space around it. -/
def ofChars? : List Char → Option Number
  | '-' :: cs => (Decimal.ofChars? cs).bind (ofDecimal? true)
  | '+' :: cs => (Decimal.ofChars? cs).bind (ofDecimal? false)
  | cs => (Decimal.ofChars? cs).bind (ofDecimal? false)

/-- Reads a finite number from a text that may have white space at its ends. -/
def ofText? (s : String) : Option Number :=
  ofChars? (trimBlank s.toList)

/-- Only finite numbers are read. -/
theorem isFinite_of_ofText? {s : String} {x : Number} (h : ofText? s = some x) :
    x.isFinite = true := by
  have key : ∀ {neg d x}, ofDecimal? neg d = some x → x.isFinite = true := by
    intro neg d x hx
    unfold ofDecimal? at hx
    split at hx
    · next hd => cases hx; simpa [isFinite] using hd
    · cases hx
  unfold ofText? ofChars? at h
  split at h <;>
  · obtain ⟨d, _, hd⟩ := Option.bind_eq_some_iff.1 h
    exact key hd

end Number

end DotLang
