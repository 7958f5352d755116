import DotLang.Number.Text

/-!
# The text of a number reads back

The text of a number is a decimal fraction that rounds to the number. Rounding
depends on the value of a fraction alone, so it does not matter that the zeros at
the end of the text are left out, and the bounds that reading puts on exponents
are never reached by a text that was written.

* `Number.nearest_eq_of_cross_eq`: equal fractions have the same nearest
  magnitude;
* `Decimal.magnitude_shortest`: the fraction that is written rounds to its
  magnitude;
* `Decimal.exists_ofChars?_chars`: the text of a fraction is read as one that
  rounds alike;
* `Number.ofText?_text`: the text of a finite number is read as that number.
-/

namespace DotLang

/-- A run of characters of a class ends at the first other character. -/
theorem takeWhile_append_stop {f : Char → Bool} {ds : List Char} (cs : List Char)
    (hd : ∀ c ∈ ds, f c) (hc : ∀ c ∈ cs.head?, f c = false) :
    (ds ++ cs).takeWhile f = ds ∧ (ds ++ cs).dropWhile f = cs := by
  rw [List.takeWhile_append_of_pos hd, List.dropWhile_append_of_pos hd]
  cases cs with
  | nil => exact ⟨ds.append_nil, rfl⟩
  | cons c cs =>
    have hc := hc c rfl
    rw [List.takeWhile_cons, List.dropWhile_cons, hc]
    exact ⟨ds.append_nil, rfl⟩

namespace Number

/-! ### Magnitudes and units -/

/-- Below the smallest exponent a magnitude is its own value. -/
theorem units_of_lt {m : Nat} (h : m < 2 ^ 52) : units m = m := by
  have hd : doublings m = 0 := by
    rw [doublings, Nat.div_eq_of_lt h]
  rw [units, significand, if_pos h, hd, Nat.pow_zero, Nat.mul_one]

/-- Above the smallest exponent the digits have a leading one. -/
theorem units_of_le {q r : Nat} (hr : r < 2 ^ 52) :
    units ((q + 1) * 2 ^ 52 + r) = (2 ^ 52 + r) * 2 ^ q := by
  have hq : ((q + 1) * 2 ^ 52 + r) / 2 ^ 52 = q + 1 := by omega
  have hm : ((q + 1) * 2 ^ 52 + r) % 2 ^ 52 = r := by omega
  have hlt : ¬(q + 1) * 2 ^ 52 + r < 2 ^ 52 := by omega
  rw [units, significand, if_neg hlt, doublings, hq, hm, Nat.add_sub_cancel]

/-- A magnitude is below the smallest exponent, or it has an exponent and digits. -/
theorem magnitude_cases (m : Nat) :
    m < 2 ^ 52 ∨ ∃ q r, r < 2 ^ 52 ∧ m = (q + 1) * 2 ^ 52 + r := by
  rcases Nat.lt_or_ge m (2 ^ 52) with h | h
  · exact .inl h
  · refine .inr ⟨m / 2 ^ 52 - 1, m % 2 ^ 52, Nat.mod_lt _ (by decide), ?_⟩
    omega

/-- Larger magnitudes have larger values. -/
theorem units_lt_units_succ (m : Nat) : units m < units (m + 1) := by
  rcases magnitude_cases m with h | ⟨q, r, hr, rfl⟩
  · rw [units_of_lt h]
    rcases Nat.lt_or_ge (m + 1) (2 ^ 52) with h' | h'
    · rw [units_of_lt h']
      exact Nat.lt_succ_self m
    · -- The smallest magnitude with an exponent comes next.
      have hm : m + 1 = (0 + 1) * 2 ^ 52 + 0 := by omega
      rw [hm, units_of_le (by decide)]
      omega
  · rw [units_of_le hr, Nat.add_assoc]
    rcases Nat.lt_or_ge (r + 1) (2 ^ 52) with h' | h'
    · rw [units_of_le h']
      exact Nat.mul_lt_mul_of_pos_right (by omega) (Nat.two_pow_pos q)
    · -- The digits overflow into the exponent.
      have hm : (q + 1) * 2 ^ 52 + (r + 1) = (q + 1 + 1) * 2 ^ 52 + 0 := by omega
      have double : (2 ^ 52 + 0) * 2 ^ (q + 1) = 2 ^ 53 * 2 ^ q := by
        have hpow : (2 : Nat) ^ (q + 1) = 2 * 2 ^ q := Nat.pow_succ'
        have twice : (2 ^ 52 + 0) * 2 = 2 ^ 53 := rfl
        rw [hpow, ← Nat.mul_assoc, twice]
      rw [hm, units_of_le (by decide), double]
      exact Nat.mul_lt_mul_of_pos_right (by omega) (Nat.two_pow_pos q)

/-- The value of a magnitude has that magnitude below it. -/
theorem below_units (m : Nat) : below (units m) = m := by
  rcases magnitude_cases m with h | ⟨q, r, hr, rfl⟩
  · have hlog : m.log2 - 52 = 0 := by
      rcases Nat.eq_zero_or_pos m with rfl | hm
      · decide
      · have := (Nat.log2_lt (Nat.ne_of_gt hm)).2 h
        omega
    rw [units_of_lt h, below, hlog, Nat.pow_zero, Nat.div_one, Nat.zero_mul,
      Nat.zero_add]
  · have hlog : ((2 ^ 52 + r) * 2 ^ q).log2 = 52 + q := by
      have hpos := Nat.two_pow_pos q
      refine (Nat.log2_eq_iff (Nat.mul_ne_zero (by omega) (Nat.ne_of_gt hpos))).2 ⟨?_, ?_⟩
      · rw [Nat.pow_add]
        exact Nat.mul_le_mul_right _ (by omega)
      · rw [show 52 + q + 1 = 53 + q by omega, Nat.pow_add]
        exact Nat.mul_lt_mul_of_pos_right (by omega) hpos
    rw [units_of_le hr, below, hlog, show 52 + q - 52 = q by omega,
      Nat.mul_div_cancel _ (Nat.two_pow_pos q)]
    omega

/-! ### Rounding -/

/-- Rounding takes a fraction in any form. -/
theorem nearest_mul_left {c : Nat} (num den : Nat) (hc : 0 < c) :
    nearest (c * num) (c * den) = nearest num den := by
  have middle : ∀ u : Nat, u * (c * den) = c * (u * den) := fun u => Nat.mul_left_comm u c den
  have twice : 2 * (c * num) = c * (2 * num) := Nat.mul_left_comm 2 c num
  simp only [nearest, Nat.mul_div_mul_left num den hc, middle, twice, Nat.mul_lt_mul_left hc]

/-- Equal fractions have the same nearest magnitude. -/
theorem nearest_eq_of_cross_eq {num den num' den' : Nat} (hd : 0 < den) (hd' : 0 < den')
    (h : num * den' = num' * den) : nearest num den = nearest num' den' := by
  rw [← nearest_mul_left num den hd', ← nearest_mul_left num' den' hd, Nat.mul_comm den' num, h,
    Nat.mul_comm num' den, Nat.mul_comm den' den]

/-- A magnitude is the nearest one to its own value. -/
theorem nearest_units (m : Nat) {den : Nat} (hd : 0 < den) : nearest (units m * den) den = m := by
  have below_middle : 2 * (units m * den) < (units m + units (m + 1)) * den := by
    rw [← Nat.mul_assoc]
    have := units_lt_units_succ m
    exact Nat.mul_lt_mul_of_pos_right (by omega) hd
  rw [nearest, Nat.mul_div_cancel _ hd, below_units]
  exact if_pos below_middle

/-- What is smaller than half a unit is nearest to nothing. -/
theorem nearest_eq_zero {num den : Nat} (h : 2 * num < den) : nearest num den = 0 := by
  have hq : num / den = 0 := Nat.div_eq_of_lt (by omega)
  have middle : (units 0 + units (0 + 1)) * den = den := Nat.one_mul den
  have hb : below 0 = 0 := by decide
  rw [nearest, hq, hb, middle]
  exact if_pos h

/-- Nothing is rounded down below the magnitude below it. -/
theorem below_le_nearest (num den : Nat) : below (num / den) ≤ nearest num den := by
  unfold nearest
  simp only
  split
  · exact Nat.le_refl _
  split
  · exact Nat.le_succ _
  split
  · exact Nat.le_refl _
  · exact Nat.le_succ _

/-- From `2 ^ 1024` on, which is so many units, there are no finite numbers. -/
theorem infinity_le_below {u : Nat} (h : 2 ^ (1024 + 1074) ≤ u) : infinity ≤ below u := by
  have hu : u ≠ 0 := Nat.ne_of_gt (Nat.lt_of_lt_of_le (Nat.two_pow_pos _) h)
  have hlog : 1024 + 1074 ≤ u.log2 := (Nat.le_log2 hu).2 h
  have hdigits : 2 ^ 52 ≤ u / 2 ^ (u.log2 - 52) := by
    rw [Nat.le_div_iff_mul_le (Nat.two_pow_pos _), ← Nat.pow_add,
      show 52 + (u.log2 - 52) = u.log2 by omega]
    exact Nat.log2_self_le hu
  rw [infinity, below]
  have : 2046 * 2 ^ 52 ≤ (u.log2 - 52) * 2 ^ 52 := Nat.mul_le_mul_right _ (by omega)
  omega

end Number

namespace Decimal

/-! ### The bounds on exponents -/

/-- The magnitude nearest to a decimal fraction, for exponents without bounds. -/
def rounded (d : Decimal) : Nat :=
  Number.nearest (d.digits * 10 ^ d.exponent.toNat * 2 ^ 1074) (10 ^ (-d.exponent).toNat)

theorem width_pos (n : Nat) : 0 < width n := Nat.length_toDigits_pos

theorem lt_pow_width (n : Nat) : n < 10 ^ width n :=
  (Nat.length_toDigits_le_iff (by decide) (width_pos n)).1 (Nat.le_refl _)

/-- Three doublings are less than a place. -/
theorem two_pow_le_ten_pow {k places : Nat} (h : k ≤ 3 * places) : 2 ^ k ≤ 10 ^ places :=
  calc
    2 ^ k ≤ 2 ^ (3 * places) := Nat.pow_le_pow_right (by decide) h
    _ = (2 ^ 3) ^ places := Nat.pow_mul 2 3 places
    _ ≤ 10 ^ places := Nat.pow_le_pow_left (by decide) places

/-- A natural number times few doublings is less than half of a one with many
    places. -/
theorem two_mul_lt_ten_pow {k : Nat} (n places : Nat) (h : k + 1 ≤ 3 * places) :
    2 * (n * 2 ^ k) < 10 ^ (places + width n) := by
  rw [Nat.mul_left_comm, ← Nat.pow_succ', Nat.pow_add, Nat.mul_comm (10 ^ places)]
  exact Nat.mul_lt_mul_of_lt_of_le (lt_pow_width n) (two_pow_le_ten_pow h)
    (Nat.pow_pos (by decide))

/-- With its digits far below the point a fraction rounds to zero. -/
theorem nearest_eq_zero_of_width {n places : Nat} (h : 400 + width n ≤ places) :
    Number.nearest (n * 10 ^ 0 * 2 ^ 1074) (10 ^ places) = 0 := by
  have hn := two_mul_lt_ten_pow (k := 1074) n 400 (by decide)
  have hp : 10 ^ (400 + width n) ≤ 10 ^ places := Nat.pow_le_pow_right (by decide) h
  rw [Nat.pow_zero, Nat.mul_one]
  exact Number.nearest_eq_zero (Nat.lt_of_lt_of_le hn hp)

/-- Only exponents above the upper bound are cut off. -/
theorem magnitude_eq_rounded {d : Decimal} (h : d.exponent ≤ 400) : d.magnitude = d.rounded := by
  obtain ⟨n, e⟩ := d
  replace h : e ≤ 400 := h
  rcases Int.lt_or_le e (-(400 + width n)) with hlow | hhigh
  · -- The exponent is cut off, but the fraction rounds to zero with it and without it.
    have he : boundedExponent ⟨n, e⟩ = -(400 + width n) := by
      show max (min e 400) (-(400 + width n : Int)) = _
      omega
    have hlow' : (-(400 + width n : Int)).toNat = 0 := Int.toNat_of_nonpos (by omega)
    have hzero : e.toNat = 0 := Int.toNat_of_nonpos (by omega)
    rw [magnitude, he, rounded]
    simp only [hlow', hzero]
    rw [nearest_eq_zero_of_width (by omega), nearest_eq_zero_of_width (by omega)]
  · -- The exponent is within the bounds.
    have he : boundedExponent ⟨n, e⟩ = e := by
      show max (min e 400) (-(400 + width n : Int)) = _
      omega
    rw [magnitude, he]
    rfl

/-- Many places are more than few doublings. -/
theorem two_pow_add_le {n k l : Nat} (places : Nat) (hn : 0 < n) (h : k ≤ 3 * places) :
    2 ^ (k + l) ≤ n * 10 ^ places * 2 ^ l := by
  rw [Nat.pow_add]
  refine Nat.mul_le_mul_right _ ?_
  calc
    2 ^ k = 1 * 2 ^ k := (Nat.one_mul _).symm
    _ ≤ n * 10 ^ places := Nat.mul_le_mul hn (two_pow_le_ten_pow h)

/-- A finite fraction with an exponent above the upper bound is zero. -/
theorem digits_eq_zero {d : Decimal} (he : 400 < d.exponent)
    (hd : d.magnitude < Number.infinity) : d.digits = 0 := by
  obtain ⟨n, e⟩ := d
  replace he : 400 < e := he
  rcases Nat.eq_zero_or_pos n with h | h
  · exact h
  have hb : boundedExponent ⟨n, e⟩ = 400 := by
    show max (min e 400) (-(400 + width n : Int)) = _
    omega
  have hm : magnitude ⟨n, e⟩ = Number.nearest (n * 10 ^ 400 * 2 ^ 1074) 1 := by
    rw [magnitude, hb, show (400 : Int).toNat = 400 from rfl, show (-400 : Int).toNat = 0 from rfl,
      Nat.pow_zero]
  have hu := two_pow_add_le (k := 1024) (l := 1074) 400 h (by decide)
  have hle := Number.below_le_nearest (n * 10 ^ 400 * 2 ^ 1074) 1
  rw [Nat.div_one, ← hm] at hle
  exact absurd hd (Nat.not_lt.2 (Nat.le_trans (Number.infinity_le_below hu) hle))

/-! ### The fraction that is written -/

/-- Halvings that are left are fives and places. -/
theorem exact_cross_eq (s k c : Nat) :
    s * 2 ^ (k - c) * 5 ^ (c - k) * 2 ^ c = s * 2 ^ k * 10 ^ (c - k) := by
  have hpow : 2 ^ (k - c) * 2 ^ c = 2 ^ k * 2 ^ (c - k) := by
    rw [← Nat.pow_add, ← Nat.pow_add]
    congr 1
    omega
  have hten : 10 ^ (c - k) = 2 ^ (c - k) * 5 ^ (c - k) := Nat.mul_pow 2 5 (c - k)
  calc
    s * 2 ^ (k - c) * 5 ^ (c - k) * 2 ^ c = s * 5 ^ (c - k) * (2 ^ (k - c) * 2 ^ c) := by ac_rfl
    _ = s * 2 ^ k * (2 ^ (c - k) * 5 ^ (c - k)) := by rw [hpow]; ac_rfl
    _ = s * 2 ^ k * 10 ^ (c - k) := by rw [hten]

/-- The exact value of a magnitude rounds to it. -/
theorem magnitude_exact (m : Nat) : (exact m).magnitude = m := by
  have he : (exact m).exponent = -((1074 - Number.doublings m : Nat) : Int) := rfl
  have hd : (exact m).digits = Number.significand m * 2 ^ (Number.doublings m - 1074) *
      5 ^ (1074 - Number.doublings m) := rfl
  have hzero : (exact m).exponent.toNat = 0 := Int.toNat_of_nonpos (by omega)
  have hplaces : (-(exact m).exponent).toNat = 1074 - Number.doublings m := by omega
  rw [magnitude_eq_rounded (by omega), rounded, hzero, hplaces, hd, Nat.pow_zero, Nat.mul_one,
    exact_cross_eq (Number.significand m) (Number.doublings m) 1074]
  exact Number.nearest_units m (Nat.pow_pos (by decide))

/-- The fraction that is written rounds to its magnitude. -/
theorem magnitude_shortest (m : Nat) : (shortest m).magnitude = m := by
  unfold shortest
  simp only
  generalize hf : List.findSome? _ _ = found
  cases found with
  | none => exact magnitude_exact m
  -- A candidate is chosen only if it rounds to the magnitude.
  | some d =>
    obtain ⟨n, -, hn⟩ := List.exists_of_findSome?_eq_some hf
    exact eq_of_beq (List.find?_some hn :)

/-! ### Reading digits -/

/-- Zeros in front of digits do not matter. -/
theorem digitsValue_replicate_append (n : Nat) (ds : List Char) :
    digitsValue (List.replicate n '0' ++ ds) = digitsValue ds := by
  show Nat.ofDigitChars 10 (List.replicate n '0' ++ ds) 0 = _
  rw [Nat.ofDigitChars_append, Nat.ofDigitChars_replicate_zero, Nat.mul_zero]
  rfl

/-- Zeros after digits are places. -/
theorem digitsValue_append_replicate (ds : List Char) (n : Nat) :
    digitsValue (ds ++ List.replicate n '0') = digitsValue ds * 10 ^ n := by
  show Nat.ofDigitChars 10 (ds ++ List.replicate n '0') 0 = _
  rw [Nat.ofDigitChars_append, Nat.ofDigitChars_replicate_zero, Nat.mul_comm]
  rfl

theorem digitsValue_toDigits (n : Nat) : digitsValue (Nat.toDigits 10 n) = n :=
  Nat.ofDigitChars_ten_toDigits

/-- A list ends with zeros, perhaps none, and they are what is stripped. -/
theorem exists_eq_stripped_append (ds : List Char) :
    ∃ n, ds = (ds.reverse.dropWhile (· == '0')).reverse ++ List.replicate n '0' := by
  have zeros : ∀ c ∈ ds.reverse.takeWhile (· == '0'), c = '0' := fun c hc =>
    eq_of_beq (List.all_eq_true.1 List.all_takeWhile c hc)
  refine ⟨(ds.reverse.takeWhile (· == '0')).length, ?_⟩
  calc
    ds = ds.reverse.reverse := ds.reverse_reverse.symm
    _ = (ds.reverse.takeWhile (· == '0') ++ ds.reverse.dropWhile (· == '0')).reverse := by
      rw [List.takeWhile_append_dropWhile]
    _ = (ds.reverse.dropWhile (· == '0')).reverse ++ (ds.reverse.takeWhile (· == '0')).reverse :=
      List.reverse_append
    _ = _ := by
      conv => lhs; rw [List.eq_replicate_of_mem zeros, List.reverse_replicate]

/-- Digits, perhaps with a point among them, are read as the digits without the
    point. -/
theorem ofChars?_digits {whole fraction : List Char} (hne : whole ≠ [])
    (hw : ∀ c ∈ whole, c.isDigit) (hf : ∀ c ∈ fraction, c.isDigit) :
    ofChars? (if fraction.isEmpty then whole else whole ++ '.' :: fraction) =
      some ⟨digitsValue (whole ++ fraction), -fraction.length⟩ := by
  have hwe : whole.isEmpty = false := by
    rw [List.isEmpty_eq_false_iff]
    exact hne
  split
  · next he =>
    obtain rfl := List.isEmpty_iff.1 he
    obtain ⟨ht, hd⟩ := takeWhile_append_stop [] hw nofun
    rw [List.append_nil] at ht hd
    simp [ofChars?, ht, hd, hwe, exponent?]
  · -- The digits before the point end there, those behind it with the text.
    obtain ⟨ht, hd⟩ := takeWhile_append_stop ('.' :: fraction) hw (by simp)
    obtain ⟨ht', hd'⟩ := takeWhile_append_stop [] hf nofun
    rw [List.append_nil] at ht' hd'
    simp [ofChars?, ht, hd, ht', hd', hwe, exponent?]

/-! ### The text of a fraction -/

/-- How many digits stand after the point at most. -/
def places (d : Decimal) : Nat := (-d.exponent).toNat

/-- All digits of a fraction, at least one of them before the point. -/
def allDigits (d : Decimal) : List Char :=
  let ds := Nat.toDigits 10 d.digits ++ List.replicate d.exponent.toNat '0'
  List.replicate (d.places + 1 - ds.length) '0' ++ ds

/-- The digits before the point. -/
def whole (d : Decimal) : List Char := d.allDigits.take (d.allDigits.length - d.places)

/-- The digits after the point, up to the last one that is not zero. -/
def fraction (d : Decimal) : List Char :=
  ((d.allDigits.drop (d.allDigits.length - d.places)).reverse.dropWhile (· == '0')).reverse

theorem chars_eq {d : Decimal} (h : d.digits ≠ 0) :
    d.chars = if d.fraction.isEmpty then d.whole else d.whole ++ '.' :: d.fraction :=
  if_neg h

theorem isDigit_of_mem_allDigits {d : Decimal} {c : Char} (h : c ∈ d.allDigits) : c.isDigit := by
  have zero : ∀ n, c ∈ List.replicate n '0' → c.isDigit := fun n h => by
    rw [List.eq_of_mem_replicate h]
    rfl
  rcases List.mem_append.1 h with h | h
  · exact zero _ h
  rcases List.mem_append.1 h with h | h
  · exact Nat.isDigit_of_mem_toDigits (by decide) (by decide) h
  · exact zero _ h

theorem digitsValue_allDigits (d : Decimal) :
    digitsValue d.allDigits = d.digits * 10 ^ d.exponent.toNat := by
  rw [allDigits, digitsValue_replicate_append, digitsValue_append_replicate, digitsValue_toDigits]

theorem places_lt_length_allDigits (d : Decimal) : d.places < d.allDigits.length := by
  simp only [allDigits, List.length_append, List.length_replicate]
  omega

/-- The digits are those before the point, those after it, and zeros. -/
theorem exists_allDigits_eq (d : Decimal) :
    ∃ n, d.allDigits = d.whole ++ d.fraction ++ List.replicate n '0' ∧
      d.fraction.length + n = d.places := by
  obtain ⟨n, hn⟩ := exists_eq_stripped_append (d.allDigits.drop (d.allDigits.length - d.places))
  refine ⟨n, ?_, ?_⟩
  · rw [List.append_assoc, fraction, ← hn]
    exact (List.take_append_drop _ _).symm
  · have hlen := congrArg List.length hn
    rw [List.length_append, List.length_replicate, List.length_drop] at hlen
    have := d.places_lt_length_allDigits
    rw [fraction]
    omega

theorem isDigit_of_mem_whole {d : Decimal} {c : Char} (h : c ∈ d.whole) : c.isDigit :=
  isDigit_of_mem_allDigits (List.mem_of_mem_take h)

theorem isDigit_of_mem_fraction {d : Decimal} {c : Char} (h : c ∈ d.fraction) : c.isDigit := by
  obtain ⟨n, hall, -⟩ := d.exists_allDigits_eq
  refine isDigit_of_mem_allDigits (d := d) ?_
  rw [hall]
  exact List.mem_append_left _ (List.mem_append_right _ h)

theorem whole_ne_nil (d : Decimal) : d.whole ≠ [] := by
  refine List.ne_nil_of_length_pos ?_
  rw [whole, List.length_take]
  have := d.places_lt_length_allDigits
  omega

/-- The fraction that the text is read as has the value of the one that is written. -/
theorem ofChars?_chars {d : Decimal} (h : d.digits ≠ 0) :
    ∃ e, ofChars? d.chars = some e ∧ e.exponent ≤ 0 ∧
      d.digits * 10 ^ d.exponent.toNat * 10 ^ e.places = e.digits * 10 ^ d.places := by
  obtain ⟨n, hall, hlen⟩ := d.exists_allDigits_eq
  have value : d.digits * 10 ^ d.exponent.toNat = digitsValue (d.whole ++ d.fraction) * 10 ^ n := by
    rw [← digitsValue_allDigits, ← digitsValue_append_replicate, ← hall]
  refine ⟨⟨digitsValue (d.whole ++ d.fraction), -d.fraction.length⟩, ?_, ?_, ?_⟩
  · rw [chars_eq h]
    exact ofChars?_digits d.whole_ne_nil (fun _ => isDigit_of_mem_whole)
      fun _ => isDigit_of_mem_fraction
  · show -(d.fraction.length : Int) ≤ 0
    omega
  · have hp : places ⟨digitsValue (d.whole ++ d.fraction), -d.fraction.length⟩ =
        d.fraction.length := by
      show (-(-(d.fraction.length : Int))).toNat = _
      omega
    rw [value, hp, Nat.mul_assoc, ← Nat.pow_add, Nat.add_comm n, hlen]

/-- Fractions of the same value round alike. -/
theorem rounded_eq_of_cross_eq {d e : Decimal} (he : e.exponent ≤ 0)
    (h : d.digits * 10 ^ d.exponent.toNat * 10 ^ e.places = e.digits * 10 ^ d.places) :
    e.rounded = d.rounded := by
  have hzero : e.exponent.toNat = 0 := Int.toNat_of_nonpos he
  have ten_pos : ∀ n, 0 < 10 ^ n := fun n => Nat.pow_pos (by decide)
  refine Number.nearest_eq_of_cross_eq (ten_pos _) (ten_pos _) ?_
  show e.digits * 10 ^ e.exponent.toNat * 2 ^ 1074 * 10 ^ d.places =
    d.digits * 10 ^ d.exponent.toNat * 2 ^ 1074 * 10 ^ e.places
  rw [hzero, Nat.pow_zero, Nat.mul_one, Nat.mul_right_comm, ← h, Nat.mul_right_comm]

/-- The text of a fraction is read as a fraction that rounds alike, if it is finite. -/
theorem exists_ofChars?_chars {d : Decimal} (h : d.magnitude < Number.infinity) :
    ∃ e, ofChars? d.chars = some e ∧ e.magnitude = d.magnitude := by
  by_cases hd : d.digits = 0
  · -- Zero is written without places.
    have zero : ∀ e : Decimal, e.digits = 0 → e.magnitude = 0 := fun e he => by
      simp only [magnitude, he, Nat.zero_mul]
      exact Number.nearest_eq_zero (Nat.pow_pos (by decide))
    refine ⟨⟨0, 0⟩, ?_, ?_⟩
    · rw [show d.chars = ['0'] from if_pos hd]
      rfl
    · rw [zero _ rfl, zero d hd]
  · have hexp : d.exponent ≤ 400 := Int.not_lt.1 fun he => hd (digits_eq_zero he h)
    obtain ⟨e, hread, he, hcross⟩ := ofChars?_chars hd
    refine ⟨e, hread, ?_⟩
    rw [magnitude_eq_rounded hexp, magnitude_eq_rounded (by omega)]
    exact rounded_eq_of_cross_eq he hcross

/-- The text of a fraction starts with a digit. -/
theorem exists_chars_eq_cons (d : Decimal) : ∃ c cs, d.chars = c :: cs ∧ c.isDigit := by
  by_cases hd : d.digits = 0
  · exact ⟨'0', [], if_pos hd, rfl⟩
  obtain ⟨c, cs, hw⟩ := List.exists_cons_of_ne_nil d.whole_ne_nil
  have hc : c.isDigit := isDigit_of_mem_whole (d := d) (by rw [hw]; exact List.mem_cons_self)
  rw [chars_eq hd, hw]
  split
  · exact ⟨c, cs, rfl, hc⟩
  · exact ⟨c, cs ++ '.' :: d.fraction, rfl, hc⟩

/-- The text of a fraction ends with a digit. -/
theorem exists_chars_eq_concat (d : Decimal) : ∃ cs c, d.chars = cs ++ [c] ∧ c.isDigit := by
  by_cases hd : d.digits = 0
  · exact ⟨[], '0', if_pos hd, rfl⟩
  rw [chars_eq hd]
  split
  · have hw := d.whole_ne_nil
    exact ⟨_, _, (List.dropLast_concat_getLast hw).symm, isDigit_of_mem_whole (List.getLast_mem hw)⟩
  · next hf =>
    have hf : d.fraction ≠ [] := fun h => hf (List.isEmpty_iff.2 h)
    refine ⟨d.whole ++ '.' :: d.fraction.dropLast, d.fraction.getLast hf, ?_,
      isDigit_of_mem_fraction (List.getLast_mem hf)⟩
    rw [List.append_assoc, List.cons_append, List.dropLast_concat_getLast hf]

end Decimal

namespace Number

/-- Digits are no white space. -/
theorem isBlank_eq_false_of_isDigit {c : Char} (h : c.isDigit) : isBlank c = false := by
  have hn : 48 ≤ c.toNat ∧ c.toNat ≤ 57 := by
    simp only [Char.isDigit, Bool.and_eq_true, decide_eq_true_eq] at h
    exact h
  refine Bool.eq_false_iff.2 fun hb => ?_
  obtain ⟨r, hr, hlow, hhigh⟩ := inRanges_iff.1 hb
  simp only [blankRanges, List.mem_cons, List.not_mem_nil, or_false] at hr
  rcases hr with rfl | rfl | rfl | rfl | rfl | rfl | rfl | rfl | rfl | rfl <;> omega

/-- A text that starts with a digit has no sign. -/
theorem ofChars?_of_isDigit {c : Char} (cs : List Char) (h : c.isDigit) :
    ofChars? (c :: cs) = (Decimal.ofChars? (c :: cs)).bind (ofDecimal? false) := by
  unfold ofChars?
  split
  · next heq =>
    rw [(List.cons.inj heq).1] at h
    cases h
  · next heq =>
    rw [(List.cons.inj heq).1] at h
    cases h
  · rfl

/-- The text of a finite number is read as that number. -/
theorem ofText?_text {x : Number} (h : x.isFinite) : ofText? x.text = some x := by
  have hm : x.magnitude < infinity := of_decide_eq_true h
  have hnan : x.isNaN = false := decide_eq_false (by omega)
  have hd : (Decimal.shortest x.magnitude).magnitude = x.magnitude :=
    Decimal.magnitude_shortest x.magnitude
  obtain ⟨e, hread, he⟩ := Decimal.exists_ofChars?_chars (by rw [hd]; exact hm)
  have signed : ∀ neg : Bool, ofDecimal? neg e = some ⟨neg, x.magnitude, x.magnitude_lt⟩ := by
    intro neg
    rw [hd] at he
    simp only [ofDecimal?, he, dif_pos hm]
  obtain ⟨c, cs, hcs, hc⟩ := (Decimal.shortest x.magnitude).exists_chars_eq_cons
  obtain ⟨bs, b, hbs, hb⟩ := (Decimal.shortest x.magnitude).exists_chars_eq_concat
  have blank_last : ∀ sign : List Char,
      ∀ b ∈ (sign ++ (Decimal.shortest x.magnitude).chars).getLast?, isBlank b = false := by
    intro sign b' hb'
    rw [hbs, ← List.append_assoc, List.getLast?_concat] at hb'
    obtain rfl := Option.some.inj hb'
    exact isBlank_eq_false_of_isDigit hb
  have htext : x.text = String.ofList
      ((if x.negative then ['-'] else []) ++ (Decimal.shortest x.magnitude).chars) := by
    rw [text, hnan, if_neg Bool.false_ne_true, if_pos h]
  rw [ofText?, htext, String.toList_ofList]
  cases hneg : x.negative with
  | true =>
    rw [if_pos rfl, trimBlank_eq_self (by rintro c ⟨⟩; decide) (blank_last ['-'])]
    show (Decimal.ofChars? (Decimal.shortest x.magnitude).chars).bind (ofDecimal? true) = some x
    rw [hread, Option.bind_some, signed, ← hneg]
  | false =>
    have blank_first : ∀ c ∈ (Decimal.shortest x.magnitude).chars.head?, isBlank c = false := by
      rw [hcs]
      rintro _ ⟨⟩
      exact isBlank_eq_false_of_isDigit hc
    rw [if_neg Bool.false_ne_true, List.nil_append,
      trimBlank_eq_self blank_first (blank_last []), hcs,
      ofChars?_of_isDigit cs hc, ← hcs, hread, Option.bind_some, signed, ← hneg]

end Number

end DotLang
