import FtNm.Properties.Support.DecimalText

/-!
# Sums, products and powers of decimal strings

`SumsTo`, `MultipliesTo` and `PowersTo` say that the three routines compute what they are for:
`sum_string` the sum in the width of the longer operand, with one digit more only if the sum
needs it, and the other two the numeral without superfluous zeros.

The sums are right for operands of any length that the `int` cursors can walk
(`sumsTo_iff`).  The products are not: stripping the leading zeros leaves nothing of a zero, so
`multiply_string` returns the empty string for it, and `ft_large_pow` passes that on.
`decimalProducts_iff` says that this and the range of `int` are all that goes wrong.
-/

namespace FtNm

open Numeral

/-- A string of decimal digits. -/
structure DigitString where
  bytes : List UInt8
  digits : decimal.IsDigits bytes

namespace DigitString

def length (a : DigitString) : ℕ := a.bytes.length

/-- The number that it stands for. -/
def value (a : DigitString) : ℕ := decimal.value a.bytes

end DigitString

/-! ## Addition -/

/-- The digits that the sum of two strings takes: those of the longer one, and one more if the
sum does not fit. -/
def sumLength (a b : DigitString) : ℕ :=
  max a.length b.length + if 10 ^ max a.length b.length ≤ a.value + b.value then 1 else 0

/-- **Sums.**  `sum_string` returns digits, their value is the sum, and their number is that of
the longer operand, or one more if the sum needs it. -/
def SumsTo (a b : DigitString) : Prop :=
  ∃ r, sumString a.bytes b.bytes = some r ∧ decimal.IsDigits r ∧
    decimal.value r = a.value + b.value ∧ r.length = sumLength a b

/-- **When `sum_string` is right.**  Exactly when an `int` counts the digits of the result. -/
theorem sumsTo_iff (a b : DigitString) : SumsTo a b ↔ sumLength a b ≤ 2 ^ 31 := by
  constructor
  · rintro ⟨r, hr, -, -, hlength⟩
    rw [sumString_eq] at hr
    split_ifs at hr with hfits
    obtain rfl := Option.some.inj hr
    rw [← hlength]
    exact hfits
  · intro h
    have hmax : max a.length b.length ≤ 2 ^ 31 := (Nat.le_add_right _ _).trans h
    have hseen1 : seen a.bytes = a.bytes := seen_of_le ((Nat.le_max_left _ _).trans hmax)
    have hseen2 : seen b.bytes = b.bytes := seen_of_le ((Nat.le_max_right _ _).trans hmax)
    have hlength : (sumText a.bytes b.bytes).length = sumLength a b :=
      length_sumText a.digits b.digits
    refine ⟨sumText a.bytes b.bytes, ?_, decimal.isDigits_padded _ _, decimal.value_padded _ _,
      hlength⟩
    rw [sumString_eq, hseen1, hseen2, if_pos]
    rw [hlength]
    exact h

/-- A number of `n` ones. -/
def ones (n : ℕ) : DigitString where
  bytes := List.replicate n (decimal.digit 1)
  digits := decimal.isDigits_replicate _ (by norm_num)

/-- The cursor on `2 ^ 31 + 1` digits is negative from the start. -/
lemma seen_ones {n : ℕ} (h : n = 2 ^ 31 + 1) : seen (ones n).bytes = [] := by
  have hlength : (ones n).bytes.length = n := List.length_replicate
  have hcursor : (int32 (n - 1) + 1).toNat = 0 := by
    rw [h]
    decide
  rw [seen, hlength, hcursor, List.take_zero]

/-- Nothing of the long operand is added. -/
lemma sumString_ones {n : ℕ} (h : n = 2 ^ 31 + 1) :
    sumString (ones n).bytes (ones 1).bytes = some (ones 1).bytes ∧ ¬SumsTo (ones n) (ones 1) := by
  have hlength (k : ℕ) : (ones k).bytes.length = k := List.length_replicate
  have hsum : sumString (ones n).bytes (ones 1).bytes = some (ones 1).bytes := by
    have hone : seen (ones 1).bytes = (ones 1).bytes := seen_of_le (by rw [hlength]; norm_num)
    have htext : sumText [] (ones 1).bytes = (ones 1).bytes := by
      have hvalue := (ones 1).digits.padded_value
      rw [hlength] at hvalue
      rw [sumText, hlength, Alphabet.value_nil, Nat.zero_add]
      exact hvalue
    rw [sumString_eq, seen_ones h, hone, htext, hlength, if_pos (by norm_num)]
  refine ⟨hsum, ?_⟩
  rintro ⟨r, hr, -, -, hr'⟩
  have hlong : n ≤ r.length := by
    rw [hr', sumLength, DigitString.length, hlength]
    omega
  rw [hsum] at hr
  rw [← Option.some.inj hr, hlength] at hlong
  omega

/-- The sum of `2 ^ 31 + 1` ones and `1` comes out as `1`. -/
theorem not_sumsTo_ones :
    sumString (ones (2 ^ 31 + 1)).bytes (ones 1).bytes = some (ones 1).bytes ∧
      ¬SumsTo (ones (2 ^ 31 + 1)) (ones 1) :=
  sumString_ones rfl

/-! ## Multiplication -/

/-- **Products.** -/
def MultipliesTo (a b : DigitString) : Prop :=
  multiplyString a.bytes b.bytes = some (decimal.canonical (a.value * b.value))

/-- **Powers.** -/
def PowersTo (n : ℕ) (r : DigitString) : Prop :=
  ftLargePow n r.bytes = some (decimal.canonical (r.value ^ n))

/-- A numeral is the canonical one unless it is empty. -/
lemma numeral_eq_canonical_iff {x y : ℕ} :
    numeral 10 digitByte x = decimal.canonical y ↔ x = y ∧ y ≠ 0 := by
  constructor
  · intro h
    have hvalue := congrArg decimal.value h
    rw [value_numeral, Alphabet.canonical, Alphabet.value_padded] at hvalue
    refine ⟨hvalue, fun hy => ?_⟩
    rw [hvalue, hy, numeral_zero] at h
    exact Alphabet.canonical_ne_nil _ h.symm
  · rintro ⟨rfl, hx⟩
    exact (Alphabet.canonical_of_ne_zero (A := decimal) hx).symm

/-- The loops see at most the factor. -/
lemma value_covered_le {num : List UInt8} (h : decimal.IsDigits num) :
    decimal.value (covered num) ≤ decimal.value num := by
  rw [covered, (h.value_take _).1]
  exact Nat.div_le_self _ _

/-- A factor of which the loops see the value is one that they see whole. -/
lemma length_lt_of_covered {num : List UInt8} (h : decimal.IsDigits num)
    (hvalue : decimal.value (covered num) = decimal.value num) (hne : decimal.value num ≠ 0) :
    num.length < 2 ^ 31 := by
  by_contra hlong
  have hlt := (int32_le num.length).2
  rw [covered, (h.value_take _).1] at hvalue
  have hpow : 1 < decimal.base ^ (num.length - (int32 num.length).toNat) :=
    Nat.one_lt_pow (by omega) (by norm_num)
  have hdiv := Nat.div_lt_self (Nat.pos_of_ne_zero hne) hpow
  omega

lemma mul_eq_mul_of_le {a a' b b' : ℕ} (ha : a ≤ a') (hb : b ≤ b') (h : a * b = a' * b')
    (hne : a' * b' ≠ 0) : a = a' ∧ b = b' := by
  obtain ⟨ha', hb'⟩ := mul_ne_zero_iff.mp hne
  constructor
  · by_contra hlt
    have hmul := Nat.mul_lt_mul_of_lt_of_le (lt_of_le_of_ne ha hlt) hb (Nat.pos_of_ne_zero hb')
    omega
  · by_contra hlt
    have hmul := Nat.mul_lt_mul_of_le_of_lt ha (lt_of_le_of_ne hb hlt) (Nat.pos_of_ne_zero ha')
    omega

/-- A product is never too large, and it is right only if the factors fit. -/
lemma multiplyString_some {num1 num2 s : List UInt8} (h1 : decimal.IsDigits num1)
    (h2 : decimal.IsDigits num2) (h : multiplyString num1 num2 = some s) :
    ∃ x ≤ decimal.value num1 * decimal.value num2, s = numeral 10 digitByte x ∧
      (x = decimal.value num1 * decimal.value num2 → x ≠ 0 →
        num1.length + num2.length + 1 < 2 ^ 31) := by
  rw [multiplyString_eq h1 h2] at h
  split_ifs at h with hfits
  have hle1 := value_covered_le h1
  have hle2 := value_covered_le h2
  refine ⟨_, Nat.mul_le_mul hle1 hle2, (Option.some.inj h).symm, ?_⟩
  intro heq hne
  rw [heq] at hne
  obtain ⟨hvalue1, hvalue2⟩ := mul_eq_mul_of_le hle1 hle2 heq hne
  obtain ⟨hne1, hne2⟩ := mul_ne_zero_iff.mp hne
  have hlt1 := length_lt_of_covered h1 hvalue1 hne1
  have hlt2 := length_lt_of_covered h2 hvalue2 hne2
  have hsum := hfits.2
  rw [int32_of_mem (by omega) (by omega), int32_of_mem (by omega) (by omega)] at hsum
  omega

/-- **When `multiply_string` is right.** -/
lemma multipliesTo_iff (a b : DigitString) :
    MultipliesTo a b ↔ a.value * b.value ≠ 0 ∧ a.length + b.length + 1 < 2 ^ 31 := by
  constructor
  · intro h
    obtain ⟨x, -, hx, hfits⟩ := multiplyString_some a.digits b.digits h
    obtain ⟨rfl, hne⟩ := numeral_eq_canonical_iff.mp hx.symm
    exact ⟨hne, hfits rfl hne⟩
  · rintro ⟨hne, hlt⟩
    rw [MultipliesTo, multiplyString_of_lt a.digits b.digits hlt]
    exact congrArg some (numeral_eq_canonical_iff.mpr ⟨rfl, hne⟩)

/-! ## Powers -/

/-- A factor that is never too large leads to a product that is never too large, and the product
is right only if the factors were and they fit. -/
lemma multiplyString_bounded {y m n : ℕ} (hy : y ≤ m) {num s : List UInt8}
    (hdigits : decimal.IsDigits num) (hnum : decimal.value num ≤ n)
    (h : multiplyString (numeral 10 digitByte y) num = some s) :
    ∃ x ≤ m * n, s = numeral 10 digitByte x ∧
      (x = m * n → m * n ≠ 0 → y = m ∧ decimal.value num = n ∧
        digitCount y + num.length + 1 < 2 ^ 31) := by
  obtain ⟨x, hx, rfl, hfits⟩ := multiplyString_some (isDigits_numeral y) hdigits h
  rw [value_numeral] at hx hfits
  have hbound := Nat.mul_le_mul hy hnum
  refine ⟨x, hx.trans hbound, rfl, fun hxeq hne => ?_⟩
  have hproduct : y * decimal.value num = m * n := le_antisymm hbound (hxeq ▸ hx)
  obtain ⟨rfl, rfl⟩ := mul_eq_mul_of_le hy hnum hproduct hne
  exact ⟨rfl, rfl, hfits hxeq (hxeq ▸ hne)⟩

/-- A power is never too large, and it is right only if all products on the way were. -/
lemma ftLargePow_some {nb : List UInt8} (hnb : decimal.IsDigits nb) {n : ℕ} {s : List UInt8}
    (h : ftLargePow n nb = some s) :
    ∃ x ≤ decimal.value nb ^ n, s = numeral 10 digitByte x ∧
      (x = decimal.value nb ^ n → decimal.value nb ≠ 0 → PowFits nb n) := by
  induction n using Nat.strong_induction_on generalizing s with
  | _ n ih =>
    by_cases hn : n = 0
    · subst hn
      rw [ftLargePow_zero] at h
      refine ⟨1, le_rfl, (Option.some.inj h).symm, fun _ _ t ht => ?_⟩
      exact absurd (Nat.zero_div _) ht
    · -- the square of the half is a product in both cases
      have hsquare {y : ℕ} (hy : y ≤ decimal.value nb ^ (n / 2)) {sq : List UInt8}
          (hsq : multiplyString (numeral 10 digitByte y) (numeral 10 digitByte y) = some sq) :=
        multiplyString_bounded hy (isDigits_numeral y) ((value_numeral y).trans_le hy) hsq
      have hhalf (tmp : List UInt8) (htmp : ftLargePow (n / 2) nb = some tmp) :=
        ih (n / 2) (by omega) htmp
      by_cases hparity : n % 2 = 0
      · rw [ftLargePow_even hn hparity, Option.bind_eq_some_iff] at h
        obtain ⟨tmp, htmp, hs⟩ := h
        obtain ⟨y, hy, rfl, hyfits⟩ := hhalf tmp htmp
        obtain ⟨x, hx, rfl, hxfits⟩ := hsquare hy hs
        rw [pow_even _ hparity]
        refine ⟨x, hx, rfl, fun hxeq hv => ?_⟩
        have hpow := pow_ne_zero (n / 2) hv
        obtain ⟨rfl, -, hlt⟩ := hxfits hxeq (mul_ne_zero hpow hpow)
        rw [powFits_half hn]
        unfold digitCount at hlt
        exact ⟨⟨by unfold digitCount; omega, by omega⟩, hyfits rfl hv⟩
      · rw [ftLargePow_odd hparity, Option.bind_eq_some_iff] at h
        obtain ⟨tmp, htmp, h⟩ := h
        obtain ⟨square, hsq, hs⟩ := Option.bind_eq_some_iff.mp h
        obtain ⟨y, hy, rfl, hyfits⟩ := hhalf tmp htmp
        obtain ⟨z, hz, rfl, hzfits⟩ := hsquare hy hsq
        obtain ⟨x, hx, rfl, hxfits⟩ := multiplyString_bounded hz hnb le_rfl hs
        rw [pow_odd _ hparity]
        refine ⟨x, hx, rfl, fun hxeq hv => ?_⟩
        have hpow := pow_ne_zero (n / 2) hv
        have hmul := mul_ne_zero hpow hpow
        obtain ⟨hzeq, -, hlast⟩ := hxfits hxeq (mul_ne_zero hmul hv)
        obtain ⟨rfl, -, hlt⟩ := hzfits hzeq hmul
        have hexp : n - 1 = n / 2 + n / 2 := by omega
        rw [hzeq, ← pow_add, ← hexp] at hlast
        rw [powFits_half hn]
        unfold digitCount at hlt
        exact ⟨⟨by unfold digitCount; omega, fun _ => hlast⟩, hyfits rfl hv⟩

/-- **When `ft_large_pow` is right.** -/
lemma powersTo_iff (n : ℕ) (r : DigitString) :
    PowersTo n r ↔ n = 0 ∨ r.value ≠ 0 ∧ PowFits r.bytes n := by
  constructor
  · intro h
    by_cases hn : n = 0
    · exact .inl hn
    · right
      obtain ⟨x, -, hx, hfits⟩ := ftLargePow_some r.digits h
      obtain ⟨hxeq, hne⟩ := numeral_eq_canonical_iff.mp hx.symm
      have hv : r.value ≠ 0 := fun hv => hne (by rw [hv, zero_pow hn])
      exact ⟨hv, hfits hxeq hv⟩
  · intro h
    have hfits : PowFits r.bytes n := by
      rcases h with rfl | ⟨-, hfits⟩
      · intro t ht
        exact absurd (Nat.zero_div _) ht
      · exact hfits
    have hne : r.value ^ n ≠ 0 := by
      rcases h with rfl | ⟨hv, -⟩
      · exact one_ne_zero
      · exact pow_ne_zero n hv
    rw [PowersTo, ftLargePow_of_fits r.digits hfits]
    exact congrArg some (numeral_eq_canonical_iff.mpr ⟨rfl, hne⟩)

/-- **When products and powers are right.**  Exactly when they are not `0` and their sizes are
`int`s. -/
theorem decimalProducts_iff (a b r : DigitString) (n : ℕ) :
    (MultipliesTo a b ↔ a.value * b.value ≠ 0 ∧ a.length + b.length + 1 < 2 ^ 31) ∧
      (PowersTo n r ↔ n = 0 ∨ r.value ≠ 0 ∧ PowFits r.bytes n) :=
  ⟨multipliesTo_iff a b, powersTo_iff n r⟩

/-- The string `0`. -/
def zeroDigit : DigitString where
  bytes := List.replicate 1 (decimal.digit 0)
  digits := decimal.isDigits_replicate 1 decimal.base_pos

/-- `0 * 1` and `0 ^ 1` come out empty. -/
theorem not_decimalProducts_zero :
    multiplyString zeroDigit.bytes (ones 1).bytes = some [] ∧
      ftLargePow 1 zeroDigit.bytes = some [] ∧
      ¬MultipliesTo zeroDigit (ones 1) ∧ ¬PowersTo 1 zeroDigit := by
  have hzero : decimal.value zeroDigit.bytes = 0 := decimal.value_zeros 1
  have hlength : zeroDigit.bytes.length = 1 := rfl
  have hproduct : multiplyString zeroDigit.bytes (ones 1).bytes = some [] := by
    have hlt : zeroDigit.bytes.length + (ones 1).bytes.length + 1 < 2 ^ 31 := by decide
    rw [multiplyString_of_lt zeroDigit.digits (ones 1).digits hlt, hzero, Nat.zero_mul,
      numeral_zero]
  have hfits : PowFits zeroDigit.bytes 1 := by
    rw [powFits_half one_ne_zero]
    have hcount : digitCount 1 ≤ 1 := digitCount_le (by norm_num)
    refine ⟨⟨?_, fun _ => ?_⟩, fun t ht => absurd (Nat.zero_div _) ht⟩
    · rw [Nat.div_eq_of_lt (by norm_num), pow_zero]
      omega
    · rw [Nat.sub_self, pow_zero, hlength]
      omega
  have hpower : ftLargePow 1 zeroDigit.bytes = some [] := by
    rw [ftLargePow_of_fits zeroDigit.digits hfits, hzero, pow_one, numeral_zero]
  refine ⟨hproduct, hpower, fun h => ?_, fun h => ?_⟩
  · exact ((multipliesTo_iff _ _).mp h).1 (by rw [DigitString.value, hzero, Nat.zero_mul])
  · rcases (powersTo_iff _ _).mp h with h | h
    · exact one_ne_zero h
    · exact h.1 hzero

end FtNm
