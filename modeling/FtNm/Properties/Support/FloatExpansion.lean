import FtNm.Construction.FtPrintFloat
import FtNm.Properties.Support.DecimalText

/-!
# The expansion of a floating-point number, step by step

One specification for each routine up to `split_float_parts`, of what it returns and of the
blocks it uses at once: `P` is any property of block uses that holds of the blocks of strings,
and, where the mantissa is zero, of the stores of `ft_strndup`.

`FiniteNumber` is what a finite double becomes, `expansion` its absolute value as a whole number
of units of the last decimal place, of which there are `fractLength`.
-/

namespace FtNm

open AccessLog Numeral

/-! ## The number -/

/-- A finite number as it comes out of the conversion of a double: its integer bit is set, or it
is zero. -/
structure FiniteNumber where
  bits : FloatBits
  finite : bits.exponent < 2 ^ 15 - 1
  normal : bits.bit = true ∨ bits.mantissa = 0

namespace FiniteNumber

lemma zero_mantissa_lt : 0 < 2 ^ 63 := by norm_num

variable (x : FiniteNumber)

/-- The mantissa with its integer bit. -/
def significand : ℕ := (if x.bits.bit then 2 ^ 63 else 0) + x.bits.mantissa

/-- The absolute value. -/
def magnitude : ℚ := x.significand * 2 ^ ((x.bits.exponent : ℤ) - 16383 - 63)

/-- The number of decimal places of the expansion. -/
def fractLength : ℕ :=
  if x.bits.bit then 63 + (16383 - x.bits.exponent) else 63

/-- The absolute value in units of the last place. -/
def expansion : ℕ :=
  x.significand * 5 ^ 63 *
    if x.bits.exponent < 16383 then 5 ^ (16383 - x.bits.exponent)
    else 2 ^ (x.bits.exponent - 16383)

lemma fractLength_lt : x.fractLength < 2 ^ 15 := by
  unfold fractLength
  split_ifs <;> omega

lemma fractLength_ge : 63 ≤ x.fractLength := by
  unfold fractLength
  split_ifs <;> omega

lemma significand_lt : x.significand < 2 ^ 64 := by
  have hlt := x.bits.mantissa_lt
  unfold significand
  split_ifs <;> omega

lemma significand_of_bit (h : x.bits.bit = true) :
    x.significand = 2 ^ 63 + x.bits.mantissa := by
  rw [significand, if_pos h]

lemma significand_of_not_bit (h : ¬x.bits.bit = true) : x.significand = 0 := by
  rcases x.normal with hbit | hzero
  · exact absurd hbit h
  · rw [significand, if_neg h, hzero]

/-- The expansion is exact. -/
lemma magnitude_eq : x.magnitude = x.expansion / 10 ^ x.fractLength := by
  by_cases hbit : x.bits.bit = true
  · have hten (n : ℕ) : (10 : ℚ) ^ n = 5 ^ n * 2 ^ n := by
      rw [← mul_pow]
      norm_num
    rw [magnitude, expansion, fractLength, if_pos hbit]
    by_cases hneg : x.bits.exponent < 16383
    · have hexp : (x.bits.exponent : ℤ) - 16383 - 63 =
          -((63 + (16383 - x.bits.exponent) : ℕ) : ℤ) := by
        omega
      rw [if_pos hneg, hexp, zpow_neg, zpow_natCast, hten, pow_add (5 : ℚ)]
      push_cast
      field_simp
      norm_num
    · have hexp : (x.bits.exponent : ℤ) - 16383 - 63 =
          ((x.bits.exponent - 16383 : ℕ) : ℤ) - (63 : ℕ) := by
        omega
      have hplaces : 63 + (16383 - x.bits.exponent) = 63 := by omega
      rw [if_neg hneg, hexp, hplaces, zpow_sub₀ (by norm_num), zpow_natCast, zpow_natCast, hten]
      push_cast
      field_simp
      norm_num
  · rw [magnitude, expansion, x.significand_of_not_bit hbit]
    simp

end FiniteNumber

/-! ## Blocks and copies -/

lemma finishes_defined {α : Type} {P : BlockUse → Prop} {o : Option α} {a : α} (h : o = some a) :
    (defined o).Finishes P (· = a) := by
  rw [h]
  exact Run.finishes_pure rfl

lemma takeWhile_block {s : List UInt8} (h : 0 ∉ s) : (block s).takeWhile (· ≠ 0) = s := by
  have hall : ∀ c ∈ s, decide (c ≠ 0) = true := by
    intro c hc
    rw [decide_eq_true_iff]
    rintro rfl
    exact h hc
  rw [block, List.takeWhile_append_of_pos hall]
  simp

lemma zero_mem_block (s : List UInt8) : 0 ∈ block s :=
  List.mem_append_right _ (List.mem_singleton_self 0)

/-- `sum_string` on two strings. -/
lemma sumBlocks_finishes {P : BlockUse → Prop} (hP : ∀ s, P (.passed (block s)))
    {num1 num2 : List UInt8} (h1 : decimal.IsDigits num1) (h2 : decimal.IsDigits num2)
    (hlt1 : num1.length < 2 ^ 31) (hlt2 : num2.length < 2 ^ 31) :
    (sumBlocks (block num1) (block num2)).Finishes P (· = sumText num1 num2) := by
  refine Run.Finishes.bind_eq (Run.finishes_touch ?_ rfl) ?_
  · intro i hi
    rcases List.mem_cons.mp hi with rfl | hi
    · exact hP num1
    · rw [List.mem_singleton.mp hi]
      exact hP num2
  · rw [if_pos ⟨zero_mem_block _, zero_mem_block _⟩, takeWhile_block (nulFree_of_isDigits h1),
      takeWhile_block (nulFree_of_isDigits h2)]
    exact finishes_defined (sumString_of_lt h1 h2 hlt1 hlt2)

lemma ftStrjoin_of_lt {s1 s2 : List UInt8} (h1 : s1.length < 2 ^ 31) (h2 : s2.length < 2 ^ 31) :
    ftStrjoin s1 s2 = some (s1 ++ s2) := if_pos ⟨h1, h2⟩

/-! ## `get_mantissa` -/

/-- The bits down to place `i`. -/
lemma shift_step (m : ℕ) {i : ℕ} (h : i ≤ 62) :
    m >>> (62 - i) = 2 * (m >>> (63 - i)) + ((m >>> (62 - i)) &&& 1) := by
  have hsplit : 63 - i = 62 - i + 1 := by omega
  rw [hsplit, Nat.shiftRight_succ, Nat.and_one_is_mod, Nat.div_add_mod]

/-- One round of the loop: the digit of a set bit is added, in the same number of digits. -/
lemma digits_round {n b : ℕ} (hb : b ≤ 1) {i : ℕ} (hn : n < 2 ^ i) :
    5 ^ (i + 1) * (2 * n + b) < 10 ^ (i + 1) := by
  have hpow : (10 : ℕ) ^ (i + 1) = 5 ^ (i + 1) * 2 ^ (i + 1) := by
    rw [← mul_pow]
    norm_num
  rw [hpow, pow_succ 2]
  exact Nat.mul_lt_mul_of_pos_left (by omega) (by positivity)

/-- The powers of the two radices have room. -/
lemma ftLargePow_radix {r : Char} (hr : r = '2' ∨ r = '5') {n : ℕ} (hn : n < 2 ^ 15) :
    ftLargePow n [r.toUInt8] = some (numeral 10 digitByte (digitVal r.toUInt8 ^ n)) := by
  have hdigit : decimal.IsDigit r.toUInt8 ∧ digitVal r.toUInt8 < 10 := by
    rw [decimal_isDigit_iff]
    rcases hr with rfl | rfl <;> decide
  have hvalue : decimal.value [r.toUInt8] = digitVal r.toUInt8 := decimal.value_singleton _
  have hcount (k : ℕ) : digitCount (digitVal r.toUInt8 ^ k) ≤ k + 1 := by
    apply digitCount_le
    calc digitVal r.toUInt8 ^ k ≤ 10 ^ k := Nat.pow_le_pow_left hdigit.2.le k
      _ < 10 ^ (k + 1) := Nat.pow_lt_pow_right (by norm_num) (Nat.lt_succ_self k)
  have hdigits : decimal.IsDigits [r.toUInt8] := by
    intro c hc
    rw [List.mem_singleton.mp hc]
    exact hdigit.1
  rw [ftLargePow_of_fits hdigits, hvalue]
  intro t ht
  have hle : n / 2 ^ t ≤ n := Nat.div_le_self _ _
  have hhalf := hcount (n / 2 ^ t / 2)
  have hpred := hcount (n / 2 ^ t - 1)
  rw [PowStepFits, hvalue, List.length_singleton]
  omega

/-- One addition of the loop. -/
lemma addPower_finishes {P : BlockUse → Prop} (hP : ∀ s, P (.passed (block s))) (m : ℕ) {i : ℕ}
    (hi : i ≤ 62) (hlt : m >>> (63 - i) < 2 ^ i) :
    (if (m >>> (62 - i)) &&& 1 ≠ 0 then do
        let res ← defined (ftLargePow (i + 1) (cstr "5"))
        sumBlocks (block (decimal.padded (i + 1) (10 * (5 ^ i * (m >>> (63 - i)))))) (block res)
      else pure (decimal.padded (i + 1) (10 * (5 ^ i * (m >>> (63 - i)))))).Finishes P
      (· = decimal.padded (i + 1) (5 ^ (i + 1) * (m >>> (62 - i)))) := by
  have hstep := shift_step m hi
  have hbit : (m >>> (62 - i)) &&& 1 < 2 := by
    rw [Nat.and_one_is_mod]
    exact Nat.mod_lt _ (by norm_num)
  generalize hb : (m >>> (62 - i)) &&& 1 = b at hstep hbit ⊢
  generalize hn : m >>> (63 - i) = n at hstep hlt ⊢
  have hround : 10 * (5 ^ i * n) + b * 5 ^ (i + 1) = 5 ^ (i + 1) * (m >>> (62 - i)) := by
    rw [hstep]
    ring
  have hfits := digits_round (Nat.le_of_lt_succ hbit) hlt
  rw [← hstep, ← hround] at hfits
  split_ifs with hset
  · obtain rfl : b = 1 := by omega
    have hpow : (5 : ℕ) ^ (i + 1) < 10 ^ (i + 1) := Nat.pow_lt_pow_left (by norm_num) (by omega)
    have hlength := digitCount_le hpow
    have hlarge : ftLargePow (i + 1) (cstr "5") = some (numeral 10 digitByte (5 ^ (i + 1))) :=
      ftLargePow_radix (.inr rfl) (by omega)
    have htext : sumText (decimal.padded (i + 1) (10 * (5 ^ i * n)))
        (numeral 10 digitByte (5 ^ (i + 1))) =
          decimal.padded (i + 1) (5 ^ (i + 1) * (m >>> (62 - i))) := by
      have hlong : (decimal.padded (i + 1) (10 * (5 ^ i * n))).length = i + 1 :=
        decimal.length_padded_of_lt (by rw [decimal_base]; omega)
      unfold digitCount at hlength
      rw [sumText, hlong, max_eq_left hlength, Alphabet.value_padded, value_numeral, ← hround,
        Nat.one_mul]
    refine Run.Finishes.bind_eq (finishes_defined hlarge) ?_
    rw [← htext]
    refine sumBlocks_finishes hP (decimal.isDigits_padded _ _) (isDigits_numeral _) ?_ ?_
    · rw [decimal.length_padded_of_lt (by rw [decimal_base]; omega)]
      omega
    · unfold digitCount at hlength
      omega
  · obtain rfl : b = 0 := by omega
    rw [← hround, Nat.zero_mul, Nat.add_zero]
    exact Run.finishes_pure rfl

/-- **The loop of `get_mantissa`.**  Before round `i` the string has `i + 1` digits, of which the
last is the zero that has just been appended. -/
lemma mantissaLoop_finishes {P : BlockUse → Prop} (hP : ∀ s, P (.passed (block s))) {m : ℕ}
    (hm : m < 2 ^ 63) (k i : ℕ) (hk : k + 1 + i = 63) :
    (mantissaLoop m (k + 1) i (decimal.padded (i + 1) (10 * (5 ^ i * (m >>> (63 - i)))))).Finishes
      P (· = decimal.padded 63 (5 ^ 63 * m)) := by
  have hlt (i : ℕ) (hi : i ≤ 63) : m >>> (63 - i) < 2 ^ i := by
    rw [Nat.shiftRight_eq_div_pow, Nat.div_lt_iff_lt_mul (by positivity), ← pow_add]
    exact hm.trans_le (Nat.pow_le_pow_right (by norm_num) (by omega))
  induction k generalizing i with
  | zero =>
    obtain rfl : i = 62 := by omega
    refine Run.Finishes.bind_eq (addPower_finishes hP m (le_refl 62) (hlt 62 (by omega))) ?_
    rw [if_neg (lt_irrefl 62)]
    refine Run.Finishes.bind_eq (Run.finishes_pure rfl) ?_
    exact Run.finishes_pure rfl
  | succ k ih =>
    refine Run.Finishes.bind_eq (addPower_finishes hP m (by omega) (hlt i (by omega))) ?_
    have hfits : 5 ^ (i + 1) * (m >>> (62 - i)) < 10 ^ (i + 1) := by
      have hround := digits_round (Nat.le_of_lt_succ (Nat.mod_lt (m >>> (62 - i)) two_pos))
        (hlt i (by omega))
      rw [← Nat.and_one_is_mod, ← shift_step m (by omega)] at hround
      exact hround
    have hlength := decimal.length_padded_of_lt (show _ < decimal.base ^ (i + 1) from hfits)
    have hjoin : ftStrjoin (decimal.padded (i + 1) (5 ^ (i + 1) * (m >>> (62 - i)))) (cstr "0") =
        some (decimal.padded (i + 1 + 1) (10 * (5 ^ (i + 1) * (m >>> (63 - (i + 1)))))) := by
      have hzero := decimal.padded_append_zeros (i + 1) 1 (5 ^ (i + 1) * (m >>> (62 - i)))
      have hshift : 63 - (i + 1) = 62 - i := by omega
      rw [decimal_base, pow_one, Nat.mul_comm _ 10] at hzero
      rw [ftStrjoin_of_lt (by omega) (by decide), hshift, ← hzero]
      rfl
    rw [if_pos (by omega)]
    refine Run.Finishes.bind_eq (finishes_defined hjoin) ?_
    exact ih (i + 1) (by omega)

/-- The digits that `get_mantissa` leaves: the integer bit and 63 places. -/
lemma mantissa_digits (x : FiniteNumber) :
    cstr (if x.bits.bit then "1" else "0") ++ decimal.padded 63 (5 ^ 63 * x.bits.mantissa) =
      decimal.padded 64 (x.significand * 5 ^ 63) := by
  have hlt : 5 ^ 63 * x.bits.mantissa < 10 ^ 63 := by
    have hm := x.bits.mantissa_lt
    have hpow : (10 : ℕ) ^ 63 = 5 ^ 63 * 2 ^ 63 := by norm_num
    rw [hpow]
    exact Nat.mul_lt_mul_of_pos_left hm (by positivity)
  have hsplit (b : ℕ) (hb : b < 10) :
      [digitByte b] ++ decimal.padded 63 (5 ^ 63 * x.bits.mantissa) =
        decimal.padded 64 (5 ^ 63 * (b * 2 ^ 63 + x.bits.mantissa)) := by
    have htotal : 5 ^ 63 * (b * 2 ^ 63 + x.bits.mantissa) =
        10 ^ 63 * b + 5 ^ 63 * x.bits.mantissa := by
      rw [Nat.mul_add]
      congr 1
      have hpow : (10 : ℕ) ^ 63 = 5 ^ 63 * 2 ^ 63 := by norm_num
      rw [hpow]
      ring
    have hadd := decimal.padded_add 1 63 (5 ^ 63 * (b * 2 ^ 63 + x.bits.mantissa))
    rw [htotal, decimal_base, Nat.mul_add_div (by positivity), Nat.div_eq_of_lt hlt,
      Nat.add_zero b, Nat.mul_add_mod, Nat.mod_eq_of_lt hlt, decimal.padded_one_of_lt hb,
      ← htotal] at hadd
    exact hadd.symm
  have hbit := hsplit (if x.bits.bit then 1 else 0) (by split_ifs <;> norm_num)
  have hsig : (if x.bits.bit then 1 else 0) * 2 ^ 63 + x.bits.mantissa = x.significand := by
    rw [FiniteNumber.significand]
    split_ifs <;> omega
  rw [hsig, Nat.mul_comm (5 ^ 63) x.significand] at hbit
  rw [← hbit]
  split_ifs <;> rfl

/-- **`get_mantissa`.** -/
lemma getMantissa_finishes {P : BlockUse → Prop} (hP : ∀ s, P (.passed (block s)))
    (x : FiniteNumber)
    (hstores : x.bits.mantissa = 0 → ∀ a ∈ (ftStrndup (cstr "0") 63).log, P a) :
    (getMantissa x.bits).Finishes P (· = decimal.padded 64 (x.significand * 5 ^ 63)) := by
  have hplaces : (if x.bits.mantissa ≠ 0 then mantissaLoop x.bits.mantissa 63 0 (cstr "0")
      else ftStrndup (cstr "0") 63).Finishes P
        (· = decimal.padded 63 (5 ^ 63 * x.bits.mantissa)) := by
    split_ifs with hm
    · have hshift : x.bits.mantissa >>> (63 - 0) = 0 :=
        Nat.shiftRight_eq_zero _ _ x.bits.mantissa_lt
      have hstart : decimal.padded (0 + 1) (10 * (5 ^ 0 * (x.bits.mantissa >>> (63 - 0)))) =
          cstr "0" := by
        rw [hshift, Nat.mul_zero, Nat.mul_zero]
        exact decimal.padded_one_of_lt decimal.base_pos
      have hloop := mantissaLoop_finishes hP x.bits.mantissa_lt 62 0 rfl
      rw [hstart] at hloop
      exact hloop
    · rw [not_not] at hm
      refine ⟨hstores hm, _, rfl, ?_⟩
      rw [hm, Nat.mul_zero, decimal.padded_zeros]
      rfl
  have hlength : (decimal.padded 63 (5 ^ 63 * x.bits.mantissa)).length < 2 ^ 31 := by
    have hlong := congrArg List.length (mantissa_digits x)
    have htotal : x.significand * 5 ^ 63 < decimal.base ^ 64 := by
      have hlt := x.significand_lt
      rw [decimal_base]
      calc x.significand * 5 ^ 63 < 2 ^ 64 * 5 ^ 63 :=
            Nat.mul_lt_mul_of_pos_right hlt (by positivity)
        _ ≤ 10 ^ 64 := by norm_num
    rw [List.length_append, decimal.length_padded_of_lt htotal] at hlong
    omega
  have hfirst : (cstr (if x.bits.bit then "1" else "0")).length < 2 ^ 31 := by
    split_ifs <;> decide
  refine Run.Finishes.bind_eq hplaces ?_
  rw [← mantissa_digits x]
  exact finishes_defined (ftStrjoin_of_lt hfirst hlength)

/-! ## `split_float_parts` -/

namespace FiniteNumber

variable (x : FiniteNumber)

/-- The expansion, cut at the point. -/
def exactParts : FloatParts where
  decimal := decimal.canonical (x.expansion / 10 ^ x.fractLength)
  fract := decimal.padded x.fractLength (x.expansion % 10 ^ x.fractLength)

/-- The zeros that are appended for a precision beyond the expansion. -/
def padding (precision : ℤ) : ℕ :=
  if precision > x.fractLength then (int32 (precision + 1)).toNat else 0

/-- The parts that are handed to `ft_fround`. -/
def splitParts (precision : ℤ) : FloatParts :=
  { x.exactParts with
    fract := x.exactParts.fract ++ List.replicate (x.padding precision) '0'.toUInt8 }

lemma expansion_of_lt (h : x.bits.exponent < 16383) :
    x.expansion = x.significand * 5 ^ 63 * 5 ^ (16383 - x.bits.exponent) := by
  rw [expansion, if_pos h]

lemma expansion_of_le (h : ¬x.bits.exponent < 16383) :
    x.expansion = x.significand * 5 ^ 63 * 2 ^ (x.bits.exponent - 16383) := by
  rw [expansion, if_neg h]

/-- A number with a negative exponent is a fraction. -/
lemma expansion_lt (hbit : x.bits.bit = true) (h : x.bits.exponent < 16383) :
    x.expansion < 10 ^ x.fractLength := by
  have hten (n : ℕ) : (10 : ℕ) ^ n = 2 ^ n * 5 ^ n := by
    rw [← mul_pow]
    norm_num
  rw [x.expansion_of_lt h, fractLength, if_pos hbit, hten, Nat.mul_assoc, ← pow_add]
  refine Nat.mul_lt_mul_of_pos_right (x.significand_lt.trans_le ?_) (by positivity)
  exact Nat.pow_le_pow_right (by norm_num) (by omega)

/-- The factor for the exponent, in digits. -/
lemma factor_le {k : ℕ} (hk : k = 16384) :
    (if x.bits.exponent < 16383 then 5 ^ (16383 - x.bits.exponent)
      else 2 ^ (x.bits.exponent - 16383)) ≤ 10 ^ k := by
  have hexp := x.finite
  split_ifs
  · exact (Nat.pow_le_pow_left (by norm_num) _).trans
      (Nat.pow_le_pow_right (by norm_num) (by omega))
  · exact (Nat.pow_le_pow_left (by norm_num) _).trans
      (Nat.pow_le_pow_right (by norm_num) (by omega))

/-- The expansion is a number that an `int` counts the digits of. -/
lemma digitCount_expansion : digitCount x.expansion < 2 ^ 15 := by
  obtain ⟨k, hk⟩ : ∃ k, k = 16384 := ⟨_, rfl⟩
  have hsig : x.significand * 5 ^ 63 < 10 ^ 64 := by
    have hlt := x.significand_lt
    calc x.significand * 5 ^ 63 < 2 ^ 64 * 5 ^ 63 :=
          Nat.mul_lt_mul_of_pos_right hlt (by positivity)
      _ ≤ 10 ^ 64 := by norm_num
  have hlt : x.expansion < 10 ^ (64 + k) := by
    rw [expansion, pow_add]
    exact Nat.mul_lt_mul_of_lt_of_le hsig (x.factor_le hk) (Nat.pow_pos (by norm_num))
  have hcount := digitCount_le hlt
  omega

end FiniteNumber

/-- The integer part and the 63 places, in one string. -/
lemma saveParts_places (I F : ℕ) (hF : F < 10 ^ 63) {mbIsset : Bool} {e : ℤ}
    (he : ¬(e < 0 ∧ mbIsset = true))
    (hlength : (decimal.canonical I ++ decimal.padded 63 F).length < 2 ^ 31) :
    saveParts (decimal.canonical I ++ decimal.padded 63 F) mbIsset e =
      some ⟨decimal.canonical I, decimal.padded 63 F⟩ := by
  have hplaces := decimal.length_padded_of_lt (show F < decimal.base ^ 63 from hF)
  generalize hA : decimal.canonical I = A at hlength ⊢
  generalize hB : decimal.padded 63 F = B at hplaces hlength ⊢
  rw [List.length_append, hplaces] at hlength
  have hint : int32 ((A ++ B).length : ℤ) - 63 = A.length := by
    rw [int32_of_mem (by omega) (by rw [List.length_append]; omega), List.length_append, hplaces]
    omega
  have hsub : ftStrsub (A ++ B) 0 A.length = some A := by
    rw [ftStrsub, if_pos]
    · simp
    · rw [List.length_append]
      omega
  have hdup : ftStrdup ((A ++ B).drop (A.length : ℤ).toNat) = some B := by
    rw [Int.toNat_natCast, List.drop_left]
    exact ftStrdup_of_lt (by omega)
  rw [saveParts, if_neg he]
  simp only [hint, hsub, hdup]
  rfl

/-- The fraction, with the zeros that its exponent asks for. -/
lemma saveParts_fraction {N d : ℕ} (hd : d < 2 ^ 15) (hN : N < 10 ^ (63 + d)) (hpos : 0 < d) :
    saveParts (numeral 10 digitByte N) true (-d) =
      some ⟨decimal.canonical 0, decimal.padded (63 + d) N⟩ := by
  have hle : (numeral 10 digitByte N).length ≤ 63 + d := digitCount_le hN
  have hint : int32 ((numeral 10 digitByte N).length : ℤ) = (numeral 10 digitByte N).length := by
    apply int32_of_mem <;> omega
  have hrest : |((numeral 10 digitByte N).length : ℤ) - 63 + -d| =
      (63 + d - (numeral 10 digitByte N).length : ℕ) := by
    rw [abs_of_nonpos (by omega)]
    omega
  have hpadd : paddCopy (numeral 10 digitByte N)
      (63 + d - (numeral 10 digitByte N).length : ℕ) '0' true =
        some (decimal.padded (63 + d) N) := by
    rw [paddCopy_eq _ (by omega), if_pos (by omega)]
    rfl
  have hcond : (-d : ℤ) < 0 ∧ true = true := ⟨by omega, rfl⟩
  rw [saveParts, if_pos hcond]
  simp only [hint, hrest, hpadd]
  rfl

namespace FiniteNumber

variable (x : FiniteNumber)

/-- The exponent that `split_float_parts` works with. -/
def unbiased : ℤ := x.bits.exponent - 16383

/-- The digits of the mantissa times the power for the exponent. -/
lemma scaled_finishes {P : BlockUse → Prop} :
    (do let tmp ← defined
          (ftLargePow x.unbiased.natAbs (cstr (if x.unbiased < 0 then "5" else "2")))
        defined (multiplyString tmp (decimal.padded 64 (x.significand * 5 ^ 63)))).Finishes P
      (· = numeral 10 digitByte x.expansion) := by
  have hexp := x.finite
  have hlong : (decimal.padded 64 (x.significand * 5 ^ 63)).length = 64 := by
    apply decimal.length_padded_of_lt
    have hlt := x.significand_lt
    rw [decimal_base]
    calc x.significand * 5 ^ 63 < 2 ^ 64 * 5 ^ 63 :=
          Nat.mul_lt_mul_of_pos_right hlt (by positivity)
      _ ≤ 10 ^ 64 := by norm_num
  have hmul {r k : ℕ} (hr : r < 10) (hk : k < 2 ^ 15)
      (hvalue : x.expansion = x.significand * 5 ^ 63 * r ^ k) :
      multiplyString (numeral 10 digitByte (r ^ k))
        (decimal.padded 64 (x.significand * 5 ^ 63)) = some (numeral 10 digitByte x.expansion) := by
    have hcount : digitCount (r ^ k) ≤ k + 1 := by
      apply digitCount_le
      calc r ^ k ≤ 10 ^ k := Nat.pow_le_pow_left hr.le k
        _ < 10 ^ (k + 1) := Nat.pow_lt_pow_right (by norm_num) (Nat.lt_succ_self k)
    unfold digitCount at hcount
    rw [multiplyString_of_lt (isDigits_numeral _) (decimal.isDigits_padded _ _) (by omega),
      value_numeral, Alphabet.value_padded, hvalue, Nat.mul_comm]
  unfold unbiased
  by_cases hneg : x.bits.exponent < 16383
  · have hlt : (x.bits.exponent : ℤ) - 16383 < 0 := by omega
    have hnat : ((x.bits.exponent : ℤ) - 16383).natAbs = 16383 - x.bits.exponent := by omega
    have hpow : ftLargePow (16383 - x.bits.exponent) (cstr "5") =
        some (numeral 10 digitByte (5 ^ (16383 - x.bits.exponent))) :=
      ftLargePow_radix (.inr rfl) (by omega)
    rw [if_pos hlt, hnat]
    refine Run.Finishes.bind_eq (finishes_defined hpow) (finishes_defined ?_)
    exact hmul (by norm_num) (by omega) (x.expansion_of_lt hneg)
  · have hge : ¬(x.bits.exponent : ℤ) - 16383 < 0 := by omega
    have hnat : ((x.bits.exponent : ℤ) - 16383).natAbs = x.bits.exponent - 16383 := by omega
    have hpow : ftLargePow (x.bits.exponent - 16383) (cstr "2") =
        some (numeral 10 digitByte (2 ^ (x.bits.exponent - 16383))) :=
      ftLargePow_radix (.inl rfl) (by omega)
    rw [if_neg hge, hnat]
    refine Run.Finishes.bind_eq (finishes_defined hpow) (finishes_defined ?_)
    exact hmul (by norm_num) (by omega) (x.expansion_of_le hneg)

/-- **`save_parts`** on the product. -/
lemma saveParts_product (hbit : x.bits.bit = true) :
    saveParts (numeral 10 digitByte x.expansion) true x.unbiased = some x.exactParts := by
  have hexp := x.finite
  have hcount := x.digitCount_expansion
  have hlength : x.fractLength = 63 + (16383 - x.bits.exponent) := if_pos hbit
  by_cases hneg : x.bits.exponent < 16383
  · have hlt := x.expansion_lt hbit hneg
    have hunbiased : x.unbiased = -((16383 - x.bits.exponent : ℕ) : ℤ) := by
      rw [unbiased]
      omega
    rw [exactParts, Nat.div_eq_of_lt hlt, Nat.mod_eq_of_lt hlt, hlength, hunbiased]
    rw [hlength] at hlt
    exact saveParts_fraction (by omega) hlt (by omega)
  · have hplaces : x.fractLength = 63 := by omega
    have hlarge : 10 ^ 63 ≤ x.expansion := by
      have hpow : (10 : ℕ) ^ 63 = 2 ^ 63 * 5 ^ 63 := by norm_num
      have hsig := x.significand_of_bit hbit
      rw [x.expansion_of_le hneg, hpow]
      calc 2 ^ 63 * 5 ^ 63 ≤ x.significand * 5 ^ 63 := Nat.mul_le_mul_right _ (by omega)
        _ ≤ x.significand * 5 ^ 63 * 2 ^ (x.bits.exponent - 16383) :=
            Nat.le_mul_of_pos_right _ (by positivity)
    have hdigits : 64 ≤ (numeral decimal.base decimal.digit x.expansion).length := by
      have hlong := decimal.length_padded (show x.expansion % 10 ^ 64 < decimal.base ^ (63 + 1)
        from Nat.mod_lt _ (by positivity))
      by_contra hshort
      have hvalue := (decimal.isDigits_numeral x.expansion).value_lt
      rw [Alphabet.value_numeral] at hvalue
      have hpow : decimal.base ^ (numeral decimal.base decimal.digit x.expansion).length ≤
          10 ^ 63 := Nat.pow_le_pow_right (by norm_num) (by omega)
      omega
    have hsplit : numeral 10 digitByte x.expansion =
        decimal.canonical (x.expansion / 10 ^ 63) ++
          decimal.padded 63 (x.expansion % 10 ^ 63) :=
      (decimal.padded_of_le hdigits).symm.trans (decimal.padded_add 1 63 x.expansion)
    have hcond : ¬(x.unbiased < 0 ∧ true = true) := by
      rw [unbiased]
      omega
    unfold digitCount at hcount
    rw [exactParts, hplaces, hsplit]
    refine saveParts_places _ _ (Nat.mod_lt _ (by positivity)) hcond ?_
    rw [← hsplit]
    omega

/-- `save_parts` on the digits of zero. -/
lemma saveParts_zero (hbit : ¬x.bits.bit = true) :
    saveParts (decimal.padded 64 0) false x.unbiased = some x.exactParts := by
  have hzero : x.expansion = 0 := by
    rw [expansion, x.significand_of_not_bit hbit, Nat.zero_mul, Nat.zero_mul]
  have hplaces : x.fractLength = 63 := if_neg hbit
  have hsplit := decimal.padded_add 1 63 0
  rw [Nat.zero_div, Nat.zero_mod] at hsplit
  have hshort : (decimal.padded 64 0).length < 2 ^ 31 := by
    rw [decimal.length_padded_of_lt (Nat.pow_pos decimal.base_pos)]
    norm_num
  rw [exactParts, hzero, hplaces, Nat.zero_div, Nat.zero_mod]
  rw [show decimal.padded 64 0 = decimal.canonical 0 ++ decimal.padded 63 0 from hsplit] at hshort ⊢
  exact saveParts_places 0 0 (by positivity) (fun h => Bool.false_ne_true h.2) hshort

lemma length_exactParts_fract : x.exactParts.fract.length = x.fractLength :=
  decimal.length_padded_of_lt (Nat.mod_lt _ (Nat.pow_pos decimal.base_pos))

lemma length_splitParts_fract (precision : ℤ) :
    (x.splitParts precision).fract.length = x.fractLength + x.padding precision := by
  show (x.exactParts.fract ++ List.replicate (x.padding precision) '0'.toUInt8).length = _
  rw [List.length_append, List.length_replicate, x.length_exactParts_fract]

lemma isDigits_splitParts_fract (precision : ℤ) :
    decimal.IsDigits (x.splitParts precision).fract :=
  Alphabet.isDigits_append.mpr
    ⟨decimal.isDigits_padded _ _, decimal.isDigits_replicate _ decimal.base_pos⟩

/-- Extending the fraction to the precision. -/
lemma padd_fract {precision : ℤ} (h : precision > x.fractLength) :
    paddCopy x.exactParts.fract (int32 (precision + 1)) '0' false =
      some (x.splitParts precision).fract := by
  have hlt : x.exactParts.fract.length < 2 ^ 31 := by
    have hplaces := x.fractLength_lt
    rw [x.length_exactParts_fract]
    omega
  have hpadding : x.padding precision = (int32 (precision + 1)).toNat := if_pos h
  rw [paddCopy_eq _ (int32_le (precision + 1)).2, if_pos hlt, splitParts, hpadding]
  rfl

end FiniteNumber

/-- **`split_float_parts`.** -/
lemma splitFloatParts_finishes {P : BlockUse → Prop} (hP : ∀ s, P (.passed (block s)))
    (x : FiniteNumber)
    (hstores : x.bits.mantissa = 0 → ∀ a ∈ (ftStrndup (cstr "0") 63).log, P a) (precision : ℤ) :
    (splitFloatParts x.bits precision).Finishes P (· = x.splitParts precision) := by
  have hmb : (decide (x.bits.mantissa ≠ 0) || x.bits.bit) = x.bits.bit := by
    rcases x.normal with hbit | hzero
    · rw [hbit, Bool.or_true]
    · rw [hzero]
      rfl
  have hparts : ∃ mantiss,
      (if x.bits.bit then do
          let tmp ← defined
            (ftLargePow x.unbiased.natAbs (cstr (if x.unbiased < 0 then "5" else "2")))
          defined (multiplyString tmp (decimal.padded 64 (x.significand * 5 ^ 63)))
        else pure (decimal.padded 64 (x.significand * 5 ^ 63))).Finishes P (· = mantiss) ∧
      saveParts mantiss x.bits.bit x.unbiased = some x.exactParts := by
    by_cases hbit : x.bits.bit = true
    · rw [if_pos hbit, hbit]
      exact ⟨_, x.scaled_finishes, x.saveParts_product hbit⟩
    · rw [if_neg hbit, Bool.eq_false_iff.mpr hbit, x.significand_of_not_bit hbit, Nat.zero_mul]
      exact ⟨_, Run.finishes_pure rfl, x.saveParts_zero hbit⟩
  obtain ⟨mantiss, hscaled, hsave⟩ := hparts
  have hlength : int32 x.exactParts.fract.length = x.fractLength := by
    have hlt := x.fractLength_lt
    rw [x.length_exactParts_fract]
    exact int32_of_mem (by omega) (by omega)
  refine Run.Finishes.bind_eq (getMantissa_finishes hP x hstores) ?_
  simp only [hmb]
  refine Run.Finishes.bind_eq hscaled ?_
  refine Run.Finishes.bind_eq (finishes_defined hsave) ?_
  rw [hlength]
  split_ifs with hlong
  · refine Run.Finishes.bind_eq (finishes_defined (x.padd_fract hlong)) ?_
    exact Run.finishes_pure rfl
  · have hpadding : x.padding precision = 0 := if_neg hlong
    refine Run.finishes_pure ?_
    rw [FiniteNumber.splitParts, hpadding, List.replicate_zero, List.append_nil]

end FtNm
