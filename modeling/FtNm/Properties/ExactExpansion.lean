import FtNm.Properties.Support.FloatExpansion

/-!
# The decimal expansion of a double

Before anything is rounded, `decimal` and `fract` hold the number digit by digit.
`exactExpansion_splitFloatParts` says that they hold all of it, for every exponent and every
precision: the two strings, read as one number with the point between them, are the absolute
value.

What `split_float_parts` returns is `FiniteNumber.splitParts`; here its digits are put together
again.
-/

namespace FtNm

open AccessLog Numeral

/-- **Exact expansion.**  Both parts are non-empty strings of digits, and the number that they
write down is the absolute value of `x`. -/
structure ExactExpansion (x : FiniteNumber) (parts : FloatParts) : Prop where
  decimal_ne : parts.decimal ≠ []
  fract_ne : parts.fract ≠ []
  decimal_digits : decimal.IsDigits parts.decimal
  fract_digits : decimal.IsDigits parts.fract
  value : (decimal.value (parts.decimal ++ parts.fract) : ℚ) / 10 ^ parts.fract.length =
    x.magnitude

namespace FiniteNumber

variable (x : FiniteNumber)

/-- The two parts side by side are the digits of the expansion. -/
lemma value_exactParts :
    decimal.value (x.exactParts.decimal ++ x.exactParts.fract) = x.expansion := by
  rw [Alphabet.value_append, x.length_exactParts_fract]
  show decimal.value (decimal.padded 1 _) * 10 ^ x.fractLength +
    decimal.value (decimal.padded x.fractLength _) = _
  rw [Alphabet.value_padded, Alphabet.value_padded, Nat.div_add_mod']

/-- Padding moves the last place, not the value. -/
lemma value_splitParts (precision : ℤ) :
    decimal.value ((x.splitParts precision).decimal ++ (x.splitParts precision).fract) =
      x.expansion * 10 ^ x.padding precision := by
  have hzeros := decimal.value_append_zeros (x.exactParts.decimal ++ x.exactParts.fract)
    (x.padding precision)
  rw [value_exactParts, List.append_assoc] at hzeros
  exact hzeros

lemma exactExpansion_splitParts (precision : ℤ) : ExactExpansion x (x.splitParts precision) where
  decimal_ne := Alphabet.canonical_ne_nil _
  fract_ne := by
    apply List.ne_nil_of_length_pos
    have hplaces := x.fractLength_ge
    rw [length_splitParts_fract]
    omega
  decimal_digits := decimal.isDigits_padded _ _
  fract_digits := x.isDigits_splitParts_fract precision
  value := by
    have hpow : (10 : ℚ) ^ x.padding precision ≠ 0 := by positivity
    rw [value_splitParts, length_splitParts_fract, magnitude_eq, pow_add]
    push_cast
    rw [mul_div_mul_right _ _ hpow]

end FiniteNumber

/-- **The expansion is exact.** -/
theorem exactExpansion_splitFloatParts (x : FiniteNumber) (precision : ℤ) :
    ∃ parts, (splitFloatParts x.bits precision).out = .ok parts ∧ ExactExpansion x parts := by
  have hP : ∀ s, (fun _ : BlockUse => True) (.passed (block s)) := fun _ => trivial
  obtain ⟨-, parts, hout, rfl⟩ :=
    splitFloatParts_finishes hP x (fun _ _ _ => trivial) precision
  exact ⟨_, hout, x.exactExpansion_splitParts precision⟩

end FtNm
