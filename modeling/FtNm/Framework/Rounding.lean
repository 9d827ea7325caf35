import Mathlib.Tactic

/-!
# Rounding to the nearest integer

`IsRoundEven x n` says that `n` is the integer nearest to `x`, and the even one of the two when
`x` lies half-way between them.  `roundEven a b` is that integer for a quotient of natural
numbers.

* `isRoundEven_roundEven` connects the two.
* `roundEven_of_ne_half` is the way a program rounds that adds half of the last place and cuts,
  and `roundEven_of_half` what remains to be done at the half-way points.
-/

namespace Rounding

/-- `n` is the integer nearest to `x`, and even if there are two. -/
def IsRoundEven (x : ℚ) (n : ℤ) : Prop := |x - n| ≤ 1 / 2 ∧ (|x - n| = 1 / 2 → Even n)

/-- `x` lies half-way between two integers. -/
def HalfWay (x : ℚ) : Prop := ∃ n : ℤ, x = n + 1 / 2

/-- The quotient of `a` and `b`, rounded. -/
def roundEven (a b : ℕ) : ℕ :=
  if 2 * (a % b) < b then a / b
  else if b < 2 * (a % b) then a / b + 1
  else a / b + a / b % 2

/-! ## The specification -/

/-- The sign makes no difference. -/
lemma IsRoundEven.neg {x : ℚ} {n : ℤ} (h : IsRoundEven x n) : IsRoundEven (-x) (-n) := by
  have habs : |-x - (-n : ℤ)| = |x - n| := by
    rw [← abs_neg]
    congr 1
    push_cast
    ring
  rw [IsRoundEven, habs, even_neg]
  exact h

/-- A quotient is its integer part and a fraction. -/
lemma div_eq_add {a b : ℕ} (hb : 0 < b) : (a : ℚ) / b = (a / b : ℕ) + (a % b : ℕ) / (b : ℚ) := by
  have hb' : (b : ℚ) ≠ 0 := by exact_mod_cast hb.ne'
  have hsplit : ((a / b * b + a % b : ℕ) : ℚ) = a := congrArg _ (Nat.div_add_mod' a b)
  push_cast at hsplit
  rw [eq_comm, ← hsplit]
  field_simp

lemma isRoundEven_roundEven (a : ℕ) {b : ℕ} (hb : 0 < b) :
    IsRoundEven ((a : ℚ) / b) (roundEven a b) := by
  have hb' : (0 : ℚ) < b := by exact_mod_cast hb
  have hmod : (a % b : ℕ) < (b : ℚ) := by exact_mod_cast Nat.mod_lt a hb
  have hnonneg : (0 : ℚ) ≤ (a % b : ℕ) / (b : ℚ) := by positivity
  rw [div_eq_add hb, roundEven]
  split_ifs with hlow hhigh
  · have hlow' : (2 : ℚ) * (a % b : ℕ) < b := by exact_mod_cast hlow
    have hfrac : (a % b : ℕ) / (b : ℚ) < 1 / 2 := by
      rw [div_lt_iff₀ hb']
      linarith
    have habs : |((a / b : ℕ) : ℚ) + (a % b : ℕ) / (b : ℚ) - ((a / b : ℕ) : ℤ)| < 1 / 2 := by
      rw [Int.cast_natCast, add_sub_cancel_left, abs_of_nonneg hnonneg]
      exact hfrac
    exact ⟨habs.le, fun h => absurd h habs.ne⟩
  · have hhigh' : (b : ℚ) < 2 * (a % b : ℕ) := by exact_mod_cast hhigh
    have hfrac : 1 / 2 < (a % b : ℕ) / (b : ℚ) := by
      rw [lt_div_iff₀ hb']
      linarith
    have hlt : (a % b : ℕ) / (b : ℚ) < 1 := (div_lt_one hb').mpr hmod
    have habs : |((a / b : ℕ) : ℚ) + (a % b : ℕ) / (b : ℚ) - ((a / b + 1 : ℕ) : ℤ)| < 1 / 2 := by
      rw [Int.cast_natCast, Nat.cast_add, Nat.cast_one, add_sub_add_left_eq_sub, abs_lt]
      constructor <;> linarith
    exact ⟨habs.le, fun h => absurd h habs.ne⟩
  · have hhalf : 2 * (a % b) = b := by omega
    have hhalf' : (2 : ℚ) * (a % b : ℕ) = b := by exact_mod_cast hhalf
    have hfrac : (a % b : ℕ) / (b : ℚ) = 1 / 2 := by
      rw [div_eq_iff hb'.ne']
      linarith
    rw [hfrac, IsRoundEven, Int.cast_natCast, Nat.cast_add]
    rcases Nat.mod_two_eq_zero_or_one (a / b) with heven | hodd
    · rw [heven, Nat.cast_zero, add_zero, add_sub_cancel_left, abs_of_pos (by norm_num)]
      refine ⟨le_rfl, fun _ => ?_⟩
      exact_mod_cast Nat.even_iff.mpr heven
    · have hsub : ((a / b : ℕ) : ℚ) + 1 / 2 - ((a / b : ℕ) + (1 : ℕ)) = -(1 / 2) := by
        push_cast
        ring
      rw [hodd, hsub, abs_neg, abs_of_pos (by norm_num)]
      refine ⟨le_rfl, fun _ => ?_⟩
      have heven : Even (a / b + 1) := by
        rw [Nat.even_iff]
        omega
      exact_mod_cast heven

/-- The half-way points among the quotients. -/
lemma halfWay_iff {a b : ℕ} (hb : 0 < b) : HalfWay ((a : ℚ) / b) ↔ 2 * (a % b) = b := by
  have hb' : (b : ℚ) ≠ 0 := by exact_mod_cast hb.ne'
  constructor
  · rintro ⟨n, hn⟩
    rw [div_eq_iff hb'] at hn
    have hint : 2 * (a : ℤ) = 2 * (n * b) + b := by
      have hdouble : 2 * (a : ℚ) = 2 * (n * b) + b := by
        rw [hn]
        ring
      exact_mod_cast hdouble
    have hpos : (0 : ℤ) < b := by exact_mod_cast hb
    have hmod : (2 * (a : ℤ)) % (2 * b) = b := by
      rw [hint, mul_left_comm, Int.add_comm, Int.add_mul_emod_self_right,
        Int.emod_eq_of_lt hpos.le (by linarith)]
    rw [Int.mul_emod_mul_of_pos _ _ (by norm_num)] at hmod
    exact_mod_cast hmod
  · intro h
    refine ⟨(a / b : ℕ), ?_⟩
    have hhalf' : (2 : ℚ) * (a % b : ℕ) = b := by exact_mod_cast h
    have hfrac : (a % b : ℕ) / (b : ℚ) = 1 / 2 := by
      rw [div_eq_iff hb']
      linarith
    rw [div_eq_add hb, hfrac, Int.cast_natCast]

/-! ## Computing it -/

/-- Away from the half-way points: add half, and cut. -/
lemma roundEven_of_ne_half {a half : ℕ} (hhalf : 0 < half) (h : a % (2 * half) ≠ half) :
    roundEven a (2 * half) = (a + half) / (2 * half) := by
  have hsplit := Nat.div_add_mod a (2 * half)
  have hlt := Nat.mod_lt a (show 0 < 2 * half by omega)
  generalize hq : a / (2 * half) = q at hsplit
  generalize hr : a % (2 * half) = r at hsplit hlt h
  have hdiv : (a + half) / (2 * half) = q + (r + half) / (2 * half) := by
    rw [← hsplit, Nat.add_assoc, Nat.mul_add_div (by omega)]
  rw [roundEven, hq, hr, hdiv]
  split_ifs with hlow hhigh
  · rw [Nat.div_eq_of_lt (show r + half < 2 * half by omega), Nat.add_zero]
  · have hone : (r + half) / (2 * half) = 1 := Nat.div_eq_of_lt_le (by omega) (by omega)
    rw [hone]
  · omega

/-- At the half-way points: cut, and make it even. -/
lemma roundEven_of_half {a b : ℕ} (h : 2 * (a % b) = b) : roundEven a b = a / b + a / b % 2 := by
  rw [roundEven, if_neg (by omega), if_neg (by omega)]

lemma roundEven_le (a b : ℕ) : roundEven a b ≤ a / b + 1 := by
  rw [roundEven]
  split_ifs <;> omega

/-- Nothing to be rounded. -/
lemma roundEven_mul (n : ℕ) {b : ℕ} (hb : 0 < b) : roundEven (n * b) b = n := by
  rw [roundEven, Nat.mul_mod_left, Nat.mul_div_cancel n hb, if_pos (by omega)]

/-- The quotient is all that counts. -/
lemma roundEven_mul_right (a b : ℕ) {c : ℕ} (hc : 0 < c) :
    roundEven (a * c) (b * c) = roundEven a b := by
  rw [roundEven, roundEven, Nat.mul_mod_mul_right, Nat.mul_div_mul_right _ _ hc, ← Nat.mul_assoc]
  simp only [Nat.mul_lt_mul_right hc]

end Rounding
