import Mathlib.Data.List.TakeWhile
import FtNm.Framework.Rounding
import FtNm.Properties.Support.FloatExpansion

/-!
# Rounding a fraction in place

What `is_roundable` and `ft_fround` do with an integer part `I` and a fraction `F`.  Adding five
units of the place behind the last one that is printed and cutting is rounding, unless the
digits cut off are exactly half of a unit (`Tie`); then `is_roundable` settles the matter
itself, in the integer part.

`P` is again a property of block uses, which holds of the stores that stay inside and of the
blocks of strings.
-/

namespace FtNm

open AccessLog Numeral Rounding

/-- What a precision is for `%f`: an `int` that is not negative. -/
def Precision : Type := {p : ℕ // p < 2 ^ 31}

/-- A small precision. -/
def Precision.ofFin (p : Fin 16) : Precision := ⟨p, p.2.trans (by norm_num)⟩

/-- The digits behind the precision are half of a unit of the last place. -/
def Tie (p : ℕ) (fract : List UInt8) : Prop :=
  fract.drop p = '5'.toUInt8 :: List.replicate (fract.length - (p + 1)) '0'.toUInt8

instance (p : ℕ) (fract : List UInt8) : Decidable (Tie p fract) :=
  inferInstanceAs (Decidable (_ = _))

/-- Half of a unit of the last printed place, as `is_roundable` writes it. -/
def half (p flen : ℕ) : List UInt8 :=
  List.replicate p '0'.toUInt8 ++ '5'.toUInt8 :: List.replicate (flen - (p + 1)) '0'.toUInt8

/-! ## The number that is added -/

section Half

variable {p flen : ℕ}

lemma length_half (h : p < flen) : (half p flen).length = flen := by
  rw [half, List.length_append, List.length_cons, List.length_replicate, List.length_replicate]
  omega

lemma isDigits_half (p flen : ℕ) : decimal.IsDigits (half p flen) := by
  rw [half, Alphabet.isDigits_append, Alphabet.isDigits_cons]
  exact ⟨decimal.isDigits_replicate _ decimal.base_pos,
    decimal.isDigit_digit (show 5 < decimal.base by norm_num),
    decimal.isDigits_replicate _ decimal.base_pos⟩

lemma value_half (p flen : ℕ) : decimal.value (half p flen) = 5 * 10 ^ (flen - (p + 1)) := by
  have hzeros := decimal.value_zeros (flen - (p + 1))
  rw [decimal_digit, digitByte_zero] at hzeros
  have hlead := decimal.value_zeros_append p
    ('5'.toUInt8 :: List.replicate (flen - (p + 1)) '0'.toUInt8)
  rw [decimal_digit, digitByte_zero] at hlead
  rw [half, hlead, Alphabet.value_cons, hzeros, List.length_replicate, Nat.add_zero]
  rfl

/-- Two halves are a unit. -/
lemma two_mul_half (h : p < flen) :
    (10 : ℕ) ^ (flen - p) = 2 * (5 * 10 ^ (flen - (p + 1))) := by
  have hsucc : flen - p = flen - (p + 1) + 1 := by omega
  rw [hsucc, pow_succ]
  ring

/-- The block of zeros with the five stored in it. -/
lemma set_block (h : p < flen) :
    (block (List.replicate flen '0'.toUInt8)).set p '5'.toUInt8 = block (half p flen) := by
  have hsplit : List.replicate flen '0'.toUInt8 =
      List.replicate p '0'.toUInt8 ++ '0'.toUInt8 ::
        List.replicate (flen - (p + 1)) '0'.toUInt8 := by
    rw [← List.replicate_succ, ← List.replicate_add]
    congr 1
    omega
  rw [hsplit, block, block, half, List.append_assoc, List.append_assoc]
  have hlength : (List.replicate p '0'.toUInt8).length = p := List.length_replicate
  rw [List.set_append_right _ _ hlength.le, hlength, Nat.sub_self]
  rfl

end Half

/-! ## Half-way digits -/

/-- The tests of `is_roundable`. -/
lemma tie_iff {p : ℕ} {fract : List UInt8} (hp : p < fract.length) :
    Tie p fract ↔ fract[p]? = some '5'.toUInt8 ∧
      p + 1 + ((fract.drop (p + 1)).takeWhile (· = '0'.toUInt8)).length = fract.length := by
  have hcons : fract.drop p = fract[p] :: fract.drop (p + 1) := List.drop_eq_getElem_cons hp
  have hlength : (fract.drop (p + 1)).length = fract.length - (p + 1) := List.length_drop
  rw [Tie, hcons, List.cons.injEq, List.getElem?_eq_getElem hp, Option.some.injEq]
  refine and_congr_right fun _ => ?_
  constructor
  · intro h
    rw [h, List.takeWhile_replicate, if_pos (by simp), List.length_replicate]
    omega
  · intro h
    have hall : (fract.drop (p + 1)).takeWhile (· = '0'.toUInt8) = fract.drop (p + 1) := by
      apply (List.takeWhile_prefix _).eq_of_length
      omega
    rw [List.eq_replicate_iff]
    refine ⟨hlength, fun c hc => ?_⟩
    have hzeros := List.takeWhile_eq_self_iff.mp hall c hc
    exact of_decide_eq_true hzeros

/-- Half of a unit as a number. -/
lemma tie_iff_value {p : ℕ} {fract : List UInt8} (hp : p < fract.length)
    (hdigits : decimal.IsDigits fract) :
    Tie p fract ↔
      decimal.value fract % 10 ^ (fract.length - p) = 5 * 10 ^ (fract.length - (p + 1)) := by
  have hhalf : '5'.toUInt8 :: List.replicate (fract.length - (p + 1)) '0'.toUInt8 =
      half 0 (fract.length - p) := by
    rw [half, Nat.zero_add, Nat.sub_sub]
    rfl
  have hvalue := value_half 0 (fract.length - p)
  have hdrop := (hdigits.value_take p).2
  rw [Nat.zero_add, Nat.sub_sub] at hvalue
  rw [decimal_base] at hdrop
  rw [Tie, hhalf, ← hdrop, ← hvalue]
  constructor
  · exact congrArg _
  · refine (hdigits.drop p).value_inj (isDigits_half 0 _) ?_
    rw [length_half (by omega), List.length_drop]

/-- The last digit tells whether a number is odd. -/
lemma getLastD_canonical (I : ℕ) (c : UInt8) :
    digitVal ((decimal.canonical I).getLastD c) % 2 = I % 2 := by
  have hlast : digitVal (digitByte (I % 10)) = I % 10 :=
    decimal.val_digit _ (Nat.mod_lt _ decimal.base_pos)
  rw [Alphabet.canonical, decimal.padded_succ, decimal_base, decimal_digit]
  simp only [List.getLastD_concat]
  rw [hlast]
  omega

/-- Adding one to a number that is written canonically. -/
lemma sumText_one (I : ℕ) :
    sumText (decimal.canonical I) (cstr "1") = decimal.canonical (I + 1) ∧
      sumText (cstr "1") (decimal.canonical I) = decimal.canonical (I + 1) := by
  have hone : decimal.value (cstr "1") = 1 := rfl
  have hlen : (cstr "1").length = 1 := rfl
  have hle : 1 ≤ (decimal.canonical I).length := decimal.le_length_padded 1 I
  have hgrow : (decimal.canonical I).length ≤
      (numeral decimal.base decimal.digit (I + 1)).length := by
    have hpos : 1 ≤ (numeral decimal.base decimal.digit (I + 1)).length :=
      List.length_pos_iff.mpr (numeral_ne_nil decimal.one_lt (Nat.succ_ne_zero I) _)
    rw [Alphabet.canonical, Alphabet.padded, length_padLeft]
    exact max_le hpos (decimal.length_numeral_mono (Nat.le_succ I))
  have hpadded : decimal.padded (decimal.canonical I).length (I + 1) =
      decimal.canonical (I + 1) := by
    rw [decimal.padded_of_le hgrow, Alphabet.canonical_of_ne_zero (Nat.succ_ne_zero I)]
  constructor
  · rw [sumText, hone, hlen, max_eq_left hle, Alphabet.canonical, Alphabet.value_padded]
    exact hpadded
  · rw [sumText, hone, hlen, max_eq_right hle, Alphabet.canonical, Alphabet.value_padded,
      Nat.add_comm]
    exact hpadded

/-! ## `is_roundable` -/

/-- The store stays inside its block, and a string ends inside its block. -/
def BlockUse.InBounds : BlockUse → Prop
  | .store size index => 0 ≤ index ∧ index < size
  | .passed block => 0 ∈ block

lemma inBounds_block (s : List UInt8) : (BlockUse.passed (block s)).InBounds := zero_mem_block s

/-- What `is_roundable` makes of the parts, and the number that is to be added. -/
def roundable (p I : ℕ) (fract : List UInt8) : FloatParts × Option (List UInt8) :=
  if Tie p fract then (⟨decimal.canonical (I + I % 2), fract⟩, none)
  else (⟨decimal.canonical I, fract⟩, some (block (half p fract.length)))

section Fround

variable {P : BlockUse → Prop} {p I : ℕ} {fract : List UInt8}

/-- The stores of `is_roundable`. -/
lemma inBounds_stores (hp : p < fract.length) :
    ∀ u ∈ (List.range fract.length).map (fun i : ℕ => BlockUse.store (fract.length + 1) i) ++
      [.store (fract.length + 1) p], u.InBounds := by
  intro u hu
  rcases List.mem_append.mp hu with hu | hu
  · obtain ⟨i, hi, rfl⟩ := List.mem_map.mp hu
    have hlt := List.mem_range.mp hi
    exact ⟨Int.natCast_nonneg i, by omega⟩
  · rw [List.mem_singleton.mp hu]
    exact ⟨Int.natCast_nonneg p, by omega⟩

/-- **`is_roundable`**, for a precision inside the fraction. -/
lemma isRoundable_finishes (hP : ∀ u : BlockUse, u.InBounds → P u) (hp : p < fract.length)
    (hI : (decimal.canonical I).length < 2 ^ 31) :
    (isRoundable p fract.length ⟨decimal.canonical I, fract⟩).Finishes P
      (· = roundable p I fract) := by
  rw [isRoundable, if_neg (by omega)]
  simp only [Int.toNat_natCast]
  refine Run.Finishes.bind_eq
    (Run.finishes_touch (fun u hu => hP u (inBounds_stores hp u hu)) rfl) ?_
  rw [if_pos ⟨Int.natCast_nonneg p, by omega⟩, set_block hp, roundable]
  have hnext : ((p : ℤ) + 1).toNat = p + 1 := by omega
  rw [hnext]
  have htie := tie_iff hp
  by_cases hfive : fract[p]? = some '5'.toUInt8
  · by_cases hzeros :
        p + 1 + ((fract.drop (p + 1)).takeWhile (· = '0'.toUInt8)).length = fract.length
    · rw [if_pos hfive, if_pos (by exact_mod_cast hzeros), if_pos (htie.mpr ⟨hfive, hzeros⟩)]
      have hlast : digitVal ((decimal.canonical I).getLastD '0'.toUInt8) % 2 = I % 2 :=
        getLastD_canonical I _
      simp only [hlast]
      rcases Nat.mod_two_eq_zero_or_one I with heven | hodd
      · rw [heven, if_neg (not_not.mpr rfl)]
        exact Run.finishes_pure rfl
      · have hone : decimal.IsDigits (cstr "1") := decimal.isDigits_padded 1 1
        have hsum := sumBlocks_finishes (fun s => hP _ (inBounds_block s))
          (decimal.isDigits_padded 1 I) hone hI (by decide)
        rw [hodd, if_pos one_ne_zero, ← (sumText_one I).1]
        exact Run.Finishes.bind_eq hsum (Run.finishes_pure rfl)
    · rw [if_pos hfive, if_neg (by exact_mod_cast hzeros), if_neg fun h => hzeros (htie.mp h).2]
      exact Run.finishes_pure rfl
  · rw [if_neg hfive, if_neg fun h => hfive (htie.mp h).1]
    exact Run.finishes_pure rfl

/-! ## `ft_fround` -/

/-- A number with `p` decimal places, in two parts. -/
def cutParts (p D : ℕ) : FloatParts where
  decimal := decimal.canonical (D / 10 ^ p)
  fract := decimal.padded p (D % 10 ^ p)

/-- Half of a unit of the last place is added, and the places behind it are cut. -/
def addHalf (p I : ℕ) (fract : List UInt8) : ℕ :=
  (I * 10 ^ fract.length + (decimal.value (half p fract.length) + decimal.value fract)) /
    10 ^ (fract.length - p)

/-- Cutting digits. -/
lemma take_padded {flen T : ℕ} (hp : p < flen) (hT : T < 10 ^ flen) :
    (decimal.padded flen T).take p = decimal.padded p (T / 10 ^ (flen - p)) := by
  have hsplit := decimal.padded_add p (flen - p) T
  have hquotient : T / 10 ^ (flen - p) < decimal.base ^ p := by
    rw [Nat.div_lt_iff_lt_mul (by positivity), decimal_base, ← pow_add, Nat.add_sub_cancel' hp.le]
    exact hT
  rw [Nat.add_sub_cancel' hp.le, decimal_base] at hsplit
  rw [hsplit, List.take_left' (decimal.length_padded_of_lt hquotient)]

/-- The carry goes into the integer part. -/
lemma cutParts_addHalf (hp : p < fract.length) {S : ℕ}
    (hS : decimal.value (half p fract.length) + decimal.value fract = S) :
    cutParts p (addHalf p I fract) =
      ⟨decimal.canonical (I + S / 10 ^ fract.length),
        decimal.padded p (S % 10 ^ fract.length / 10 ^ (fract.length - p))⟩ := by
  have hpow := pow_sub_mul_pow 10 hp.le
  have hdiv : addHalf p I fract / 10 ^ p = I + S / 10 ^ fract.length := by
    rw [addHalf, hS, Nat.div_div_eq_div_mul, hpow, Nat.mul_comm I,
      Nat.mul_add_div (by positivity)]
  have hmod : addHalf p I fract % 10 ^ p =
      S % 10 ^ fract.length / 10 ^ (fract.length - p) := by
    rw [addHalf, hS, ← Nat.mod_mul_right_div_self, hpow, Nat.mul_comm I, Nat.mul_add_mod]
  rw [cutParts, hdiv, hmod]

/-- A carry is a digit of its own. -/
lemma padded_carry {flen S : ℕ} (hle : 10 ^ flen ≤ S) (hlt : S < 2 * 10 ^ flen) :
    decimal.padded flen S = cstr "1" ++ decimal.padded flen (S % 10 ^ flen) := by
  have hsplit := decimal.padded_add 1 flen S
  have hquotient : S / 10 ^ flen = 1 := Nat.div_eq_of_lt_le (by omega) (by omega)
  have hlong := decimal.length_padded (k := flen) (n := S) (by
    rw [decimal_base, pow_succ]
    omega)
  rw [decimal_base, if_pos hle, Alphabet.padded, length_padLeft] at hlong
  rw [decimal_base, hquotient, decimal.padded_of_le (by omega)] at hsplit
  rw [decimal.padded_of_le (by omega), hsplit]
  rfl

/-- What `ft_fround` does when the sum is longer than the fraction. -/
lemma carry_finishes (hP : ∀ u : BlockUse, u.InBounds → P u) {flen S : ℕ}
    (hS : S < 2 * 10 ^ flen) (hlt : (decimal.padded flen S).length < 2 ^ 31)
    (hI : (decimal.canonical I).length < 2 ^ 31) :
    (if int32 (decimal.padded flen S).length > flen then do
        let carry ← defined (ftStrsub (decimal.padded flen S) 0
          (int32 (decimal.padded flen S).length - flen))
        let decimal' ← sumBlocks (block carry) (block (decimal.canonical I))
        let fract ← defined (ftStrdup ((decimal.padded flen S).drop
          (int32 (decimal.padded flen S).length - flen).toNat))
        pure ⟨decimal', fract⟩
      else pure ⟨decimal.canonical I, decimal.padded flen S⟩ : FloatRun FloatParts).Finishes P
      (· = ⟨decimal.canonical (I + S / 10 ^ flen), decimal.padded flen (S % 10 ^ flen)⟩) := by
  have hslen : int32 (decimal.padded flen S).length = (decimal.padded flen S).length :=
    int32_of_mem (by omega) (by omega)
  by_cases hfits : S < 10 ^ flen
  · have hlength := decimal.length_padded_of_lt (show S < decimal.base ^ flen from hfits)
    rw [hslen, hlength, if_neg (lt_irrefl _), Nat.div_eq_of_lt hfits, Nat.mod_eq_of_lt hfits]
    exact Run.finishes_pure rfl
  · have hcarry := padded_carry (Nat.le_of_not_lt hfits) hS
    have hrest : (decimal.padded flen (S % 10 ^ flen)).length = flen :=
      decimal.length_padded_of_lt (Nat.mod_lt _ (by positivity))
    have hquotient : S / 10 ^ flen = 1 := Nat.div_eq_of_lt_le (by omega) (by omega)
    have hone : decimal.IsDigits (cstr "1") := decimal.isDigits_padded 1 1
    have hsum := sumBlocks_finishes (fun s => hP _ (inBounds_block s)) hone
      (decimal.isDigits_padded 1 I) (by decide) hI
    rw [hcarry, List.length_append, hrest] at hslen hlt
    rw [hcarry, List.length_append, hrest, hslen, hquotient, ← (sumText_one I).2]
    generalize decimal.padded flen (S % 10 ^ flen) = rest at hrest ⊢
    have hdiff : (((cstr "1").length + flen : ℕ) : ℤ) - flen = 1 := by
      rw [Nat.cast_add, add_sub_cancel_right]
      rfl
    have hcut : ftStrsub (cstr "1" ++ rest) 0 1 = some (cstr "1") := by
      have hle : (0 : ℤ) + 1 ≤ (cstr "1" ++ rest).length := by
        have hlen : (cstr "1").length = 1 := rfl
        rw [List.length_append, hlen]
        omega
      rw [ftStrsub, if_pos ⟨le_rfl, Int.one_nonneg, hle, by norm_num⟩]
      rfl
    rw [if_pos (by omega), hdiff]
    refine Run.Finishes.bind_eq (finishes_defined hcut) ?_
    refine Run.Finishes.bind_eq hsum ?_
    refine Run.Finishes.bind_eq (finishes_defined (ftStrdup_of_lt (s := rest) ?_)) ?_
    · omega
    · exact Run.finishes_pure rfl

/-- Two fractions have a carry of at most one. -/
lemma add_lt_two_mul {num1 num2 : List UInt8} (h1 : decimal.IsDigits num1)
    (h2 : decimal.IsDigits num2) (hlength : num1.length = num2.length) :
    decimal.value num1 + decimal.value num2 < 2 * 10 ^ num2.length := by
  have hlt1 := h1.value_lt
  have hlt2 := h2.value_lt
  rw [hlength] at hlt1
  rw [decimal_base] at hlt1 hlt2
  omega

/-- **`ft_fround`** on digits that are not half of a unit. -/
lemma ftFround_finishes (hP : ∀ u : BlockUse, u.InBounds → P u) (hp : p < fract.length)
    (hI : (decimal.canonical I).length < 2 ^ 31) (hdigits : decimal.IsDigits fract)
    (hlt : (sumText (half p fract.length) fract).length < 2 ^ 31) (htie : ¬Tie p fract) :
    (ftFround p ⟨decimal.canonical I, fract⟩).Finishes P
      (· = cutParts p (addHalf p I fract)) := by
  have hhalf := length_half hp
  have hlength := length_sumText (isDigits_half p fract.length) hdigits
  rw [hhalf, max_self] at hlength
  have hfits : fract.length < 2 ^ 31 := by
    rw [hlength] at hlt
    exact (Nat.le_add_right _ _).trans_lt hlt
  have hflen : int32 fract.length = fract.length := int32_of_mem (by omega) (by omega)
  have hround := isRoundable_finishes hP hp hI
  rw [roundable, if_neg htie] at hround
  have hadd := sumBlocks_finishes (fun s => hP _ (inBounds_block s))
    (isDigits_half p fract.length) hdigits (hhalf.symm ▸ hfits) hfits
  rw [cutParts_addHalf hp rfl]
  simp only [ftFround, hflen]
  refine Run.Finishes.bind_eq hround ?_
  refine Run.Finishes.bind_eq (finishes_defined (ftStrdup_of_lt hfits)) ?_
  refine Run.Finishes.bind_eq hadd ?_
  have hS := add_lt_two_mul (isDigits_half p fract.length) hdigits hhalf
  rw [sumText, hhalf, max_self] at hlt ⊢
  refine Run.Finishes.bind_eq (carry_finishes hP hS hlt hI) ?_
  have hcut := decimal.length_padded_of_lt (show _ < decimal.base ^ fract.length from
    Nat.mod_lt (decimal.value (half p fract.length) + decimal.value fract)
      (Nat.pow_pos decimal.base_pos))
  rw [decimal_base] at hcut
  refine Run.Finishes.bind_eq (Run.finishes_touch ?_ rfl) (Run.finishes_pure ?_)
  · intro u hu
    rw [List.mem_singleton.mp hu]
    refine hP _ ⟨Int.natCast_nonneg p, ?_⟩
    simp only [hcut]
    omega
  · rw [Int.toNat_natCast, take_padded hp (Nat.mod_lt _ (by positivity))]

/-- `ft_fround` on digits that are half of a unit: they are not cut. -/
lemma ftFround_tie_finishes (hP : ∀ u : BlockUse, u.InBounds → P u) (hp : p < fract.length)
    (hI : (decimal.canonical I).length < 2 ^ 31) (hlt : fract.length < 2 ^ 31)
    (htie : Tie p fract) :
    (ftFround p ⟨decimal.canonical I, fract⟩).Finishes P
      (· = ⟨decimal.canonical (I + I % 2), fract⟩) := by
  have hflen : int32 fract.length = fract.length := int32_of_mem (by omega) (by omega)
  have hround := isRoundable_finishes hP hp hI
  rw [roundable, if_pos htie] at hround
  simp only [ftFround, hflen]
  refine Run.Finishes.bind_eq hround ?_
  exact Run.finishes_pure rfl

end Fround

/-! ## The expansion, rounded -/

namespace FiniteNumber

variable (x : FiniteNumber) {p : ℕ}

/-- The absolute value in units of the last printed place. -/
def rounded (p : ℕ) : ℕ := roundEven (x.expansion * 10 ^ p) (10 ^ x.fractLength)

/-- The expansion is half of a unit away from what can be printed. -/
def IsTie (p : ℕ) : Prop :=
  2 * (x.expansion * 10 ^ p % 10 ^ x.fractLength) = 10 ^ x.fractLength

instance (p : ℕ) : Decidable (x.IsTie p) := inferInstanceAs (Decidable (_ = _))

/-- The precision is not the length of the expansion, and the length that the fraction is
extended to is an `int`. -/
def Extends (p : ℕ) : Prop :=
  p < x.fractLength ∨ x.fractLength < p ∧ x.fractLength + p + 1 < 2 ^ 31

instance (p : ℕ) : Decidable (x.Extends p) := inferInstanceAs (Decidable (_ ∨ _))

/-- What `ft_fround` leaves. -/
def roundedParts (p : ℕ) : FloatParts :=
  if x.IsTie p then
    { x.exactParts with
      decimal := decimal.canonical (x.expansion / 10 ^ x.fractLength +
        x.expansion / 10 ^ x.fractLength % 2) }
  else cutParts p (x.rounded p)

lemma magnitude_mul_pow (p : ℕ) :
    x.magnitude * 10 ^ p = ((x.expansion * 10 ^ p : ℕ) : ℚ) / (10 ^ x.fractLength : ℕ) := by
  rw [magnitude_eq]
  push_cast
  ring

/-- Ties are the half-way points. -/
lemma halfWay_iff_isTie : HalfWay (x.magnitude * 10 ^ p) ↔ x.IsTie p := by
  rw [magnitude_mul_pow]
  exact halfWay_iff (by positivity)

lemma isRoundEven_rounded (p : ℕ) : IsRoundEven (x.magnitude * 10 ^ p) (x.rounded p) := by
  rw [magnitude_mul_pow]
  exact isRoundEven_roundEven _ (by positivity)

lemma not_isTie_of_le (h : x.fractLength ≤ p) : ¬x.IsTie p := by
  have hpos : 0 < 10 ^ x.fractLength := by positivity
  have hpow := (pow_sub_mul_pow 10 h).symm
  rw [IsTie, hpow, ← Nat.mul_assoc, Nat.mul_mod_left]
  omega

/-- Inside the expansion, a tie concerns the digits behind the precision. -/
lemma isTie_iff_of_lt (h : p < x.fractLength) :
    x.IsTie p ↔ x.expansion % 10 ^ (x.fractLength - p) = 5 * 10 ^ (x.fractLength - (p + 1)) := by
  have hpow := (pow_sub_mul_pow 10 h.le).symm
  have hhalf := two_mul_half h
  have hpos : 0 < 10 ^ p := by positivity
  rw [IsTie, hpow, Nat.mul_mod_mul_right, ← Nat.mul_assoc, Nat.mul_left_inj hpos.ne', hhalf,
    Nat.mul_right_inj two_ne_zero]

/-- The digits of a tie are the ones that `is_roundable` looks for. -/
lemma tie_exactParts_iff (h : p < x.fractLength) : Tie p x.exactParts.fract ↔ x.IsTie p := by
  have hlength := x.length_exactParts_fract
  have hvalue : decimal.value x.exactParts.fract = x.expansion % 10 ^ x.fractLength :=
    decimal.value_padded _ _
  have hdigits : decimal.IsDigits x.exactParts.fract := decimal.isDigits_padded _ _
  rw [tie_iff_value (by omega) hdigits, hvalue, hlength,
    Nat.mod_mod_of_dvd _ (pow_dvd_pow 10 (Nat.sub_le _ _)), x.isTie_iff_of_lt h]

/-- Inside the expansion, adding half of a unit and cutting rounds. -/
lemma addHalf_exactParts (h : p < x.fractLength) (htie : ¬x.IsTie p) :
    addHalf p (x.expansion / 10 ^ x.fractLength) x.exactParts.fract = x.rounded p := by
  have hpow := (pow_sub_mul_pow 10 h.le).symm
  have hhalf := two_mul_half h
  have hvalue : decimal.value x.exactParts.fract = x.expansion % 10 ^ x.fractLength :=
    decimal.value_padded _ _
  have hsplit := Nat.div_add_mod' x.expansion (10 ^ x.fractLength)
  rw [x.isTie_iff_of_lt h] at htie
  rw [addHalf, x.length_exactParts_fract, value_half, hvalue, Nat.add_left_comm, hsplit,
    rounded, hpow, roundEven_mul_right _ _ (by positivity), Nat.add_comm]
  rw [hhalf] at htie ⊢
  exact (roundEven_of_ne_half (by positivity) htie).symm

/-- A precision beyond the expansion. -/
lemma rounded_of_le (h : x.fractLength ≤ p) :
    x.rounded p = x.expansion * 10 ^ (p - x.fractLength) := by
  have hpow := (pow_sub_mul_pow 10 h).symm
  rw [rounded, hpow, ← Nat.mul_assoc, roundEven_mul _ (by positivity)]

/-! ### Beyond the expansion -/

lemma padding_of_le (h : p ≤ x.fractLength) : x.padding p = 0 := by
  rw [padding, if_neg (by omega)]

lemma splitParts_of_le (h : p ≤ x.fractLength) : x.splitParts p = x.exactParts := by
  rw [splitParts, x.padding_of_le h, List.replicate_zero, List.append_nil]

lemma padding_of_lt (h : x.fractLength < p) (hint : p + 1 < 2 ^ 31) : x.padding p = p + 1 := by
  rw [padding, if_pos (by omega), int32_of_mem (by omega) (by omega)]
  omega

lemma value_splitParts_fract (precision : ℤ) :
    decimal.value (x.splitParts precision).fract =
      x.expansion % 10 ^ x.fractLength * 10 ^ x.padding precision := by
  have hzeros := decimal.value_append_zeros x.exactParts.fract (x.padding precision)
  have hvalue : decimal.value x.exactParts.fract = x.expansion % 10 ^ x.fractLength :=
    decimal.value_padded _ _
  rw [hvalue] at hzeros
  exact hzeros

section Beyond

variable (h : x.fractLength < p) (hint : p + 1 < 2 ^ 31)
include h hint

lemma length_fract_beyond : (x.splitParts p).fract.length = x.fractLength + p + 1 := by
  rw [length_splitParts_fract, x.padding_of_lt h hint, Nat.add_assoc]

/-- The five comes to stand on a zero. -/
lemma not_tie_beyond : ¬Tie p (x.splitParts p).fract := by
  have hlength := x.length_fract_beyond h hint
  have hplaces : x.fractLength + p + 1 - p = x.fractLength + 1 := by omega
  have hhalf : x.fractLength + p + 1 - (p + 1) = x.fractLength := by omega
  rw [tie_iff_value (by omega) (x.isDigits_splitParts_fract p), hlength, hplaces, hhalf,
    value_splitParts_fract, x.padding_of_lt h hint]
  have hzero : x.expansion % 10 ^ x.fractLength * 10 ^ (p + 1) % 10 ^ (x.fractLength + 1) = 0 :=
    Nat.mod_eq_zero_of_dvd ((pow_dvd_pow 10 (by omega)).mul_left _)
  rw [hzero]
  positivity

/-- Nothing is carried. -/
lemma length_sumText_beyond :
    (sumText (half p (x.splitParts p).fract.length) (x.splitParts p).fract).length =
      x.fractLength + p + 1 := by
  have hlength := x.length_fract_beyond h hint
  have hmod : x.expansion % 10 ^ x.fractLength < 10 ^ x.fractLength :=
    Nat.mod_lt _ (by positivity)
  have hhalf : x.fractLength + p + 1 - (p + 1) = x.fractLength := by omega
  have hlow : 5 * 10 ^ x.fractLength < 10 ^ (p + 1) := by
    calc 5 * 10 ^ x.fractLength < 10 ^ (x.fractLength + 1) := by
          rw [pow_succ]
          have hpos : 0 < 10 ^ x.fractLength := by positivity
          omega
      _ ≤ 10 ^ (p + 1) := Nat.pow_le_pow_right (by norm_num) (by omega)
  have hsum : 5 * 10 ^ x.fractLength + x.expansion % 10 ^ x.fractLength * 10 ^ (p + 1) <
      10 ^ (x.fractLength + p + 1) := by
    have hpow : (10 : ℕ) ^ (x.fractLength + p + 1) = 10 ^ x.fractLength * 10 ^ (p + 1) := by
      rw [Nat.add_assoc, pow_add]
    have hle := Nat.mul_le_mul_right (10 ^ (p + 1)) (Nat.succ_le_of_lt hmod)
    rw [Nat.succ_mul] at hle
    omega
  rw [length_sumText (isDigits_half _ _) (x.isDigits_splitParts_fract p), value_half,
    length_half (by omega), max_self, hlength, hhalf, value_splitParts_fract,
    x.padding_of_lt h hint, if_neg (Nat.not_le_of_lt hsum)]

/-- Nothing is rounded. -/
lemma addHalf_beyond :
    addHalf p (x.expansion / 10 ^ x.fractLength) (x.splitParts p).fract = x.rounded p := by
  have hlength := x.length_fract_beyond h hint
  have hplaces : x.fractLength + p + 1 - p = x.fractLength + 1 := by omega
  have hhalf : x.fractLength + p + 1 - (p + 1) = x.fractLength := by omega
  have hsplit := Nat.div_add_mod' x.expansion (10 ^ x.fractLength)
  have hunits : x.expansion / 10 ^ x.fractLength * 10 ^ (x.fractLength + p + 1) +
      x.expansion % 10 ^ x.fractLength * 10 ^ (p + 1) =
        10 ^ (x.fractLength + 1) * (x.expansion * 10 ^ (p - x.fractLength)) := by
    have hpow : (10 : ℕ) ^ (p + 1) = 10 ^ (p - x.fractLength) * 10 ^ (x.fractLength + 1) := by
      rw [← pow_add]
      congr 1
      omega
    have hfactor := congrArg (· * 10 ^ (p + 1)) hsplit
    simp only [add_mul] at hfactor
    rw [Nat.add_assoc, pow_add, ← Nat.mul_assoc, hfactor, hpow]
    ring
  have hlow : 5 * 10 ^ x.fractLength < 10 ^ (x.fractLength + 1) := by
    rw [pow_succ]
    have hpos : 0 < 10 ^ x.fractLength := by positivity
    omega
  rw [addHalf, value_half, value_splitParts_fract, x.padding_of_lt h hint, hlength, hplaces, hhalf,
    x.rounded_of_le h.le, Nat.add_left_comm, Nat.add_comm (5 * 10 ^ x.fractLength), hunits,
    Nat.mul_add_div (by positivity), Nat.div_eq_of_lt hlow, Nat.add_zero]

end Beyond

/-! ### All precisions -/

/-- A length that is no `int` becomes a negative one. -/
lemma int32_of_overflow {n : ℤ} (hle : 2 ^ 31 ≤ n) (hlt : n < 2 ^ 32) :
    int32 n = n - 2 ^ 32 := by
  have hshift : int32 (n - 2 ^ 32 + 2 ^ 32) = int32 (n - 2 ^ 32) := Int.add_bmod_right _ _
  rw [sub_add_cancel] at hshift
  rw [hshift, int32_of_mem (by omega) (by omega)]

/-- At the end of the fraction, the five takes the place of the terminator. -/
lemma ftFround_edge_breaks (I : ℕ) {fract : List UInt8} (hlt : fract.length < 2 ^ 31) :
    (ftFround fract.length ⟨decimal.canonical I, fract⟩).Breaks BlockUse.InBounds .undefined := by
  have hflen : int32 fract.length = fract.length := int32_of_mem (by omega) (by omega)
  have hfull : (block (List.replicate fract.length '0'.toUInt8)).set fract.length '5'.toUInt8 =
      List.replicate fract.length '0'.toUInt8 ++ ['5'.toUInt8] := by
    have hlength : (List.replicate fract.length '0'.toUInt8).length = fract.length :=
      List.length_replicate
    rw [block, List.set_append_right _ _ hlength.le, hlength, Nat.sub_self]
    rfl
  have hround : (isRoundable fract.length fract.length ⟨decimal.canonical I, fract⟩).Finishes
      (fun _ => True) (· = (⟨decimal.canonical I, fract⟩,
        some (List.replicate fract.length '0'.toUInt8 ++ ['5'.toUInt8]))) := by
    have hnone : fract[fract.length]? = none := List.getElem?_eq_none le_rfl
    rw [isRoundable, if_neg (by omega)]
    simp only [Int.toNat_natCast]
    refine Run.Finishes.bind_eq (Run.finishes_touch (fun _ _ => trivial) rfl) ?_
    rw [if_pos ⟨Int.natCast_nonneg _, le_rfl⟩, hnone, if_neg (by simp), hfull]
    exact Run.finishes_pure rfl
  have hnul : ¬(BlockUse.passed
      (List.replicate fract.length '0'.toUInt8 ++ ['5'.toUInt8])).InBounds := by
    intro hmem
    rcases List.mem_append.mp hmem with hmem | hmem
    · exact absurd (List.eq_of_mem_replicate hmem) (by decide)
    · exact absurd (List.mem_singleton.mp hmem) (by decide)
  simp only [ftFround, hflen]
  refine hround.breaks ?_
  have hcopy : (defined (ftStrdup fract)).Finishes (fun _ => True) (· = fract) :=
    finishes_defined (ftStrdup_of_lt hlt)
  have hsum : (sumBlocks (List.replicate fract.length '0'.toUInt8 ++ ['5'.toUInt8])
      (block fract)).Breaks BlockUse.InBounds .undefined := by
    refine Run.breaks_touch_bind (P := BlockUse.InBounds) (List.mem_cons_self ..) hnul ?_
    rw [if_neg fun h => hnul h.1]
    rfl
  exact hcopy.breaks (hsum.bind _)

/-- A fraction whose length is no `int`. -/
lemma ftFround_negative_breaks (p : ℤ) {parts : FloatParts} (hlt : int32 parts.fract.length < 0) :
    (ftFround p parts).Breaks BlockUse.InBounds .undefined := by
  refine Run.Breaks.bind ?_ _
  rw [isRoundable, if_pos hlt]
  refine Run.breaks_touch_bind (List.mem_singleton_self _) ?_ rfl
  rintro ⟨-, hindex⟩
  exact absurd hindex (lt_irrefl 0)

/-- A precision behind the end of the fraction. -/
lemma ftFround_behind_breaks {p : ℕ} {parts : FloatParts} (hlt : parts.fract.length < 2 ^ 31)
    (hp : parts.fract.length < p) :
    (ftFround p parts).Breaks BlockUse.InBounds .undefined := by
  have hflen : int32 parts.fract.length = parts.fract.length :=
    int32_of_mem (by omega) (by omega)
  refine Run.Breaks.bind ?_ _
  rw [hflen, isRoundable, if_neg (by omega)]
  refine Run.breaks_touch_bind (List.mem_append_right _ (List.mem_singleton_self _)) ?_ ?_
  · rintro ⟨-, hindex⟩
    rw [Int.toNat_natCast] at hindex
    omega
  · rw [if_neg (by omega)]
    rfl

lemma length_decimal_lt :
    (decimal.canonical (x.expansion / 10 ^ x.fractLength)).length < 2 ^ 31 := by
  have hcount := x.digitCount_expansion
  have hmono := decimal.length_numeral_mono (Nat.div_le_self x.expansion (10 ^ x.fractLength))
  rw [Alphabet.canonical, Alphabet.padded, length_padLeft]
  unfold digitCount at hcount
  exact max_lt (by norm_num) (hmono.trans_lt (hcount.trans (by norm_num)))

/-- **`ft_fround`** on the parts that it is handed. -/
lemma ftFround_splitParts_finishes {P : BlockUse → Prop} (hP : ∀ u : BlockUse, u.InBounds → P u)
    (h : x.Extends p) : (ftFround p (x.splitParts p)).Finishes P (· = x.roundedParts p) := by
  have hdecimal := x.length_decimal_lt
  have hplaces := x.fractLength_lt
  rcases h with hlt | ⟨hgt, hint⟩
  · have hlength := x.length_exactParts_fract
    have hdigits : decimal.IsDigits x.exactParts.fract := decimal.isDigits_padded _ _
    have hp : p < x.exactParts.fract.length := by omega
    rw [x.splitParts_of_le hlt.le, roundedParts]
    split_ifs with htie
    · have hfround := ftFround_tie_finishes hP hp hdecimal (by omega)
        ((x.tie_exactParts_iff hlt).mpr htie)
      exact hfround
    · have hsum : (sumText (half p x.exactParts.fract.length) x.exactParts.fract).length <
          2 ^ 31 := by
        rw [length_sumText (isDigits_half _ _) hdigits, length_half hp, max_self]
        split_ifs <;> omega
      have hfround := ftFround_finishes hP hp hdecimal hdigits hsum
        (mt (x.tie_exactParts_iff hlt).mp htie)
      rw [x.addHalf_exactParts hlt htie] at hfround
      exact hfround
  · have hfits : p + 1 < 2 ^ 31 := by omega
    have hlength := x.length_fract_beyond hgt hfits
    have hp : p < (x.splitParts p).fract.length := by omega
    have hsum := x.length_sumText_beyond hgt hfits
    have hfround := ftFround_finishes hP hp hdecimal (x.isDigits_splitParts_fract p)
      (hsum.trans_lt hint) (x.not_tie_beyond hgt hfits)
    rw [x.addHalf_beyond hgt hfits] at hfround
    rw [roundedParts, if_neg (x.not_isTie_of_le hgt.le)]
    exact hfround

/-- The precisions that it fails on. -/
lemma ftFround_splitParts_breaks (hint : p < 2 ^ 31) (h : ¬x.Extends p) :
    (ftFround p (x.splitParts p)).Breaks BlockUse.InBounds .undefined := by
  have hplaces := x.fractLength_lt
  have hlength := x.length_exactParts_fract
  rw [Extends, not_or, not_and, not_lt, not_lt] at h
  obtain ⟨hle, hlong⟩ := h
  rcases hle.eq_or_lt with rfl | hgt
  · have hedge := ftFround_edge_breaks (x.expansion / 10 ^ x.fractLength)
      (show x.exactParts.fract.length < 2 ^ 31 by omega)
    rw [hlength] at hedge
    rw [x.splitParts_of_le le_rfl]
    exact hedge
  · have hlong := hlong hgt
    by_cases hfits : p + 1 < 2 ^ 31
    · have hlength := x.length_fract_beyond hgt hfits
      have hneg : int32 (x.splitParts p).fract.length < 0 := by
        rw [int32_of_overflow (by omega) (by omega)]
        omega
      exact ftFround_negative_breaks p hneg
    · have hpadding : x.padding p = 0 := by
        rw [padding, if_pos (by omega), int32_of_overflow (by omega) (by omega)]
        omega
      have hfract : (x.splitParts p).fract.length = x.fractLength := by
        rw [length_splitParts_fract, hpadding, Nat.add_zero]
      exact ftFround_behind_breaks (by omega) (by omega)

end FiniteNumber

end FtNm
