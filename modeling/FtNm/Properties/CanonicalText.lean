import FtNm.Properties.Support.BlockText

/-!
# Numbers as text

The converters of the library, each with the numeral that it has to produce: decimal for
`ft_ltoa` and `ft_utoa`, in base two, eight and sixteen for `shift_bits`.  A converter is in
order (`Converter.Ok`) for a 64-bit value if it stores inside its block only, if what is in the
block afterwards is the numeral, the only one without superfluous zeros, and, for `ft_ltoa`, if
`ft_atoll` reads the value back.

All of them are in order for every value, except `ft_utoa`: `conversion` allocates a block for
the digits only and stores the terminator behind it.  `converter_ok_iff` says so.
-/

namespace FtNm

open AccessLog Numeral

/-! ## The specification -/

/-- `digitChar d` is the digit `d`. -/
def charDigit (c : UInt8) : ℕ := (cstr "0123456789abcdef").idxOf c

/-- The digits of a power of two. -/
def powerTwo (shift : ℕ) (hpos : 0 < shift) (hle : shift ≤ 4) : Alphabet UInt8 where
  base := 2 ^ shift
  digit := digitChar
  val := charDigit
  one_lt := Nat.one_lt_two_pow hpos.ne'
  val_digit d hd := by
    have hdigits : ∀ d < 2 ^ 4, charDigit (digitChar d) = d := by decide
    exact hdigits d (hd.trans_le (Nat.pow_le_pow_right (by norm_num) hle))

lemma binaryShift_le : 1 ≤ 4 := by norm_num

lemma octalShift_le : 3 ≤ 4 := by norm_num

lemma hexShift_le : 4 ≤ 4 := le_rfl

/-- The functions that make a numeral of a number; `shift_bits` with the shifts of `ft_base`. -/
inductive Converter
  | ftLtoa
  | ftUtoa
  | binary
  | octal
  | hexadecimal
  deriving DecidableEq, Repr

namespace Converter

/-- The call on a 64-bit value. -/
def run (heap : ℤ → UInt8) : Converter → BitVec 64 → Filling Block
  | ftLtoa, w => Stores.ftLtoa heap w.toInt
  | ftUtoa, w => Stores.ftUtoa heap w.toNat
  | binary, w => Stores.shiftBits heap w.toNat 1 1 Nat.one_pos
  | octal, w => Stores.shiftBits heap w.toNat 7 3 octalShift_pos
  | hexadecimal, w => Stores.shiftBits heap w.toNat 15 4 hexShift_pos

/-- The digits of the base. -/
def alphabet : Converter → Alphabet UInt8
  | ftLtoa => decimal
  | ftUtoa => decimal
  | binary => powerTwo 1 Nat.one_pos binaryShift_le
  | octal => powerTwo 3 octalShift_pos octalShift_le
  | hexadecimal => powerTwo 4 hexShift_pos hexShift_le

/-- The number that the value is for the converter. -/
def number : Converter → BitVec 64 → ℤ
  | ftLtoa, w => w.toInt
  | _, w => w.toNat

/-- A numeral without superfluous zeros, behind the sign of a negative number. -/
def IsNumeral (c : Converter) (w : BitVec 64) (s : List UInt8) : Prop :=
  ∃ digits, s = (if c.number w < 0 then cstr "-" else []) ++ digits ∧
    c.alphabet.IsCanonical digits ∧ c.alphabet.value digits = (c.number w).natAbs

end Converter

/-- The store is inside its block. -/
def CharStore.InBounds (store : CharStore) : Prop := 0 ≤ store.index ∧ store.index < store.size

/-- **Conversion.**  Whatever memory holds, all stores are inside the block, the string in it is
the numeral, and `ft_atoll` takes the one of `ft_ltoa` back to the number. -/
structure Converter.Ok (c : Converter) (w : BitVec 64) : Prop where
  inBounds : ∀ heap, (c.run heap w).All CharStore.InBounds
  numeral : ∀ heap, ∃ b, (c.run heap w).out = .ok b ∧ ∀ s, b.Holds s ↔ c.IsNumeral w s
  inverse : c = .ftLtoa → ∀ heap b s, (c.run heap w).out = .ok b → b.Holds s →
    ftAtoll64 s = w.toInt

/-! ## `ft_utoa` -/

section Utoa

lemma ftUtoa_canonical (n : ℕ) : ftUtoa n = decimal.canonical n := by
  unfold ftUtoa
  split_ifs with hn
  · rw [hn, Alphabet.canonical_zero]
    rfl
  · rw [Alphabet.canonical_of_ne_zero hn]
    exact decimalDigits_eq n

/-- Fresh cells hold zeros. -/
lemma ftMemalloc_cell (heap : ℤ → UInt8) {size k : ℕ} (h : k < size) :
    (ftMemalloc heap size).cell k = 0 :=
  if_pos ⟨Int.natCast_nonneg k, by exact_mod_cast h⟩

lemma inBounds_ftStrnew (heap : ℤ → UInt8) {size index : ℕ} (h : index < size + 1) :
    CharStore.InBounds ⟨(ftStrnew heap size).size, index⟩ :=
  ⟨Int.natCast_nonneg index, Nat.cast_lt.mpr h⟩

/-- The copy that is made of `0`. -/
lemma ftStrcpy_zero_finishes (heap : ℤ → UInt8) :
    (ftStrcpy (cstr "0") 0 (ftMemalloc heap 2)).Finishes CharStore.InBounds
      (·.Holds (cstr "0")) := by
  refine Run.Finishes.bind_eq (put_finishes ⟨le_rfl, by norm_num [ftMemalloc]⟩) ?_
  refine (put_finishes ⟨by norm_num, by norm_num [ftMemalloc]⟩).mono ?_
  rintro b rfl
  refine ⟨fun k hk => ?_, rfl, by decide⟩
  have hzero : k = 0 := Nat.lt_one_iff.mp hk
  rw [hzero]
  rfl

/-- The text of `conversion`, although it does not fit. -/
lemma conversion_holds (heap : ℤ → UInt8) {n : ℕ} (hn : n ≠ 0) :
    ∃ b, (Stores.conversion heap n 0).out = .ok b ∧ b.Holds (decimal.canonical n) := by
  have hcount : countChars n 0 = digitCount n := by rw [countChars_eq, Nat.zero_add]
  have hcanonical : decimal.canonical n = numeral 10 digitByte n :=
    Alphabet.canonical_of_ne_zero hn
  have hput : ((ftMemalloc heap (digitCount n)).put (digitCount n) 0).Finishes
      (fun _ => True) _ := put_finishes trivial
  obtain ⟨-, b, hout, rfl⟩ := hput.bind_eq (conversionLoop_finishes n fun _ _ => trivial)
  rw [Stores.conversion, hcount, hcanonical]
  refine ⟨_, hout, Block.holds_write (nulFree_of_isDigits (isDigits_numeral n)) ?_⟩
  exact Function.update_self _ _ _

/-- The terminator is stored behind the block. -/
lemma conversion_overruns (heap : ℤ → UInt8) (n nbrChars : ℕ) :
    ¬(Stores.conversion heap n nbrChars).All CharStore.InBounds := by
  intro hall
  have hstore := hall _ (Run.mem_log_bind (List.mem_singleton_self _) _)
  exact absurd hstore.2 (lt_irrefl _)

end Utoa

/-! ## `ft_ltoa` -/

/-- The numeral in as many digits as it has. -/
lemma lastDigits_canonical (n : ℕ) :
    lastDigits (fun nbr => digitByte (nbr % 10)) (· / 10) (decimal.canonical n).length n =
      decimal.canonical n := by
  have hdigits : decimal.IsDigits (decimal.canonical n) := decimal.isDigits_padded 1 n
  have hlt := hdigits.value_lt
  have hvalue : decimal.value (decimal.canonical n) = n := decimal.value_padded 1 n
  rw [hvalue] at hlt
  rw [lastDigits_decimal _ _ hlt]
  have hpadded := hdigits.padded_value
  rw [hvalue] at hpadded
  exact hpadded

/-- **`ft_ltoa`.** -/
lemma ftLtoa_finishes (heap : ℤ → UInt8) {n : ℤ} (hle : -2 ^ 63 ≤ n) (hlt : n < 2 ^ 63) :
    (Stores.ftLtoa heap n).Finishes CharStore.InBounds (·.Holds (ftLtoa n)) := by
  have hnul : 0 ∉ decimal.canonical n.natAbs :=
    nulFree_of_isDigits (decimal.isDigits_padded 1 n.natAbs)
  have hdigits := lastDigits_canonical n.natAbs
  have hlength := nbLength_eq n
  rw [← hlength] at hdigits
  rw [Stores.ftLtoa, ftLtoa, ftUtoa_canonical]
  by_cases hneg : n < 0
  · have hnbr : ((n * -1) % 2 ^ 64).toNat = n.natAbs := by omega
    have hput : ((ftStrnew heap (nbLength n + 1)).put 0 '-'.toUInt8).Finishes
        CharStore.InBounds _ := put_finishes (inBounds_ftStrnew heap (Nat.succ_pos _))
    simp only [if_pos hneg, hnbr]
    refine Run.Finishes.bind_eq (hput.bind_eq (Run.finishes_pure rfl)) ?_
    refine (fill_finishes (fun k hk => ?_) _).mono ?_
    · exact inBounds_ftStrnew heap (by omega)
    · rintro b rfl
      rw [hdigits, Block.write_cons]
      refine Block.holds_write ?_ (ftMemalloc_cell heap ?_)
      · rw [List.mem_cons, not_or]
        exact ⟨by decide, hnul⟩
      · rw [List.length_cons, ← hlength]
        exact Nat.lt_succ_self _
  · have hnbr : n.toNat = n.natAbs := by omega
    simp only [if_neg hneg, hnbr]
    refine Run.Finishes.bind_eq (Run.finishes_pure rfl) ?_
    refine (fill_finishes (fun k hk => ?_) _).mono ?_
    · exact inBounds_ftStrnew heap (by omega)
    · rintro b rfl
      rw [hdigits]
      exact Block.holds_write hnul (ftMemalloc_cell heap (by omega))

/-! ## `shift_bits` -/

/-- The digits of the shifting loop. -/
lemma fillDigits_canonical {shift : ℕ} (hpos : 0 < shift) (hle : shift ≤ 4) (nbr : ℕ) :
    fillDigits (2 ^ shift - 1) shift (nbaseLength shift hpos nbr) nbr =
      (powerTwo shift hpos hle).canonical nbr :=
  shiftBits_eq hpos nbr

/-- **`shift_bits`**, with the mask of its shift. -/
lemma shiftBits_finishes (heap : ℤ → UInt8) {shift : ℕ} (hpos : 0 < shift) (hle : shift ≤ 4)
    (nbr : ℕ) :
    (Stores.shiftBits heap nbr (2 ^ shift - 1) shift hpos).Finishes CharStore.InBounds
      (·.Holds ((powerTwo shift hpos hle).canonical nbr)) := by
  have hdigits := fillDigits_canonical hpos hle nbr
  have hlength : ((powerTwo shift hpos hle).canonical nbr).length = nbaseLength shift hpos nbr := by
    rw [← hdigits, ← lastDigits_shift, length_lastDigits]
  have hnul : 0 ∉ (powerTwo shift hpos hle).canonical nbr := by
    intro hmem
    obtain ⟨d, hd, hzero⟩ := (powerTwo shift hpos hle).isDigits_padded 1 nbr 0 hmem
    have hchars : ∀ d < 2 ^ 4, digitChar d ≠ 0 := by decide
    exact hchars d (hd.trans_le (Nat.pow_le_pow_right (by norm_num) hle)) hzero
  refine (fill_finishes (fun k hk => ?_) _).mono ?_
  · exact inBounds_ftStrnew heap (by omega)
  · rintro b rfl
    rw [lastDigits_shift, hdigits]
    exact Block.holds_write hnul (ftMemalloc_cell heap (by omega))

/-! ## `ft_atoll` -/

/-- The digits, with the arithmetic of a `long long`. -/
lemma asciiToInt64_eq (cs : List UInt8) (result : ℕ) :
    asciiToInt64 cs (int64 result) = int64 (asciiToInt cs result) := by
  induction cs generalizing result with
  | nil => rfl
  | cons c cs ih =>
    by_cases hc : ftIsdigit c
    · have hdigits : ∀ c ∈ cstr "0123456789", '0'.toNat ≤ c.toNat :=
        forall_mem_of_all (by decide)
      have hle := hdigits c (of_decide_eq_true hc)
      have hcast : ((result * 10 + (c.toNat - '0'.toNat) : ℕ) : ℤ) =
          result * 10 + (c.toNat - '0'.toNat) := by
        rw [Nat.cast_add, Nat.cast_mul, Nat.cast_sub hle]
        rfl
      have hstep : int64 (int64 result * 10 + (c.toNat - '0'.toNat)) =
          int64 (result * 10 + (c.toNat - '0'.toNat) : ℕ) := by
        rw [hcast, int64, int64, int64, ← Int.bmod_add_bmod, Int.bmod_mul_bmod,
          Int.bmod_add_bmod]
      rw [asciiToInt64, if_pos hc, hstep, ih, asciiToInt, if_pos hc]
    · rw [asciiToInt64, if_neg hc, asciiToInt, if_neg hc]

lemma asciiToInt64_zero (cs : List UInt8) : asciiToInt64 cs 0 = int64 (asciiToInt cs 0) :=
  asciiToInt64_eq cs 0

/-- A number that a `long long` holds. -/
lemma int64_of_mem {x : ℤ} (hle : -2 ^ 63 ≤ x) (hlt : x < 2 ^ 63) : int64 x = x := by
  unfold int64
  apply Int.bmod_eq_of_le <;> norm_num <;> omega

lemma int64_neg (x : ℤ) : int64 (int64 x * -1) = int64 (-x) := by
  rw [int64, int64, Int.bmod_mul_bmod, mul_neg_one, int64]

/-- What the other scanners make of `ft_atoll` is its result, as an `int`. -/
lemma ftAtoll_eq (s : List UInt8) : ftAtoll s = int32 (ftAtoll64 s) := by
  have hint (x : ℤ) : int32 (int64 x) = int32 x :=
    Int.bmod_bmod_of_dvd (pow_dvd_pow 2 (by norm_num))
  rw [ftAtoll, ftAtoll64]
  cases s.dropWhile ftIsspace with
  | nil => rfl
  | cons c cs =>
    dsimp only
    split_ifs
    · have hneg : toInt (2 ^ 32 - asciiToInt cs 0 % 2 ^ 32) = int32 (-(asciiToInt cs 0 : ℤ)) := by
        have hcast : ((2 ^ 32 - asciiToInt cs 0 % 2 ^ 32 : ℕ) : ℤ) =
            -asciiToInt cs 0 + (2 ^ 32 : ℕ) * (asciiToInt cs 0 / 2 ^ 32 + 1 : ℕ) := by
          omega
        rw [toInt_eq_int32, hcast, int32, Int.add_mul_bmod_self_left, int32]
      rw [hneg, asciiToInt64_zero, int64_neg, hint]
    · rw [toInt_eq_int32, asciiToInt64_zero, hint]
    · rw [toInt_eq_int32, asciiToInt64_zero, hint]

/-- **Inversion.**  `ft_atoll` reads what `ft_ltoa` has written. -/
lemma ftAtoll64_ftLtoa {n : ℤ} (hle : -2 ^ 63 ≤ n) (hlt : n < 2 ^ 63) :
    ftAtoll64 (ftLtoa n) = n := by
  have hdigits : ∀ c ∈ decimal.canonical n.natAbs, IsDigit c := fun c hc =>
    decimal_isDigit_iff.mp (decimal.isDigits_padded 1 n.natAbs c hc)
  have hvalue : asciiToInt (decimal.canonical n.natAbs) 0 = n.natAbs := by
    have hscan : asciiToInt (decimal.canonical n.natAbs ++ []) 0 = _ :=
      asciiToInt_append hdigits (fun c hc => by cases hc) 0
    rw [List.append_nil] at hscan
    exact hscan.trans (decimal.value_padded 1 n.natAbs)
  rw [ftLtoa, ftUtoa_canonical]
  by_cases hneg : n < 0
  · have hdrop : ('-'.toUInt8 :: decimal.canonical n.natAbs).dropWhile ftIsspace =
        '-'.toUInt8 :: decimal.canonical n.natAbs :=
      List.dropWhile_cons_of_neg (by decide)
    have habs : -(n.natAbs : ℤ) = n := by omega
    rw [if_pos hneg, ftAtoll64, hdrop]
    dsimp only
    rw [if_pos rfl, asciiToInt64_zero, hvalue, int64_neg, habs, int64_of_mem hle hlt]
  · have habs : (n.natAbs : ℤ) = n := by omega
    obtain ⟨c, cs, hcs⟩ := List.exists_cons_of_ne_nil
      (Alphabet.canonical_ne_nil (A := decimal) n.natAbs)
    rw [if_neg hneg]
    rw [hcs] at hdigits hvalue ⊢
    obtain ⟨hspace, hminus, hplus, -⟩ := digit_other c (hdigits c List.mem_cons_self)
    have hdrop : (c :: cs).dropWhile ftIsspace = c :: cs :=
      List.dropWhile_cons_of_neg (by simp [hspace])
    rw [ftAtoll64, hdrop]
    dsimp only
    rw [if_neg hminus, if_neg hplus, asciiToInt64_zero, hvalue, habs, int64_of_mem hle hlt]

/-! ## All converters -/

namespace Converter

/-- The numeral. -/
def text (c : Converter) (w : BitVec 64) : List UInt8 :=
  (if c.number w < 0 then cstr "-" else []) ++ c.alphabet.canonical (c.number w).natAbs

lemma isNumeral_iff {c : Converter} {w : BitVec 64} {s : List UInt8} :
    c.IsNumeral w s ↔ s = c.text w := by
  constructor
  · rintro ⟨digits, rfl, hcanonical, hvalue⟩
    rw [Converter.text, Alphabet.eq_canonical_iff.mpr ⟨hcanonical, hvalue⟩]
  · rintro rfl
    exact ⟨_, rfl, Alphabet.isCanonical_canonical _, Alphabet.value_padded _ _ _⟩

lemma text_ftLtoa (w : BitVec 64) : ftLtoa.text w = FtNm.ftLtoa w.toInt := by
  rw [FtNm.ftLtoa, ftUtoa_canonical, text, number, alphabet]
  split_ifs <;> rfl

lemma text_of_ne {c : Converter} (hc : c ≠ ftLtoa) (w : BitVec 64) :
    c.text w = c.alphabet.canonical w.toNat := by
  have hnumber : c.number w = w.toNat := by
    cases c with
    | ftLtoa => exact absurd rfl hc
    | _ => rfl
  rw [text, hnumber, if_neg (by omega), List.nil_append, Int.natAbs_natCast]

/-- What the converters other than `ft_utoa` leave, without a store outside. -/
lemma run_finishes {c : Converter} (hc : c ≠ ftUtoa) (heap : ℤ → UInt8) (w : BitVec 64) :
    (c.run heap w).Finishes CharStore.InBounds (·.Holds (c.text w)) := by
  cases c with
  | ftLtoa =>
    rw [text_ftLtoa]
    exact ftLtoa_finishes heap (BitVec.le_toInt w) BitVec.toInt_lt
  | ftUtoa => exact absurd rfl hc
  | binary =>
    have hbits := shiftBits_finishes heap Nat.one_pos binaryShift_le w.toNat
    rw [text_of_ne (by decide)]
    exact hbits
  | octal =>
    have hbits := shiftBits_finishes heap octalShift_pos octalShift_le w.toNat
    rw [text_of_ne (by decide)]
    exact hbits
  | hexadecimal =>
    have hbits := shiftBits_finishes heap hexShift_pos hexShift_le w.toNat
    rw [text_of_ne (by decide)]
    exact hbits

/-- `ft_utoa` has no digits to count for zero. -/
lemma utoa_zero_finishes (heap : ℤ → UInt8) :
    (ftUtoa.run heap 0).Finishes CharStore.InBounds (·.Holds (ftUtoa.text 0)) := by
  have hzero : ftUtoa.text 0 = cstr "0" := by
    rw [text_of_ne (by decide)]
    exact Alphabet.canonical_zero decimal
  rw [hzero]
  exact ftStrcpy_zero_finishes heap

/-- The numeral is always there. -/
lemma run_holds (c : Converter) (heap : ℤ → UInt8) (w : BitVec 64) :
    ∃ b, (c.run heap w).out = .ok b ∧ b.Holds (c.text w) := by
  by_cases hc : c = ftUtoa
  · by_cases hw : w.toNat = 0
    · obtain rfl : w = 0 := BitVec.eq_of_toNat_eq hw
      rw [hc]
      exact (utoa_zero_finishes heap).2
    · rw [hc, text_of_ne (by decide), run, Stores.ftUtoa, if_neg hw]
      exact conversion_holds heap hw
  · exact (run_finishes hc heap w).2

lemma not_ok_of_ne_zero {w : BitVec 64} (hw : w ≠ 0) : ¬ftUtoa.Ok w := by
  intro h
  have hall := h.inBounds fun _ => 0
  have hne : w.toNat ≠ 0 := fun hzero => hw (BitVec.eq_of_toNat_eq hzero)
  rw [run, Stores.ftUtoa, if_neg hne] at hall
  exact conversion_overruns _ _ _ hall

/-- The bounds are all that can be wrong. -/
lemma ok_of_inBounds {c : Converter} {w : BitVec 64}
    (h : ∀ heap, (c.run heap w).All CharStore.InBounds) : c.Ok w where
  inBounds := h
  numeral heap := by
    obtain ⟨b, hout, hholds⟩ := run_holds c heap w
    refine ⟨b, hout, fun s => ?_⟩
    rw [isNumeral_iff]
    constructor
    · exact fun hs => hs.unique hholds
    · rintro rfl
      exact hholds
  inverse hc heap b s hout hs := by
    obtain ⟨b', hout', hholds⟩ := run_holds c heap w
    rw [hout'] at hout
    obtain rfl := Except.ok.inj hout
    rw [hs.unique hholds, hc, text_ftLtoa]
    exact ftAtoll64_ftLtoa (BitVec.le_toInt w) BitVec.toInt_lt

end Converter

/-- **Conversion.**  Every converter is in order for every 64-bit value, but for `ft_utoa`,
which is in order for zero only. -/
theorem converter_ok_iff (c : Converter) (w : BitVec 64) : c.Ok w ↔ c ≠ .ftUtoa ∨ w = 0 := by
  constructor
  · intro h
    by_contra hnot
    rw [not_or, not_not] at hnot
    obtain ⟨rfl, hw⟩ := hnot
    exact Converter.not_ok_of_ne_zero hw h
  · intro h
    by_cases hc : c = .ftUtoa
    · rw [hc, h.resolve_left (not_not.mpr hc)]
      exact Converter.ok_of_inBounds fun heap => (Converter.utoa_zero_finishes heap).1
    · exact Converter.ok_of_inBounds fun heap => (Converter.run_finishes hc heap w).1

/-- `ft_utoa(1)` stores the terminator behind a block of one byte. -/
theorem not_converter_ok_one : ¬Converter.ftUtoa.Ok 1 :=
  Converter.not_ok_of_ne_zero (by decide)

end FtNm
