import FtNm.Properties.Support.IntegerDirectives

/-!
# Numerals, arguments and padding of the integer conversions

The pieces of `ft_print_d` and `ft_print_poubx`, each compared with its counterpart in the
standard: the numeral with the canonical one, the argument taken from the slot with the value of
its type, the precision with the least number of digits.  `layout` is the arrangement that a
width asks for, and `ftNumeric_layout` and `ftAlternate_layout` say that both padding routines
arrive at it as long as no length leaves the range of an `int`.
-/

namespace FtNm

open Numeral

/-! ## Numerals -/

/-- One digit at least: the numeral of `0` is a zero. -/
lemma padLeft_one_zero (c : IntConversion) (b : ℕ) :
    padLeft '0'.toUInt8 1 (numeral b c.digit 0) = ['0'.toUInt8] := by
  rw [numeral_zero]
  rfl

lemma padLeft_one_of_ne_zero {α : Type} {b n : ℕ} (hb : 1 < b) (hn : n ≠ 0) (fill : α)
    (digit : ℕ → α) : padLeft fill 1 (numeral b digit n) = numeral b digit n :=
  padLeft_of_le (List.length_pos_iff.mpr (numeral_ne_nil hb hn digit))

lemma decimalDigits_eq (n : ℕ) :
    decimalDigits n = numeral 10 (fun d => UInt8.ofNat (d + '0'.toNat)) n := by
  induction n using Nat.strong_induction_on with
  | _ n ih =>
    rw [decimalDigits]
    split_ifs with hn
    · rw [hn, numeral_zero]
    · rw [ih _ (Nat.div_lt_self (Nat.pos_of_ne_zero hn) (by norm_num)),
        numeral_step (by norm_num) hn]

/-- `ft_utoa` is the decimal numeral. -/
lemma ftUtoa_eq {c : IntConversion} (hc : c.base = 10) (n : ℕ) :
    ftUtoa n = padLeft '0'.toUInt8 1 (numeral c.base c.digit n) := by
  unfold ftUtoa
  split_ifs with hn
  · rw [hn, padLeft_one_zero]
    rfl
  · have hdigit : ∀ d < 10, UInt8.ofNat (d + '0'.toNat) = c.digit d := by
      cases c <;> decide
    rw [hc, padLeft_one_of_ne_zero (by norm_num) hn, decimalDigits_eq,
      numeral_congr (by norm_num) hdigit]

lemma nbaseLength_of_lt {shift : ℕ} (hshift : 0 < shift) {n : ℕ} (h : n >>> shift = 0) :
    nbaseLength shift hshift n = 1 := by
  rw [nbaseLength, dif_pos h]

lemma nbaseLength_of_le {shift : ℕ} (hshift : 0 < shift) {n : ℕ} (h : n >>> shift ≠ 0) :
    nbaseLength shift hshift n = nbaseLength shift hshift (n >>> shift) + 1 := by
  rw [nbaseLength, dif_neg h]

/-- `shift_bits` with the mask of its shift is the numeral in a power of two. -/
lemma shiftBits_eq {shift : ℕ} (hshift : 0 < shift) (n : ℕ) :
    shiftBits n (2 ^ shift - 1) shift hshift =
      padLeft '0'.toUInt8 1 (numeral (2 ^ shift) digitChar n) := by
  have hbase : 1 < 2 ^ shift := Nat.one_lt_two_pow hshift.ne'
  unfold shiftBits
  induction n using Nat.strong_induction_on with
  | _ n ih =>
    by_cases hzero : n = 0
    · subst hzero
      rw [nbaseLength_of_lt hshift (Nat.zero_shiftRight _), numeral_zero]
      simp only [fillDigits, Nat.zero_and]
      rfl
    · have hlast : n &&& (2 ^ shift - 1) = n % 2 ^ shift := Nat.and_two_pow_sub_one_eq_mod n shift
      rw [padLeft_one_of_ne_zero hbase hzero, numeral_step hbase hzero,
        ← Nat.shiftRight_eq_div_pow]
      by_cases hshort : n >>> shift = 0
      · rw [nbaseLength_of_lt hshift hshort, hshort, numeral_zero, fillDigits, fillDigits, hlast]
      · have hlt : n >>> shift < n := by
          rw [Nat.shiftRight_eq_div_pow]
          exact Nat.div_lt_self (Nat.pos_of_ne_zero hzero) hbase
        rw [nbaseLength_of_le hshift hshort, fillDigits, ih _ hlt,
          padLeft_one_of_ne_zero hbase hshort, hlast]

/-- The hexadecimal numeral, before and after `ft_strupper`. -/
lemma shiftBits_hex (h : 0 < 4) (n : ℕ) :
    shiftBits n 15 4 h = padLeft '0'.toUInt8 1 (numeral 16 IntConversion.x.digit n) := by
  refine (shiftBits_eq h n).trans ?_
  exact congrArg (padLeft _ 1) (numeral_congr (by norm_num) (by decide) _)

lemma upper_hex (n : ℕ) :
    (padLeft '0'.toUInt8 1 (numeral 16 IntConversion.x.digit n)).map
        (fun c => if 'a'.toUInt8 ≤ c ∧ c ≤ 'z'.toUInt8 then c - 32 else c) =
      padLeft '0'.toUInt8 1 (numeral 16 IntConversion.X.digit n) := by
  have hdigits : (numeral 16 IntConversion.x.digit n).map
      (fun c => if 'a'.toUInt8 ≤ c ∧ c ≤ 'z'.toUInt8 then c - 32 else c) =
        numeral 16 IntConversion.X.digit n := by
    rw [map_numeral]
    exact numeral_congr (by norm_num) (by decide) n
  unfold padLeft
  rw [List.map_append, List.map_replicate, hdigits, ← hdigits, List.length_map]
  rfl

/-- `ft_base` is the numeral in the base of the conversion. -/
lemma ftBase_eq {c : IntConversion} (hc : c.signed = false) {args : TArgs}
    (h : args.spec = c.spec) :
    ftBase args = padLeft '0'.toUInt8 1 (numeral c.base c.digit args.unsignEd) := by
  unfold ftBase
  rw [h]
  cases c with
  | d => cases hc
  | i => cases hc
  | u => exact ftUtoa_eq rfl _
  | o =>
    refine (shiftBits_eq (by norm_num : 0 < 3) args.unsignEd).trans ?_
    exact congrArg (padLeft _ 1) (numeral_congr (by norm_num) (by decide) _)
  | x => exact shiftBits_hex (by norm_num) _
  | X =>
    refine Eq.trans ?_ (upper_hex args.unsignEd)
    rw [← shiftBits_hex (by norm_num)]
    rfl

/-! ## Arguments -/

/-- The low bits of a slot as a signed number. -/
lemma signedSlot_eq {bits : ℕ} (hbits : 0 < bits) (slot : ℕ) :
    signedSlot bits slot = (slot : ℤ).bmod (2 ^ bits) := by
  have hpow : 2 ^ bits = 2 * 2 ^ (bits - 1) := by
    rw [← pow_succ']
    congr 1
    omega
  have hpos : 0 < 2 ^ (bits - 1) := Nat.two_pow_pos _
  have hmod : (slot : ℤ) % (2 ^ bits : ℕ) = (slot % 2 ^ bits : ℕ) := (Int.natCast_mod _ _).symm
  unfold signedSlot
  rw [Int.bmod_def, hmod]
  have hhalf : (((2 ^ bits : ℕ) : ℤ) + 1) / 2 = (2 ^ (bits - 1) : ℕ) := by
    rw [hpow]
    omega
  rw [hhalf]
  by_cases hlt : slot % 2 ^ bits < 2 ^ (bits - 1)
  · rw [if_pos hlt, if_pos (by exact_mod_cast hlt)]
  · rw [if_neg hlt, if_neg (by exact_mod_cast hlt)]
    push_cast
    rfl

/-- The tests of `ft_signed` and `ft_unsigned`, as they come out for a modifier. -/
lemma ftSigned_mask {args : TArgs} {m : LengthModifier} (h : args.modifier = m.mask) (slot : ℕ) :
    ftSigned args slot = signedSlot m.bits slot := by
  unfold ftSigned TArgs.modified
  rw [h]
  cases m <;> rfl

lemma ftUnsigned_mask {args : TArgs} {m : LengthModifier} (h : args.modifier = m.mask)
    (hspec : ftContains "ouxX" args.spec = true) (slot : ℕ) :
    ftUnsigned args slot = slot % 2 ^ m.bits := by
  unfold ftUnsigned TArgs.modified
  rw [h, hspec]
  cases m with
  | absent | l | ll | j | z => rfl
  | h => exact Nat.mod_mod_of_dvd slot (pow_dvd_pow 2 (by norm_num : 16 ≤ 32))
  | hh => exact Nat.mod_mod_of_dvd slot (pow_dvd_pow 2 (by norm_num : 8 ≤ 32))

lemma bits_pos (m : LengthModifier) : 0 < m.bits := by
  cases m <;> decide

lemma bits_le (m : LengthModifier) : m.bits ≤ 64 := by
  cases m <;> decide

namespace IntDirective

variable (d : IntDirective)

/-- `ft_print_d` takes the argument in the type of the directive. -/
lemma ftSigned_value (hsigned : d.conversion.signed = true) (slot : ℕ) :
    ftSigned d.args slot = d.value slot := by
  rw [ftSigned_mask (m := d.modifier) rfl, signedSlot_eq (bits_pos _), value, if_pos hsigned]

/-- So does `ft_print_poubx`. -/
lemma ftUnsigned_value (hsigned : d.conversion.signed = false) (slot : ℕ) :
    (ftUnsigned d.args slot : ℤ) = d.value slot := by
  have hspec : ftContains "ouxX" d.args.spec = true := by
    show ftContains "ouxX" d.conversion.spec = true
    simp [hsigned]
  rw [ftUnsigned_mask (m := d.modifier) rfl hspec, value, if_neg (by simp [hsigned])]

/-- The argument has at most 64 bits. -/
lemma natAbs_value_lt (slot : ℕ) : (d.value slot).natAbs < 2 ^ 65 := by
  have hpos : (0 : ℤ) < (2 ^ d.modifier.bits : ℕ) := by positivity
  have hle : (2 ^ d.modifier.bits : ℕ) ≤ 2 ^ 64 := Nat.pow_le_pow_right (by norm_num) (bits_le _)
  unfold value
  split_ifs
  · have hlow := Int.le_bmod (x := (slot : ℤ)) (m := 2 ^ d.modifier.bits) (by positivity)
    have hhigh := Int.bmod_lt (x := (slot : ℤ)) (m := 2 ^ d.modifier.bits) (by positivity)
    omega
  · have hlt := Nat.mod_lt slot (Nat.two_pow_pos d.modifier.bits)
    omega

end IntDirective

/-! ## Padding to a width -/

/-- The arrangement of a width: blanks behind, zeros between, or blanks in front. -/
def layout (minus zero : Bool) (width : ℕ) (lead digits : List UInt8) : List UInt8 :=
  let fill := width - (lead.length + digits.length)
  if minus then lead ++ digits ++ List.replicate fill ' '.toUInt8
  else if zero then lead ++ List.replicate fill '0'.toUInt8 ++ digits
  else List.replicate fill ' '.toUInt8 ++ lead ++ digits

lemma length_layout (minus zero : Bool) (width : ℕ) (lead digits : List UInt8) :
    (layout minus zero width lead digits).length = max width (lead.length + digits.length) := by
  unfold layout
  dsimp only
  split_ifs <;> simp only [List.length_append, List.length_replicate] <;> omega

/-- A leading zero may as well be the first of the digits. -/
lemma layout_zero (minus zero : Bool) (width : ℕ) (digits : List UInt8) :
    layout minus zero width ['0'.toUInt8] digits =
      layout minus zero width [] ('0'.toUInt8 :: digits) := by
  unfold layout
  simp only [List.length_nil, List.length_cons, zero_add,
    Nat.add_comm digits.length 1]
  split_ifs with hminus hzero
  · rfl
  · rw [List.nil_append, List.append_cons, ← List.replicate_succ', List.replicate_succ]
    rfl
  · simp

/-- No width, no padding. -/
lemma layout_fill {minus zero : Bool} {width : ℕ} {lead digits : List UInt8}
    (h : width ≤ lead.length + digits.length) :
    layout minus zero width lead digits = lead ++ digits := by
  unfold layout
  rw [Nat.sub_eq_zero_of_le h]
  simp

/-- A padding of an `int`, on either side. -/
lemma padd_fill (element : List UInt8) {w n : ℕ} (hw : w < 2 ^ 31) (hn : n < 2 ^ 31) (c : Char)
    (left : Bool) : padd element (int32 ((w : ℤ) - n)) c left =
      if left then List.replicate (w - n) c.toUInt8 ++ element
      else element ++ List.replicate (w - n) c.toUInt8 := by
  have hpad : (int32 ((w : ℤ) - n)).toNat = w - n := by
    rw [int32_of_mem (by omega) (by omega)]
    omega
  unfold padd
  rw [hpad]

/-- A text without an `n` is none of the words for infinities and for nan. -/
lemma isNan_eq_false {args : TArgs} (hn : 'n'.toUInt8 ∉ args.result) : isNan args = false := by
  refine decide_eq_false fun h => hn ?_
  rw [h]
  decide

lemma isInf_eq_false {args : TArgs} (hn : 'n'.toUInt8 ∉ args.result) : isInf args = false := by
  have hwords : ∀ word ∈ [cstr "inf", cstr "-inf", cstr "+inf", cstr " inf"],
      'n'.toUInt8 ∈ word := by
    decide
  exact decide_eq_false fun h => hn (hwords _ h)

section Width

variable {args : TArgs} {w : ℕ} (hwidth : args.width = w) (hw : w < 2 ^ 31) {zero : Bool}
  (hzero : args.has MASK_ZERO = (zero && !args.has MASK_MINUS))

include hwidth hw hzero

/-- The padding of the unsigned conversions with a base. -/
lemma ftAlternate_layout (hspec : args.spec ≠ 'p'.toUInt8)
    (hlen : (getPrefix args).length + args.result.length < 2 ^ 31) :
    (ftAlternate args).result =
      layout (args.has MASK_MINUS) zero w (getPrefix args) args.result := by
  -- without the flag the prefix is empty, so it makes no difference whether it is put on
  have hpre (t : List UInt8) : (if (args.has MASK_HASH || decide (args.spec = 'p'.toUInt8)) = true
      then getPrefix args ++ t else t) = getPrefix args ++ t := by
    split_ifs with hflg
    · rfl
    · have hhash : args.has MASK_HASH = false := by
        rw [Bool.not_eq_true, Bool.or_eq_false_iff] at hflg
        exact hflg.1
      have hnil : getPrefix args = [] := by
        rw [getPrefix, if_neg hspec, if_neg (by simp [hhash])]
      rw [hnil, List.nil_append]
  have hpad (element : List UInt8) (c : Char) (left : Bool) :
      padd element (int32 (args.width - (args.result.length + (getPrefix args).length))) c left =
        if left then
          List.replicate (w - ((getPrefix args).length + args.result.length)) c.toUInt8 ++ element
        else element ++
          List.replicate (w - ((getPrefix args).length + args.result.length)) c.toUInt8 := by
    rw [hwidth, ← padd_fill element hw hlen c left]
    push_cast
    rw [Int.add_comm (args.result.length : ℤ)]
  unfold ftAlternate layout
  dsimp only
  rw [hzero]
  simp only [hpre, hpad]
  cases hminus : args.has MASK_MINUS with
  | true => simp
  | false =>
    cases zero with
    | true => simp
    | false => simp

/-- What `ft_numeric` does once the sign is in place. -/
lemma ftNumeric_layout {lead digits : List UInt8}
    (hsign : manageSign args (args.result.head? = some '-'.toUInt8) =
      ({ args with result := lead ++ digits }, !lead.isEmpty))
    (hlead : lead.length ≤ 1) (hn : 'n'.toUInt8 ∉ lead ++ digits)
    (hlen : lead.length + digits.length < 2 ^ 31) :
    (ftNumeric args).result = layout (args.has MASK_MINUS) zero w lead digits := by
  have hnan : isNan { args with result := lead ++ digits } = false := isNan_eq_false hn
  have hinf : isInf { args with result := lead ++ digits } = false := isInf_eq_false hn
  have hlength : (lead ++ digits).length = lead.length + digits.length := List.length_append
  have hint : int32 (lead ++ digits).length = (lead.length + digits.length : ℕ) := by
    rw [hlength]
    exact int32_of_mem (by omega) (by omega)
  have hpad := fun element => padd_fill element hw hlen
  have hhas (mask : ℕ) :
      ({ args with result := lead ++ digits } : TArgs).has mask = args.has mask := rfl
  unfold ftNumeric
  rw [hsign]
  dsimp only
  rw [hint, hnan, hinf]
  simp only [hhas, hzero]
  simp only [hwidth, hpad]
  by_cases hfill : w ≤ lead.length + digits.length
  · rw [if_neg (by omega), layout_fill hfill]
  · rw [if_pos (by omega)]
    unfold layout
    dsimp only
    cases hminus : args.has MASK_MINUS with
    | true => simp
    | false =>
      cases zero with
      | false => simp
      | true =>
        -- the zeros go between the sign, which is a single character, and the digits
        rcases lead with - | ⟨c, - | ⟨c', lead⟩⟩
        · simp
        · simp
        · simp at hlead

end Width

/-! ## Precision -/

/-- A precision fills up with zeros; `-1`, the one that is absent, never does. -/
lemma padd_precision {s : List UInt8} (hs : s.length < 2 ^ 31) {p : ℤ} (hlow : -1 ≤ p)
    (hhigh : p < 2 ^ 31) :
    (if p > s.length then padd s (int32 (p - s.length)) '0' true else s) =
      padLeft '0'.toUInt8 p.toNat s := by
  split_ifs with hlong
  · have hrest : (int32 (p - s.length)).toNat = p.toNat - s.length := by
      rw [int32_of_mem (by omega) (by omega)]
      omega
    unfold padd padLeft
    rw [hrest]
    rfl
  · exact (padLeft_of_le (by omega)).symm

section Precision

variable {args : TArgs} (hlow : -1 ≤ args.precision) (hhigh : args.precision < 2 ^ 31)

include hlow hhigh

lemma ftPrecision_unsigned {c : IntConversion} (hc : c.signed = false) (hspec : args.spec = c.spec)
    (hlen : args.result.length < 2 ^ 31) :
    ftPrecision args =
      { args with result := padLeft '0'.toUInt8 args.precision.toNat args.result } := by
  have hs : args.spec ≠ 's'.toUInt8 := hspec ▸ c.spec_other.2.1
  have hpoubx : ftContains "poubxX" args.spec = true := by simp [hspec, hc]
  have hint : int32 args.result.length = args.result.length := int32_of_mem (by omega) (by omega)
  unfold ftPrecision
  dsimp only
  rw [if_neg (fun h => hs h.1), if_pos hpoubx, hint, ftPoubx, padd_precision hlen hlow hhigh]

/-- The sign keeps its place in front of the zeros. -/
lemma ftPrecision_signed {c : IntConversion} (hc : c.signed = true) (hspec : args.spec = c.spec)
    {negative : Prop} [Decidable negative] {s : List UInt8}
    (hresult : args.result = if negative then '-'.toUInt8 :: s else s)
    (hminus : s.head? ≠ some '-'.toUInt8) (hlen : s.length < 2 ^ 31 - 1) :
    ftPrecision args =
      { args with result :=
          if negative then '-'.toUInt8 :: padLeft '0'.toUInt8 args.precision.toNat s
          else padLeft '0'.toUInt8 args.precision.toNat s } := by
  have hs : args.spec ≠ 's'.toUInt8 := hspec ▸ c.spec_other.2.1
  have hpoubx : ftContains "poubxX" args.spec = false := by simp [hspec, hc]
  have hid : ftContains "id" args.spec = true := by simp [hspec, hc]
  have hpadd := padd_precision (s := s) (by omega) hlow hhigh
  unfold ftPrecision
  dsimp only
  rw [if_neg (fun h => hs h.1), if_neg (by simp [hpoubx]), if_pos hid]
  by_cases hneg : negative
  · rw [if_pos hneg] at hresult ⊢
    have hint : int32 args.result.length - (1 : ℕ) = s.length := by
      rw [hresult, List.length_cons, int32_of_mem (by omega) (by omega)]
      omega
    have hsign : args.result.head? = some '-'.toUInt8 := by rw [hresult, List.head?_cons]
    have hdrop : args.result.drop 1 = s := by
      rw [hresult]
      rfl
    simp only [hsign, if_true, hint, hdrop]
    rw [← hpadd]
    split_ifs with hlong
    · rfl
    · rw [← hresult]
  · rw [if_neg hneg] at hresult ⊢
    have hint : int32 s.length - (0 : ℕ) = s.length := by
      rw [int32_of_mem (by omega) (by omega)]
      omega
    simp only [hresult, hminus, if_false, hint, List.drop_zero, zero_ne_one]
    rw [← hpadd]
    split_ifs with hlong
    · rfl
    · rw [← hresult]

end Precision

end FtNm
