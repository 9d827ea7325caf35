import FtNm.Properties.Support.IntegerText

/-!
# The integer conversions against C

`PrintsAsC` says of a directive and an argument that `ft_printf` prints what C prints.  The flags
do not get into each other's way, and neither do the two padding routines and the fast path; what
does go wrong is the `int` in which lengths are kept.  `printsAsC_iff` is the exact statement:
the text must be shorter than `2 ^ 31` bytes.
-/

namespace FtNm

open Numeral

namespace IntDirective

variable (d : IntDirective)

/-! ## The digits -/

/-- The digits before the zero that `#` may put in front of an octal numeral. -/
def leastDigits (magnitude : ℕ) : List UInt8 :=
  padLeft '0'.toUInt8 ((d.precision.map decimalValue).getD 1)
    (numeral d.conversion.base d.conversion.digit magnitude)

lemma base_spec (c : IntConversion) : 8 ≤ c.base ∧ c.base ≤ 16 := by
  cases c <;> decide

lemma one_lt_base (c : IntConversion) : 1 < c.base := by
  have hbase := base_spec c
  omega

lemma digit_spec (c : IntConversion) : ∀ x < 16, c.digit x ≠ '-'.toUInt8 ∧
    c.digit x ≠ 'n'.toUInt8 := by
  cases c <;> decide

/-- No digit looks like a sign, or like a letter of `nan`. -/
lemma mem_leastDigits {magnitude : ℕ} {c : UInt8} (hc : c ∈ d.leastDigits magnitude) :
    c ≠ '-'.toUInt8 ∧ c ≠ 'n'.toUInt8 := by
  rcases mem_padLeft hc with rfl | hc
  · decide
  · obtain ⟨x, hx, rfl⟩ := mem_numeral (one_lt_base _) hc
    exact digit_spec _ x (hx.trans_le (base_spec _).2)

/-- The numeral of an argument is short. -/
lemma length_numeral_value (slot : ℕ) :
    (numeral d.conversion.base d.conversion.digit (d.value slot).natAbs).length ≤ 22 := by
  have hpow : (2 : ℕ) ^ 65 < 8 ^ 22 := by norm_num
  have hbase : 8 ^ 22 ≤ d.conversion.base ^ 22 := Nat.pow_le_pow_left (base_spec _).1 22
  refine length_numeral_le (one_lt_base _) ?_ _
  exact (d.natAbs_value_lt slot).trans (hpow.trans_le hbase)

lemma args_precision_spec : -1 ≤ d.args.precision ∧ d.args.precision < 2 ^ 31 := by
  show -1 ≤ d.precision.elim (-1 : ℤ) (fun s => (decimalValue s : ℤ)) ∧ _ < _
  cases hprecision : d.precision with
  | none => norm_num [args, hprecision]
  | some s =>
    have hlt := d.precision_lt s hprecision
    simp only [args, hprecision, Option.elim_some]
    omega

/-- A precision on top of the one digit that every numeral has. -/
lemma padLeft_precision {magnitude : ℕ} (h : ¬(d.args.precision = 0 ∧ magnitude = 0)) :
    padLeft '0'.toUInt8 d.args.precision.toNat (padLeft '0'.toUInt8 1
        (numeral d.conversion.base d.conversion.digit magnitude)) = d.leastDigits magnitude := by
  rw [padLeft_padLeft]
  unfold leastDigits
  cases hprecision : d.precision with
  | none =>
    have habsent : d.args.precision = -1 := by simp [args, hprecision]
    rw [habsent]
    rfl
  | some s =>
    have hgiven : d.args.precision = decimalValue s := by simp [args, hprecision]
    rw [hgiven, Int.toNat_natCast]
    show padLeft _ (max 1 (decimalValue s)) _ = padLeft _ (decimalValue s) _
    rcases Nat.eq_zero_or_pos (decimalValue s) with hzero | hpos
    · have hmagnitude : magnitude ≠ 0 := fun hm => h ⟨by rw [hgiven, hzero]; rfl, hm⟩
      rw [hzero, padLeft_of_le (Nat.zero_le _)]
      exact padLeft_one_of_ne_zero (one_lt_base _) hmagnitude _ _
    · rw [max_eq_right hpos]

/-- Zero at precision zero. -/
lemma leastDigits_zero (h : d.args.precision = 0) : d.leastDigits 0 = [] := by
  unfold leastDigits
  cases hprecision : d.precision with
  | none =>
    have habsent : d.args.precision = -1 := by simp [args, hprecision]
    omega
  | some s =>
    have hgiven : d.args.precision = decimalValue s := by simp [args, hprecision]
    have hzero : decimalValue s = 0 := by omega
    rw [numeral_zero]
    show padLeft _ (decimalValue s) _ = _
    rw [hzero]
    rfl

/-- Without a precision there is one digit at least. -/
lemma leastDigits_absent (h : d.args.precision = -1) (magnitude : ℕ) :
    d.leastDigits magnitude = padLeft '0'.toUInt8 1
      (numeral d.conversion.base d.conversion.digit magnitude) := by
  unfold leastDigits
  cases hprecision : d.precision with
  | none => rfl
  | some s =>
    have hgiven : d.args.precision = decimalValue s := by simp [args, hprecision]
    omega

/-! ## The text as a layout -/

lemma digits_eq (magnitude : ℕ) : d.digits magnitude =
    if d.conversion = .o ∧ d.has '#' ∧ (d.leastDigits magnitude).head? ≠ some '0'.toUInt8 then
      '0'.toUInt8 :: d.leastDigits magnitude
    else d.leastDigits magnitude := rfl

lemma digits_of_ne_o (h : d.conversion ≠ .o) (magnitude : ℕ) :
    d.digits magnitude = d.leastDigits magnitude := by
  rw [digits_eq, if_neg fun hand => h hand.1]

lemma digits_without_hash (h : d.has '#' = false) (magnitude : ℕ) :
    d.digits magnitude = d.leastDigits magnitude := by
  rw [digits_eq, if_neg (by simp [h])]

lemma cText_eq (slot : ℕ) : d.cText slot =
    layout (d.has '-') (d.has '0' && d.precision.isNone) (decimalValue d.width)
      (d.lead (d.value slot)) (d.digits (d.value slot).natAbs) := by
  have hzero : (d.has '0' && d.precision.isNone) = true ↔
      d.has '0' = true ∧ d.precision = none := by
    rw [Bool.and_eq_true, Option.isNone_iff_eq_none]
  unfold cText layout
  dsimp only
  rw [if_congr hzero rfl rfl]

lemma length_cText (slot : ℕ) : (d.cText slot).length = max (decimalValue d.width)
    ((d.lead (d.value slot)).length + (d.digits (d.value slot).natAbs).length) := by
  rw [cText_eq, length_layout]

/-- The padding routines see the width, the flags and the specifier of the directive, whatever
text they work on. -/
structure Prepared (args : TArgs) : Prop where
  spec : args.spec = d.conversion.spec
  width : args.width = decimalValue d.width
  has : ∀ mask, args.has mask = d.args.has mask

variable {d} in
lemma Prepared.minus {args : TArgs} (h : d.Prepared args) : args.has MASK_MINUS = d.has '-' := by
  rw [h.has, args_has_minus]

variable {d} in
lemma Prepared.zero {args : TArgs} (h : d.Prepared args) : args.has MASK_ZERO =
    ((d.has '0' && d.precision.isNone) && !args.has MASK_MINUS) := by
  rw [h.minus, h.has, args_has_zero]

lemma ftWidth_numeric {args : TArgs} {c : IntConversion} (hspec : args.spec = c.spec)
    (hc : c.base = 10) : ftWidth args = ftNumeric args := by
  have hnumeric : ftContains "diuf" args.spec = true := by simp [hspec, hc]
  rw [ftWidth, if_pos hnumeric]

lemma ftWidth_alternate {args : TArgs} {c : IntConversion} (hspec : args.spec = c.spec)
    (hc : c.base ≠ 10) : ftWidth args = ftAlternate args := by
  have hnumeric : ftContains "diuf" args.spec = false := by simp [hspec, hc]
  have hs : args.spec ≠ 's'.toUInt8 := hspec ▸ c.spec_other.2.1
  have halternate : ftContains "pxXob" args.spec = true := by simp [hspec, hc]
  rw [ftWidth, if_neg (by simp [hnumeric]), if_neg hs, if_pos halternate]

/-! ## The fast path -/

/-- Without flags, width and precision, there is nothing to add to the numeral. -/
lemma plain_spec (h : d.args.plain = true) :
    (∀ flag ∈ ['-', '+', '#', ' '], d.has flag = false) ∧ d.args.width = 0 ∧
      d.args.precision = -1 := by
  unfold TArgs.plain at h
  rw [Bool.and_eq_true, Bool.and_eq_true] at h
  obtain ⟨⟨hflag, hwidth⟩, hprecision⟩ := h
  have hzero (mask : ℕ) : d.args.has mask = false := by
    unfold TArgs.has
    rw [of_decide_eq_true hflag, Nat.zero_and]
    rfl
  refine ⟨?_, of_decide_eq_true hwidth, of_decide_eq_true hprecision⟩
  have hminus := d.args_has_minus.symm.trans (hzero _)
  have hplus := d.args_has_plus.symm.trans (hzero _)
  have hhash := d.args_has_hash.symm.trans (hzero _)
  have hspace := d.args_has_space.symm.trans (hzero _)
  rw [hplus, Bool.not_false, Bool.and_true] at hspace
  simp [hminus, hplus, hhash, hspace]

/-- The fast path prints the numeral as it is. -/
lemma cText_plain (h : d.args.plain = true) (slot : ℕ) : d.cText slot =
    d.lead (d.value slot) ++ padLeft '0'.toUInt8 1
      (numeral d.conversion.base d.conversion.digit (d.value slot).natAbs) := by
  obtain ⟨hflags, hwidth, hprecision⟩ := d.plain_spec h
  have hwidth' : (decimalValue d.width : ℤ) = 0 := hwidth
  have hfill : decimalValue d.width ≤
      (d.lead (d.value slot)).length + (d.digits (d.value slot).natAbs).length := by
    omega
  have hhash : d.has '#' = false := hflags '#' (by decide)
  rw [cText_eq, layout_fill hfill, d.digits_without_hash hhash, d.leastDigits_absent hprecision]

/-! ## Signed conversions -/

section Signed

variable (hsigned : d.conversion.signed = true)

include hsigned

lemma lead_signed (x : ℤ) : d.lead x =
    if x < 0 then cstr "-"
    else if d.has '+' then cstr "+"
    else if d.has ' ' then cstr " "
    else [] :=
  if_pos hsigned

lemma spec_ne_u : d.conversion.spec ≠ 'u'.toUInt8 := by
  intro hu
  rw [(IntConversion.spec_inj _ .u).mp hu] at hsigned
  cases hsigned

/-- The text that `ft_print_d` starts from. -/
lemma ftLtoa_value (slot : ℕ) : ftLtoa (d.value slot) =
    if d.value slot < 0 then '-'.toUInt8 :: padLeft '0'.toUInt8 1
        (numeral d.conversion.base d.conversion.digit (d.value slot).natAbs)
    else padLeft '0'.toUInt8 1
        (numeral d.conversion.base d.conversion.digit (d.value slot).natAbs) := by
  unfold ftLtoa
  rw [ftUtoa_eq (IntConversion.base_of_signed hsigned)]

/-- `manage_sign` puts the sign of the standard in front. -/
lemma manageSign_signed (x : ℤ) {s : List UInt8} (hs : ∀ c ∈ s, c ≠ '-'.toUInt8 ∧ c ≠ 'n'.toUInt8)
    {args : TArgs}
    (hargs : args = { d.args with result := if x < 0 then '-'.toUInt8 :: s else s }) :
    manageSign args (args.result.head? = some '-'.toUInt8) =
      ({ args with result := d.lead x ++ s }, !(d.lead x).isEmpty) := by
  subst hargs
  have hhead : s.head? ≠ some '-'.toUInt8 := fun h => (hs _ (List.mem_of_mem_head? h)).1 rfl
  have hu : d.args.spec ≠ 'u'.toUInt8 := d.spec_ne_u hsigned
  have hplus : ({ d.args with result := s } : TArgs).has MASK_PLUS = d.has '+' := d.args_has_plus
  have hspace : ({ d.args with result := s } : TArgs).has MASK_SPACE =
      (d.has ' ' && !d.has '+') := d.args_has_space
  have hnan : isNan { d.args with result := s } = false :=
    isNan_eq_false fun hn => (hs _ hn).2 rfl
  rw [lead_signed d hsigned]
  by_cases hneg : x < 0
  · simp only [if_pos hneg]
    rfl
  · simp only [if_neg hneg, hhead, decide_false]
    unfold manageSign
    simp only [hplus, hspace, hnan]
    cases hp : d.has '+' with
    | true => simp [hu, cstr]
    | false =>
      cases hsp : d.has ' ' with
      | true => simp [hu, cstr]
      | false => simp

end Signed

/-- `ft_print_d` before its padding: the sign and the digits. -/
lemma ftPrintD_precision (hsigned : d.conversion.signed = true) (slot : ℕ) :
    (if d.args.precision = 0 ∧ d.value slot = 0 then { d.args with result := [] }
      else ftPrecision { d.args with result := ftLtoa (d.value slot) }) =
    { d.args with result := if d.value slot < 0 then
        '-'.toUInt8 :: d.leastDigits (d.value slot).natAbs
      else d.leastDigits (d.value slot).natAbs } := by
  by_cases hempty : d.args.precision = 0 ∧ d.value slot = 0
  · rw [if_pos hempty, hempty.2, if_neg (lt_irrefl _), Int.natAbs_zero,
      d.leastDigits_zero hempty.1]
  · have hmagnitude : ¬(d.args.precision = 0 ∧ (d.value slot).natAbs = 0) := fun h =>
      hempty ⟨h.1, Int.natAbs_eq_zero.mp h.2⟩
    have hlength := d.length_numeral_value slot
    have hone := length_padLeft '0'.toUInt8 1
      (numeral d.conversion.base d.conversion.digit (d.value slot).natAbs)
    have hminus : (padLeft '0'.toUInt8 1 (numeral d.conversion.base d.conversion.digit
        (d.value slot).natAbs)).head? ≠ some '-'.toUInt8 := by
      intro hhead
      rcases mem_padLeft (List.mem_of_mem_head? hhead) with h | h
      · exact absurd h (by decide)
      · obtain ⟨x, hx, hdigit⟩ := mem_numeral (one_lt_base _) h
        exact (digit_spec _ x (hx.trans_le (base_spec _).2)).1 hdigit
    have hlow : -1 ≤ ({ d.args with result := ftLtoa (d.value slot) } : TArgs).precision :=
      d.args_precision_spec.1
    rw [if_neg hempty, ftPrecision_signed hlow d.args_precision_spec.2 hsigned rfl
      (d.ftLtoa_value hsigned slot) hminus (by omega)]
    simp only [d.padLeft_precision hmagnitude]

/-- `ft_print_d` hands one string to `ft_putstr`. -/
lemma ftPrintD_putstr (args : TArgs) (slot : ℕ) (var : TVars) (va : List VaArg) :
    ftPrintD args { var with typesList := .word slot :: va } =
      { var with typesList := va }.putstr
        (if args.plain then ftLtoa (ftSigned args slot)
        else (ftWidth (if args.precision = 0 ∧ ftSigned args slot = 0 then
            { args with result := [] }
          else ftPrecision { args with result := ftLtoa (ftSigned args slot) })).result) := by
  have hplain (s : List UInt8) : ({ args with result := s } : TArgs).plain = args.plain := rfl
  unfold ftPrintD vaWord
  dsimp only
  rw [hplain]
  split_ifs <;> rfl

/-- The sign and the digits, padded. -/
lemma ftWidth_signed (hsigned : d.conversion.signed = true) (slot : ℕ)
    (hlen : (d.cText slot).length < 2 ^ 31) :
    (ftWidth { d.args with
      result := if d.value slot < 0 then '-'.toUInt8 :: d.leastDigits (d.value slot).natAbs
        else d.leastDigits (d.value slot).natAbs }).result = d.cText slot := by
  obtain ⟨args, hargs⟩ : ∃ args : TArgs, args = { d.args with
      result := if d.value slot < 0 then '-'.toUInt8 :: d.leastDigits (d.value slot).natAbs
        else d.leastDigits (d.value slot).natAbs } := ⟨_, rfl⟩
  have hprepared : d.Prepared args := by
    rw [hargs]
    exact ⟨rfl, rfl, fun _ => rfl⟩
  have hne : d.conversion ≠ .o := by
    intro ho
    rw [ho] at hsigned
    cases hsigned
  have hsign := d.manageSign_signed hsigned (d.value slot)
    (fun c hc => d.mem_leastDigits hc) hargs
  have hlead : (d.lead (d.value slot)).length ≤ 1 := by
    rw [lead_signed d hsigned]
    split_ifs <;> decide
  have hn : 'n'.toUInt8 ∉ d.lead (d.value slot) ++ d.leastDigits (d.value slot).natAbs := by
    rw [List.mem_append, not_or]
    refine ⟨?_, fun hmem => (d.mem_leastDigits hmem).2 rfl⟩
    rw [lead_signed d hsigned]
    split_ifs <;> decide
  rw [length_cText, d.digits_of_ne_o hne] at hlen
  rw [← hargs, ftWidth_numeric hprepared.spec (IntConversion.base_of_signed hsigned),
    ftNumeric_layout hprepared.width d.width_lt hprepared.zero hsign hlead hn (by omega),
    hprepared.minus, cText_eq, d.digits_of_ne_o hne]

/-- **A signed conversion prints what C prints.** -/
lemma ftPrintD_cText (hsigned : d.conversion.signed = true) (slot : ℕ)
    (hlen : (d.cText slot).length < 2 ^ 31) (var : TVars) (va : List VaArg) :
    ftPrintD d.args { var with typesList := .word slot :: va } =
      { var with typesList := va }.putstr (d.cText slot) := by
  rw [ftPrintD_putstr, d.ftSigned_value hsigned]
  congr 1
  by_cases hplain : d.args.plain = true
  · have hflags := (d.plain_spec hplain).1
    rw [if_pos hplain, d.cText_plain hplain, d.ftLtoa_value hsigned, lead_signed d hsigned,
      hflags '+' (by decide), hflags ' ' (by decide), if_neg Bool.false_ne_true,
      if_neg Bool.false_ne_true]
    split_ifs <;> rfl
  · rw [if_neg hplain, ftPrintD_precision d hsigned, d.ftWidth_signed hsigned slot hlen]

/-! ## Unsigned conversions -/

/-- `ft_print_poubx` hands one string to `ft_putstr`. -/
lemma ftPrintPoubx_putstr {args : TArgs} (hspec : args.spec ≠ 'p'.toUInt8) (slot : ℕ) (var : TVars)
    (va : List VaArg) :
    ftPrintPoubx args { var with typesList := .word slot :: va } =
      { var with typesList := va }.putstr
        (if args.plain then
          if ftUnsigned args slot = 0 ∧ args.precision = 0 then []
          else ftBase { args with unsignEd := ftUnsigned args slot }
        else (ftWidth (ftPrecision { args with
          unsignEd := ftUnsigned args slot
          result := if ftUnsigned args slot = 0 ∧ args.precision = 0 then []
            else ftBase { args with unsignEd := ftUnsigned args slot } })).result) := by
  have hplain (u : ℕ) (s : List UInt8) :
      ({ args with unsignEd := u, result := s } : TArgs).plain = args.plain := rfl
  unfold ftPrintPoubx vaWord
  dsimp only
  rw [hplain, if_neg hspec]
  split_ifs <;> rfl

section Unsigned

variable (hunsigned : d.conversion.signed = false)

include hunsigned

lemma natAbs_value (slot : ℕ) : (d.value slot).natAbs = ftUnsigned d.args slot := by
  rw [← d.ftUnsigned_value hunsigned]
  exact Int.natAbs_natCast _

/-- `ft_print_poubx` before its padding: the digits. -/
lemma ftPrecision_leastDigits {args : TArgs} (hspec : args.spec = d.conversion.spec)
    (hprecision : args.precision = d.args.precision) {slot : ℕ}
    (hresult : args.result = if (d.value slot).natAbs = 0 ∧ d.args.precision = 0 then []
      else padLeft '0'.toUInt8 1
        (numeral d.conversion.base d.conversion.digit (d.value slot).natAbs)) :
    ftPrecision args = { args with result := d.leastDigits (d.value slot).natAbs } := by
  have hlength := d.length_numeral_value slot
  have hone := length_padLeft '0'.toUInt8 1
    (numeral d.conversion.base d.conversion.digit (d.value slot).natAbs)
  obtain ⟨hlow, hhigh⟩ := d.args_precision_spec
  rw [← hprecision] at hlow hhigh
  by_cases hempty : (d.value slot).natAbs = 0 ∧ d.args.precision = 0
  · rw [if_pos hempty] at hresult
    rw [ftPrecision_unsigned hlow hhigh hunsigned hspec (by simp [hresult]), hresult, hprecision,
      hempty.1, hempty.2, d.leastDigits_zero hempty.2]
    rfl
  · rw [if_neg hempty] at hresult
    rw [ftPrecision_unsigned hlow hhigh hunsigned hspec (by rw [hresult]; omega), hresult,
      hprecision, d.padLeft_precision fun h => hempty h.symm]

lemma lead_without_hash (h : d.has '#' = false) (x : ℤ) : d.lead x = [] := by
  unfold lead
  rw [if_neg (by simp [hunsigned]), if_neg (by simp [h])]

/-- `u` goes through the routine of the signed conversions, which finds no sign. -/
lemma manageSign_unsigned (hbase : d.conversion.base = 10) {args : TArgs}
    (hspec : args.spec = d.conversion.spec) {s : List UInt8}
    (hs : ∀ c ∈ s, c ≠ '-'.toUInt8 ∧ c ≠ 'n'.toUInt8) (hresult : args.result = s) :
    manageSign args (args.result.head? = some '-'.toUInt8) =
      ({ args with result := [] ++ s }, !([] : List UInt8).isEmpty) := by
  subst hresult
  have hhead : args.result.head? ≠ some '-'.toUInt8 := fun h =>
    (hs _ (List.mem_of_mem_head? h)).1 rfl
  have hu : args.spec = 'u'.toUInt8 := by
    rw [hspec, IntConversion.eq_u hunsigned hbase]
    rfl
  rw [decide_eq_false hhead, manageSign, if_neg Bool.false_ne_true, if_neg fun h => h.2 hu,
    if_neg fun h => h.2 hu]
  rfl

omit hunsigned in
/-- `get_prefix` under `#`, for the conversions of C. -/
lemma getPrefix_hash {args : TArgs} {c : IntConversion} (hspec : args.spec = c.spec)
    (hhash : args.has MASK_HASH = true) : getPrefix args =
      if args.unsignEd ≠ 0 ∧ c = .x then cstr "0x"
      else if args.unsignEd ≠ 0 ∧ c = .X then cstr "0X"
      else if c = .o ∧ args.result.head? ≠ some '0'.toUInt8 then cstr "0"
      else [] := by
  have hp : args.spec ≠ 'p'.toUInt8 := hspec ▸ c.spec_other.2.2.1
  have hb : args.spec ≠ 'b'.toUInt8 := hspec ▸ c.spec_other.2.2.2
  have hx : args.spec = 'x'.toUInt8 ↔ c = .x := hspec ▸ IntConversion.spec_inj c .x
  have hX : args.spec = 'X'.toUInt8 ↔ c = .X := hspec ▸ IntConversion.spec_inj c .X
  have ho : args.spec = 'o'.toUInt8 ↔ c = .o := hspec ▸ IntConversion.spec_inj c .o
  rw [getPrefix, if_neg hp, if_pos hhash]
  simp only [hx, hX, ho, hb, if_false]

/-- The prefix of `ft_alternate` and the digits are arranged as those of the standard: a zero in
front of an octal numeral belongs to the one or to the other. -/
lemma getPrefix_layout {args : TArgs} {x : ℤ}
    (hspec : args.spec = d.conversion.spec) (hhash : args.has MASK_HASH = d.has '#')
    (hunsignEd : args.unsignEd = x.natAbs) (hresult : args.result = d.leastDigits x.natAbs) :
    (getPrefix args).length + args.result.length = (d.lead x).length + (d.digits x.natAbs).length ∧
      ∀ minus zero width, layout minus zero width (getPrefix args) args.result =
        layout minus zero width (d.lead x) (d.digits x.natAbs) := by
  have hx : args.unsignEd ≠ 0 ↔ x ≠ 0 := by
    rw [hunsignEd]
    exact Int.natAbs_ne_zero
  cases hhash' : d.has '#' with
  | false =>
    have hp : args.spec ≠ 'p'.toUInt8 := hspec ▸ d.conversion.spec_other.2.2.1
    have hpre : getPrefix args = [] := by
      rw [getPrefix, if_neg hp, if_neg (by simp [hhash, hhash'])]
    rw [hpre, hresult, d.lead_without_hash hunsigned hhash', d.digits_without_hash hhash']
    exact ⟨rfl, fun _ _ _ => rfl⟩
  | true =>
    have hpre := getPrefix_hash hspec (hhash.trans hhash')
    by_cases ho : d.conversion = .o
    · -- in octal the zero belongs to the digits
      have hlead : d.lead x = [] := by simp [lead, ho, IntConversion.signed]
      simp only [ho, reduceCtorEq, and_false, true_and, if_false] at hpre
      rw [hpre, hlead, digits_eq, hresult]
      simp only [ho, hhash', true_and]
      split_ifs with hhead
      · refine ⟨?_, fun _ _ _ => layout_zero _ _ _ _⟩
        rw [List.length_cons, List.length_nil, zero_add, Nat.add_comm]
        rfl
      · exact ⟨rfl, fun _ _ _ => rfl⟩
    · have hlead : getPrefix args = d.lead x := by
        rw [hpre, lead, hunsigned, hhash']
        simp only [hx, ho, false_and, if_false, and_true, Bool.false_eq_true]
        cases hconversion : d.conversion <;> simp
      rw [hlead, d.digits_of_ne_o ho, hresult]
      exact ⟨rfl, fun _ _ _ => rfl⟩

/-- What goes through the padding routines, where the fast path is not taken. -/
lemma ftPrintPoubx_ftWidth (hplain : d.args.plain ≠ true) (slot : ℕ) (var : TVars)
    (va : List VaArg) :
    ftPrintPoubx d.args { var with typesList := .word slot :: va } =
      { var with typesList := va }.putstr (ftWidth { d.args with
        unsignEd := (d.value slot).natAbs
        result := d.leastDigits (d.value slot).natAbs }).result := by
  have hp : d.args.spec ≠ 'p'.toUInt8 := d.conversion.spec_other.2.2.1
  obtain ⟨start, hstart⟩ : ∃ start : TArgs, start = { d.args with
      unsignEd := (d.value slot).natAbs
      result := if (d.value slot).natAbs = 0 ∧ d.args.precision = 0 then [] else
        padLeft '0'.toUInt8 1
          (numeral d.conversion.base d.conversion.digit (d.value slot).natAbs) } := ⟨_, rfl⟩
  have hspec : start.spec = d.conversion.spec := congrArg TArgs.spec hstart
  have hprecision : start.precision = d.args.precision := by rw [hstart]
  have hdigits := d.ftPrecision_leastDigits hunsigned hspec hprecision
    (congrArg TArgs.result hstart)
  rw [ftPrintPoubx_putstr hp, if_neg hplain, ftBase_eq hunsigned rfl,
    ← d.natAbs_value hunsigned slot, ← hstart, hdigits, hstart]

/-- The digits and the prefix, padded. -/
lemma ftWidth_unsigned (slot : ℕ) (hlen : (d.cText slot).length < 2 ^ 31) :
    (ftWidth { d.args with
      unsignEd := (d.value slot).natAbs
      result := d.leastDigits (d.value slot).natAbs }).result = d.cText slot := by
  obtain ⟨args, hargs⟩ : ∃ args : TArgs, args = { d.args with
      unsignEd := (d.value slot).natAbs
      result := d.leastDigits (d.value slot).natAbs } := ⟨_, rfl⟩
  have hprepared : d.Prepared args := by
    rw [hargs]
    exact ⟨rfl, rfl, fun _ => rfl⟩
  have hresult : args.result = d.leastDigits (d.value slot).natAbs := congrArg TArgs.result hargs
  rw [length_cText] at hlen
  rw [← hargs, cText_eq]
  by_cases hbase : d.conversion.base = 10
  · have hu := IntConversion.eq_u hunsigned hbase
    have hne : d.conversion ≠ .o := by simp [hu]
    have hdigits (c : UInt8) (hc : c ∈ d.leastDigits (d.value slot).natAbs) :=
      d.mem_leastDigits hc
    have hsign := d.manageSign_unsigned hunsigned hbase hprepared.spec hdigits hresult
    have hlead : d.lead (d.value slot) = [] := by simp [lead, hu, IntConversion.signed]
    rw [d.digits_of_ne_o hne, hlead] at hlen ⊢
    rw [ftWidth_numeric hprepared.spec hbase, ftNumeric_layout hprepared.width d.width_lt
      hprepared.zero hsign (by simp) (fun hn => (hdigits _ hn).2 rfl) (by omega), hprepared.minus]
  · have hhash : args.has MASK_HASH = d.has '#' := by rw [hprepared.has, args_has_hash]
    have hunsignEd : args.unsignEd = (d.value slot).natAbs := congrArg TArgs.unsignEd hargs
    have hprefix := d.getPrefix_layout hunsigned hprepared.spec hhash hunsignEd hresult
    have hp : args.spec ≠ 'p'.toUInt8 := hprepared.spec ▸ d.conversion.spec_other.2.2.1
    rw [ftWidth_alternate hprepared.spec hbase, ftAlternate_layout hprepared.width d.width_lt
      hprepared.zero hp (by omega), hprefix.2, hprepared.minus]

/-- **An unsigned conversion prints what C prints.** -/
lemma ftPrintPoubx_cText (slot : ℕ) (hlen : (d.cText slot).length < 2 ^ 31) (var : TVars)
    (va : List VaArg) :
    ftPrintPoubx d.args { var with typesList := .word slot :: va } =
      { var with typesList := va }.putstr (d.cText slot) := by
  by_cases hplain : d.args.plain = true
  · obtain ⟨hflags, -, hprecision⟩ := d.plain_spec hplain
    have hp : d.args.spec ≠ 'p'.toUInt8 := d.conversion.spec_other.2.2.1
    rw [ftPrintPoubx_putstr hp, if_pos hplain, if_neg (by omega), ftBase_eq hunsigned rfl,
      d.cText_plain hplain, d.lead_without_hash hunsigned (hflags '#' (by decide)),
      d.natAbs_value hunsigned slot]
    rfl
  · rw [d.ftPrintPoubx_ftWidth hunsigned hplain, d.ftWidth_unsigned hunsigned slot hlen]

end Unsigned

/-- The specifiers of the unsigned conversions. -/
lemma spec_unsigned (hunsigned : d.conversion.signed = false) :
    ftContains "id" d.args.spec = false ∧ ftContains "poubxX" d.args.spec = true := by
  show ftContains "id" d.conversion.spec = false ∧ ftContains "poubxX" d.conversion.spec = true
  simp [hunsigned]

/-- The conversion hands the text of the standard to `ft_putstr`. -/
lemma manageArgs_cText (slot : ℕ) (hlen : (d.cText slot).length < 2 ^ 31)
    (printF : TArgs → TVars → TVars) (var : TVars) (va : List VaArg) :
    manageArgs printF d.args { var with typesList := .word slot :: va } =
      { var with typesList := va }.putstr (d.cText slot) := by
  cases hsigned : d.conversion.signed with
  | true =>
    have hid : ftContains "id" d.args.spec = true := by
      show ftContains "id" d.conversion.spec = true
      simp [hsigned]
    rw [manageArgs_signed hid, d.ftPrintD_cText hsigned slot hlen]
  | false =>
    have hspec := d.spec_unsigned hsigned
    rw [manageArgs_unsigned hspec.1 hspec.2, d.ftPrintPoubx_cText hsigned slot hlen]

/-- Whatever the text is, it is handed over as one string. -/
lemma manageArgs_putstr (slot : ℕ) (printF : TArgs → TVars → TVars) :
    ∃ s, ∀ (var : TVars) (va : List VaArg),
      manageArgs printF d.args { var with typesList := .word slot :: va } =
        { var with typesList := va }.putstr s := by
  cases hsigned : d.conversion.signed with
  | true =>
    have hid : ftContains "id" d.args.spec = true := by
      show ftContains "id" d.conversion.spec = true
      simp [hsigned]
    exact ⟨_, fun var va => by rw [manageArgs_signed hid, ftPrintD_putstr]⟩
  | false =>
    have hp : d.args.spec ≠ 'p'.toUInt8 := d.conversion.spec_other.2.2.1
    have hspec := d.spec_unsigned hsigned
    exact ⟨_, fun var va => by rw [manageArgs_unsigned hspec.1 hspec.2, ftPrintPoubx_putstr hp]⟩

/-! ## The comparison -/

/-- `ft_printf` prints for a directive what C prints.  Wherever it stands, and whatever went before,
the directive takes its argument, the text of the standard is written and counted, and no subscript
leaves the range of `int`. -/
def PrintsAsC (slot : ℕ) : Prop :=
  ∀ (printF : TArgs → TVars → TVars) (rest : List UInt8) (var : TVars) (va : List VaArg),
    var.typesList = .word slot :: va →
      ftPrintfHelper printF 0 ('%'.toUInt8 :: (d.text ++ rest)) var =
        ftPrintfHelper printF 0 rest ({ var with typesList := va }.put (d.cText slot))

variable {d} in
/-- A text that is handed to `ft_putstr` is gone through with an `int`. -/
lemma PrintsAsC.length_lt {slot : ℕ} (h : d.PrintsAsC slot) : (d.cText slot).length < 2 ^ 31 := by
  have hrun := h (fun _ var => var) [] (initialVars [.word slot]) [] rfl
  obtain ⟨s, hs⟩ := d.manageArgs_putstr slot fun _ var => var
  have hputstr : (initialVars []).putstr s = (initialVars []).put (d.cText slot) := by
    rw [ftPrintfHelper_text, ftPrintfHelper_nil, ftPrintfHelper_nil] at hrun
    exact (hs (initialVars []) []).symm.trans hrun
  obtain rfl : s = d.cText slot := congrArg TVars.out hputstr
  have hmark : (false || decide (2 ^ 31 ≤ (d.cText slot).length)) = false :=
    congrArg TVars.tooLong hputstr
  rw [Bool.false_or, decide_eq_false_iff_not] at hmark
  exact not_le.mp hmark

/-- **The integer conversions are those of C** as long as the text is shorter than `2 ^ 31`. -/
theorem printsAsC_iff (slot : ℕ) : d.PrintsAsC slot ↔ (d.cText slot).length < 2 ^ 31 := by
  constructor
  · exact PrintsAsC.length_lt
  · intro hlen printF rest var va hva
    have hvar : var = { var with typesList := .word slot :: va } := by rw [← hva]
    rw [ftPrintfHelper_text, hvar, d.manageArgs_cText slot hlen, TVars.putstr_of_lt _ hlen]

/-! ## A text that is too long -/

/-- `%#.2147483647x`. -/
def longestHex : IntDirective where
  flags := cstr "#"
  width := []
  precision := some (cstr "2147483647")
  modifier := .absent
  conversion := .x
  flags_mem := forall_mem_of_all (by decide)
  width_digits := by simp
  width_head := by simp
  width_lt := by decide
  precision_digits := by
    rintro s ⟨⟩
    exact forall_mem_of_all (by decide)
  precision_lt := by decide

/-- The prefix and the digits of the precision, `2 ^ 31 + 1` characters. -/
lemma length_longestHex : (longestHex.cText 1).length = 2 ^ 31 + 1 := by
  have hprecision : (longestHex.precision.map decimalValue).getD 1 = 2 ^ 31 - 1 := by
    decide
  have hone := longestHex.length_numeral_value 1
  have hshort : 22 ≤ 2 ^ 31 - 1 := by norm_num
  have hdigits : (longestHex.digits (longestHex.value 1).natAbs).length = 2 ^ 31 - 1 := by
    rw [longestHex.digits_of_ne_o (by decide), leastDigits, hprecision, length_padLeft]
    exact max_eq_left (hone.trans hshort)
  have hlead : (longestHex.lead (longestHex.value 1)).length = 2 := rfl
  have hwidth : decimalValue longestHex.width = 0 := rfl
  rw [length_cText, hdigits, hlead, hwidth]
  norm_num

/-- `ft_printf("%#.2147483647x", 1)` does not print what C prints. -/
theorem not_printsAsC_longestHex : ¬longestHex.PrintsAsC 1 := by
  intro h
  have hlt := h.length_lt
  rw [length_longestHex] at hlt
  norm_num at hlt

end IntDirective

end FtNm
