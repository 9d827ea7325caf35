import Mathlib.Algebra.Order.Floor.Semifield
import FtNm.Properties.Support.FloatRounding

/-!
# The text of a floating-point number

`IsRounded x p text` says what `%.pf` has to print for the number `x`: a sign, the digits of an
integer, and a point with `p` more digits, which together write down the decimal number with `p`
places that is nearest to `x`, the one with an even last digit if there are two.

`printsRounded_iff` says when `ft_print_f` prints such a text.  There are three exceptions:

* for a number half-way between two decimals, `ft_fround` returns before it has cut the fraction,
  and `is_roundable` looks at the parity of the integer part only, which is right without a
  fraction;
* a precision that is the number of decimal places leaves a string without a terminator;
* the lengths have to be those of an `int`.
-/

namespace FtNm

open AccessLog Numeral Rounding

/-! ## The specification -/

/-- The number itself. -/
def FiniteNumber.value (x : FiniteNumber) : ℚ := if x.bits.sign then -x.magnitude else x.magnitude

/-- A point before the places behind it, if there are any. -/
def pointed : List UInt8 → List UInt8
  | [] => []
  | c :: cs => '.'.toUInt8 :: c :: cs

/-- A sign, an integer part and a fraction. -/
def textOf (sign : Bool) (int frac : List UInt8) : List UInt8 :=
  (if sign then cstr "-" else []) ++ (int ++ pointed frac)

/-- **Correct rounding.**  The text consists of digits, `p` of them behind the point, and the
number that it denotes is `x`, rounded to `p` places. -/
def IsRounded (x : FiniteNumber) (p : ℕ) (text : List UInt8) : Prop :=
  ∃ int frac, text = textOf x.bits.sign int frac ∧
    int ≠ [] ∧ decimal.IsDigits int ∧ decimal.IsDigits frac ∧ frac.length = p ∧
    IsRoundEven (x.value * 10 ^ p)
      (if x.bits.sign then -decimal.value (int ++ frac) else decimal.value (int ++ frac))

/-- The number of places that is asked for. -/
def places : Option Precision → ℕ
  | none => 6
  | some p => p.1

/-- The arguments of `%f` and of `%.pf`. -/
def floatArgs : Option Precision → TArgs
  | none => (getPrecision (cstr "f") { initializeArgs with spec := 'f'.toUInt8 } []).1
  | some p => { initializeArgs with spec := 'f'.toUInt8, precision := p.1 }

/-- `ft_print_f` prints a text that is correctly rounded. -/
def PrintsRounded (x : FiniteNumber) (p : Option Precision) : Prop :=
  ∃ text, IsRounded x (places p) text ∧
    ∀ var, (ftPrintFloat (floatArgs p) x.bits var).out = .ok (var.putstr text)

/-- Inside the expansion the number is not half-way between two decimals, unless it is between
two integers; beyond the expansion the fraction can be extended, and the whole text can be
counted. -/
def FiniteNumber.Printable (x : FiniteNumber) (p : ℕ) : Prop :=
  p < x.fractLength ∧ (p = 0 ∨ ¬HalfWay (x.magnitude * 10 ^ p)) ∨
  x.fractLength < p ∧ x.fractLength + p + 1 < 2 ^ 31 ∧
    (if x.bits.sign then 1 else 0) + (decimal.canonical ⌊x.magnitude⌋₊).length + 1 + p < 2 ^ 31

lemma floatArgs_eq (p : Option Precision) :
    floatArgs p = { initializeArgs with spec := 'f'.toUInt8, precision := places p } := by
  cases p <;> rfl

/-! ## Reading a text -/

lemma pointed_injective : Function.Injective pointed := by
  have hinverse : Function.LeftInverse List.tail pointed := by
    intro frac
    cases frac <;> rfl
  exact hinverse.injective

lemma length_pointed {frac : List UInt8} (h : frac ≠ []) :
    (pointed frac).length = 1 + frac.length := by
  cases frac with
  | nil => exact absurd rfl h
  | cons c cs => rw [pointed, List.length_cons, Nat.add_comm]

/-- The places behind the point can be read off the text. -/
lemma frac_of_textOf {sign : Bool} {int frac int' frac' : List UInt8}
    (hint : decimal.IsDigits int) (hint' : decimal.IsDigits int')
    (h : textOf sign int frac = textOf sign int' frac') : frac = frac' := by
  have hstrip {int : List UInt8} (frac : List UInt8) (hint : decimal.IsDigits int) :
      (int ++ pointed frac).dropWhile (· ≠ '.'.toUInt8) = pointed frac := by
    have hdigits : ∀ c ∈ int, decide (c ≠ '.'.toUInt8) = true := by
      intro c hc
      have hdigit := decimal_isDigit_iff.mp (hint c hc)
      rw [decide_eq_true_iff]
      rintro rfl
      exact absurd hdigit (by decide)
    rw [List.dropWhile_append_of_pos hdigits]
    cases frac with
    | nil => rfl
    | cons c cs => exact List.dropWhile_cons_of_neg (by simp)
  have hrest := congrArg (List.dropWhile (· ≠ '.'.toUInt8)) (List.append_cancel_left h)
  rw [hstrip frac hint, hstrip frac' hint'] at hrest
  exact pointed_injective hrest

/-! ## What is printed -/

/-- The text that is made of two parts. -/
def printed (sign : Bool) (p : ℕ) (parts : FloatParts) : List UInt8 :=
  textOf sign parts.decimal (if p = 0 then [] else parts.fract)

lemma ftStrjoin_eq_some {s1 s2 s : List UInt8} (h : ftStrjoin s1 s2 = some s) : s = s1 ++ s2 := by
  rw [ftStrjoin, Option.ite_none_right_eq_some] at h
  exact (Option.some.inj h.2).symm

lemma ftStrdup_eq_some {s t : List UInt8} (h : ftStrdup s = some t) : t = s := by
  rw [ftStrdup, Option.ite_none_right_eq_some] at h
  exact (Option.some.inj h.2).symm

section Join

variable {p : ℕ} {sign : Bool} {parts : FloatParts}

/-- The two parts with the point between them. -/
def joinBody (p : ℕ) (parts : FloatParts) : Option (List UInt8) :=
  if p = 0 then ftStrdup parts.decimal
  else (ftStrjoin parts.decimal (cstr ".")).bind fun mantiss => ftStrjoin mantiss parts.fract

lemma joinDotToDecimal_eq (p : ℕ) (sign : Bool) (parts : FloatParts) :
    joinDotToDecimal false p sign parts = (joinBody p parts).bind fun mantiss =>
      if sign then ftStrjoin (cstr "-") mantiss else some mantiss := by
  have hcond : (false = true ∨ (p : ℤ) ≠ 0) ↔ ¬p = 0 := by simp
  simp only [joinDotToDecimal, joinBody, hcond]
  split_ifs <;> rfl

/-- The text behind the sign. -/
lemma pointed_fract (hfract : parts.fract ≠ []) :
    parts.decimal ++ cstr "." ++ parts.fract = parts.decimal ++ pointed parts.fract := by
  obtain ⟨c, cs, hcs⟩ := List.exists_cons_of_ne_nil hfract
  rw [hcs, List.append_assoc]
  rfl

lemma printed_eq (hfract : p ≠ 0 → parts.fract ≠ []) :
    printed sign p parts = (if sign then cstr "-" else []) ++
      if p = 0 then parts.decimal else parts.decimal ++ cstr "." ++ parts.fract := by
  by_cases hp : p = 0
  · rw [printed, textOf, if_pos hp, if_pos hp, pointed, List.append_nil]
  · rw [printed, textOf, if_neg hp, if_neg hp, pointed_fract (hfract hp)]

/-- Where `join_dot_to_decimal` has a result, it is the text. -/
lemma joinDotToDecimal_eq_some {text : List UInt8} (hfract : p ≠ 0 → parts.fract ≠ [])
    (h : joinDotToDecimal false p sign parts = some text) : text = printed sign p parts := by
  rw [joinDotToDecimal_eq, Option.bind_eq_some_iff] at h
  obtain ⟨mantiss, hbody, hsign⟩ := h
  have hmantiss : mantiss =
      if p = 0 then parts.decimal else parts.decimal ++ cstr "." ++ parts.fract := by
    unfold joinBody at hbody
    split_ifs at hbody ⊢ with hp
    · exact ftStrdup_eq_some hbody
    · obtain ⟨front, hfront, hall⟩ := Option.bind_eq_some_iff.mp hbody
      rw [ftStrjoin_eq_some hall, ftStrjoin_eq_some hfront]
  rw [printed_eq hfract, ← hmantiss]
  split_ifs at hsign ⊢
  · exact ftStrjoin_eq_some hsign
  · exact (Option.some.inj hsign).symm

/-- `join_dot_to_decimal` has a result if the text is not too long. -/
lemma joinDotToDecimal_of_lt (hfract : p ≠ 0 → parts.fract ≠ [])
    (h : (printed sign p parts).length < 2 ^ 31) :
    joinDotToDecimal false p sign parts = some (printed sign p parts) := by
  rw [printed_eq hfract, List.length_append] at h
  have hlt := (Nat.le_add_left _ _).trans_lt h
  have hbody : joinBody p parts = some
      (if p = 0 then parts.decimal else parts.decimal ++ cstr "." ++ parts.fract) := by
    unfold joinBody
    split_ifs at hlt ⊢ with hp
    · exact ftStrdup_of_lt hlt
    · rw [List.length_append] at hlt
      have hfront := (Nat.le_add_right _ _).trans_lt hlt
      have hpart := hfront
      rw [List.length_append] at hpart
      rw [ftStrjoin_of_lt ((Nat.le_add_right _ _).trans_lt hpart) (by decide)]
      exact ftStrjoin_of_lt hfront ((Nat.le_add_left _ _).trans_lt hlt)
  rw [joinDotToDecimal_eq, hbody, printed_eq hfract, Option.bind_some]
  cases sign with
  | true => exact ftStrjoin_of_lt (by decide) hlt
  | false => rfl

end Join

/-! ## The run -/

section Width

variable {args : TArgs}

lemma has_of_flag (h : args.flag = 0) (mask : ℕ) : args.has mask = false := by
  rw [TArgs.has, h, Nat.zero_and]
  rfl

lemma manageSign_of_flag (h : args.flag = 0) (sign : Bool) :
    manageSign args sign = (args, sign) := by
  cases sign <;> simp [manageSign, has_of_flag h]

/-- Without width and flags, only a length that is no `int` makes a difference. -/
lemma ftNumeric_of_flag (h : args.flag = 0) (hwidth : args.width = 0) :
    (ftNumeric args).result =
      if 0 > int32 args.result.length then
        padd args.result (int32 (0 - int32 args.result.length)) ' ' true
      else args.result := by
  simp only [ftNumeric, manageSign_of_flag h, has_of_flag h, hwidth, Bool.false_eq_true,
    false_and, if_false]
  split_ifs <;> rfl

lemma ftNumeric_of_lt (h : args.flag = 0) (hwidth : args.width = 0)
    (hlt : args.result.length < 2 ^ 31) : (ftNumeric args).result = args.result := by
  rw [ftNumeric_of_flag h hwidth, int32_of_mem (by omega) (by omega), if_neg (by omega)]

end Width

/-- What has been written tells what was printed. -/
lemma putstr_inj {var : TVars} {s t : List UInt8} (h : var.putstr s = var.putstr t) : s = t :=
  List.append_cancel_left (congrArg TVars.out h)

section Run

variable (x : FiniteNumber) (p : Option Precision)

/-- What `ft_print_f` has to print. -/
def FiniteNumber.text (p : ℕ) : List UInt8 := printed x.bits.sign p (x.roundedParts p)

lemma fract_roundedParts_ne {p : ℕ} (hp : p ≠ 0) : (x.roundedParts p).fract ≠ [] := by
  apply List.ne_nil_of_length_pos
  rw [FiniteNumber.roundedParts]
  split_ifs
  · have hlength := x.length_exactParts_fract
    have hplaces := x.fractLength_ge
    show 0 < x.exactParts.fract.length
    omega
  · exact (Nat.pos_of_ne_zero hp).trans_le (decimal.le_length_padded p _)

lemma places_lt : places p < 2 ^ 31 := by
  cases p with
  | none => norm_num [places]
  | some p => exact p.2

lemma flag_floatArgs : (floatArgs p).flag = 0 := by
  rw [floatArgs_eq]
  rfl

/-- The text comes from the rounded parts, if there are any. -/
lemma floatText_out :
    (floatText (floatArgs p) x.bits).out =
      if x.Extends (places p) then
        (defined (joinDotToDecimal false (places p) x.bits.sign
          (x.roundedParts (places p)))).out
      else .error .undefined := by
  have hprecision : (floatArgs p).precision = places p := by rw [floatArgs_eq]
  obtain ⟨-, parts, hparts, rfl⟩ := splitFloatParts_finishes (P := fun _ => True)
    (fun _ => trivial) x (fun _ _ _ => trivial) (places p)
  rw [floatText, if_neg x.finite.ne, hprecision, has_of_flag (flag_floatArgs p),
    Run.out_bind_of_ok hparts]
  split_ifs with hext
  · obtain ⟨-, parts, hrounded, rfl⟩ :=
      x.ftFround_splitParts_finishes (P := fun _ => True) (fun _ _ => trivial) hext
    rw [Run.out_bind_of_ok hrounded]
  · exact Run.out_bind_of_error (x.ftFround_splitParts_breaks (places_lt p) hext).2 _

/-- The end of `ft_print_f`. -/
lemma putstrRun_floatArgs (text : List UInt8) (var : TVars) :
    (putstrRun var (ftWidth { floatArgs p with result := text }).result).out =
      if text.length < 2 ^ 31 then .ok (var.putstr text) else .error .undefined := by
  obtain ⟨args, hargs⟩ : ∃ args, args = { floatArgs p with result := text } := ⟨_, rfl⟩
  have hflag : args.flag = 0 := by
    rw [hargs]
    exact flag_floatArgs p
  have hwidth : args.width = 0 := by
    rw [hargs, floatArgs_eq]
    rfl
  have hresult : args.result = text := by rw [hargs]
  have hnumeric : ftWidth args = ftNumeric args := by
    rw [hargs, floatArgs_eq]
    rfl
  rw [← hargs, hnumeric, putstrRun]
  split_ifs with hshort hlt hlt
  · rw [ftNumeric_of_lt hflag hwidth (hresult.symm ▸ hlt), hresult]
    rfl
  · have hlong := length_le_ftNumeric args
    rw [hresult] at hlong
    exact absurd (hlong.trans_lt hshort) hlt
  · rw [ftNumeric_of_lt hflag hwidth (hresult.symm ▸ hlt), hresult] at hshort
    exact absurd hlt hshort
  · rfl

/-- `ft_print_f` prints the text or stops. -/
lemma ftPrintFloat_out (var : TVars) :
    (ftPrintFloat (floatArgs p) x.bits var).out =
      if x.Extends (places p) ∧ (x.text (places p)).length < 2 ^ 31 then
        .ok (var.putstr (x.text (places p)))
      else .error .undefined := by
  have htext := floatText_out x p
  have hfract := fract_roundedParts_ne x (p := places p)
  by_cases hext : x.Extends (places p)
  · rw [if_pos hext] at htext
    rcases hjoin : joinDotToDecimal false (places p) x.bits.sign
      (x.roundedParts (places p)) with - | text
    · have hlong : ¬(x.text (places p)).length < 2 ^ 31 := fun hlt => by
        rw [joinDotToDecimal_of_lt hfract hlt] at hjoin
        cases hjoin
      rw [hjoin] at htext
      rw [if_neg fun h => hlong h.2]
      exact Run.out_bind_of_error htext _
    · have hprinted : text = x.text (places p) := joinDotToDecimal_eq_some hfract hjoin
      rw [hjoin, hprinted] at htext
      rw [ftPrintFloat, Run.out_bind_of_ok htext]
      simp only [putstrRun_floatArgs, hext, true_and]
  · rw [if_neg hext] at htext
    rw [if_neg fun h => hext h.1]
    exact Run.out_bind_of_error htext _

end Run

/-- What is printed here is what `ft_print_f` prints when it is handed the text, and takes its
argument from the list. -/
lemma ftPrintF_of_ftPrintFloat {args : TArgs} {bits : FloatBits} {var var' : TVars}
    (h : (ftPrintFloat args bits var).out = .ok var') (slot : ℕ) :
    ∃ text, (floatText args bits).out = .ok text ∧
      ftPrintF (fun _ _ => text) args { var with typesList := .word slot :: var.typesList } =
        var' := by
  obtain ⟨text, htext, hputstr⟩ := Run.out_bind_eq_ok.mp h
  refine ⟨text, htext, ?_⟩
  rw [putstrRun] at hputstr
  split_ifs at hputstr
  · exact Except.ok.inj hputstr
  · cases hputstr

/-! ## Rounding -/

section Rounded

variable (x : FiniteNumber) {p : ℕ}

/-- The digits of a number with `p` places. -/
lemma value_cutParts (p D : ℕ) :
    decimal.value ((cutParts p D).decimal ++ (cutParts p D).fract) = D := by
  have hsplit := decimal.padded_add 1 p D
  have hvalue := decimal.value_padded (1 + p) D
  rw [hsplit] at hvalue
  exact hvalue

/-- The rounded number, with its sign. -/
lemma isRoundEven_value {D : ℕ} (h : IsRoundEven (x.magnitude * 10 ^ p) D) :
    IsRoundEven (x.value * 10 ^ p) (if x.bits.sign then -(D : ℤ) else D) := by
  rw [FiniteNumber.value]
  split_ifs
  · rw [neg_mul]
    exact h.neg
  · exact h

/-- Away from the half-way points the text is right. -/
lemma isRounded_of_not_isTie (h : ¬x.IsTie p) : IsRounded x p (x.text p) := by
  have hlength : (cutParts p (x.rounded p)).fract.length = p :=
    decimal.length_padded_of_lt (Nat.mod_lt _ (Nat.pow_pos decimal.base_pos))
  have hfract : (if p = 0 then [] else (cutParts p (x.rounded p)).fract) =
      (cutParts p (x.rounded p)).fract := by
    split_ifs with hp
    · rw [hp] at hlength
      rw [hp, List.length_eq_zero_iff.mp hlength]
    · rfl
  refine ⟨(cutParts p (x.rounded p)).decimal, (cutParts p (x.rounded p)).fract, ?_,
    Alphabet.canonical_ne_nil _, decimal.isDigits_padded _ _, decimal.isDigits_padded _ _,
    hlength, ?_⟩
  · rw [FiniteNumber.text, FiniteNumber.roundedParts, if_neg h, printed, hfract]
  · rw [value_cutParts]
    exact isRoundEven_value x (x.isRoundEven_rounded p)

/-- Half-way between two integers, it is the even one. -/
lemma isRounded_of_zero (h : x.IsTie 0) : IsRounded x 0 (x.text 0) := by
  have heven : x.expansion / 10 ^ x.fractLength + x.expansion / 10 ^ x.fractLength % 2 =
      x.rounded 0 := by
    rw [FiniteNumber.IsTie, pow_zero, Nat.mul_one] at h
    rw [FiniteNumber.rounded, pow_zero, Nat.mul_one, roundEven_of_half h]
  refine ⟨decimal.canonical (x.rounded 0), [], ?_, Alphabet.canonical_ne_nil _,
    decimal.isDigits_padded _ _, decimal.isDigits_nil, rfl, ?_⟩
  · rw [FiniteNumber.text, FiniteNumber.roundedParts, if_pos h, heven, printed, if_pos rfl]
  · have hvalue := isRoundEven_value x (x.isRoundEven_rounded 0)
    rw [List.append_nil, Alphabet.canonical, Alphabet.value_padded]
    exact hvalue

/-- Half-way between two decimals, the fraction is left uncut. -/
lemma not_isRounded_of_isTie (hp : p ≠ 0) (h : x.IsTie p) : ¬IsRounded x p (x.text p) := by
  rintro ⟨int, frac, htext, -, hint, -, hlength, -⟩
  rw [FiniteNumber.text, FiniteNumber.roundedParts, if_pos h, printed, if_neg hp] at htext
  have hfrac := frac_of_textOf (decimal.isDigits_padded _ _) hint htext
  have hplaces := x.length_exactParts_fract
  refine x.not_isTie_of_le ?_ h
  rw [← hplaces, ← hlength, ← hfrac]

/-- Whether the text is right. -/
lemma isRounded_text_iff : IsRounded x p (x.text p) ↔ p = 0 ∨ ¬x.IsTie p := by
  constructor
  · intro h
    by_contra hnot
    rw [not_or, not_not] at hnot
    exact not_isRounded_of_isTie x hnot.1 hnot.2 h
  · intro h
    by_cases htie : x.IsTie p
    · obtain rfl := h.resolve_right (not_not.mpr htie)
      exact isRounded_of_zero x htie
    · exact isRounded_of_not_isTie x htie

lemma printsRounded_iff_text (p : Option Precision) :
    PrintsRounded x p ↔ (x.Extends (places p) ∧ (x.text (places p)).length < 2 ^ 31) ∧
      (places p = 0 ∨ ¬x.IsTie (places p)) := by
  rw [← isRounded_text_iff]
  constructor
  · rintro ⟨text, hrounded, hprints⟩
    have hout := hprints (initialVars [])
    rw [ftPrintFloat_out] at hout
    split_ifs at hout with hruns
    rw [← putstr_inj (Except.ok.inj hout)] at hrounded
    exact ⟨hruns, hrounded⟩
  · rintro ⟨hruns, hrounded⟩
    refine ⟨_, hrounded, fun var => ?_⟩
    rw [ftPrintFloat_out, if_pos hruns]

end Rounded

/-! ## Lengths -/

section Length

variable (x : FiniteNumber) {p : ℕ}

lemma length_text (p : ℕ) :
    (x.text p).length = (if x.bits.sign then 1 else 0) + ((x.roundedParts p).decimal.length +
      if p = 0 then 0 else 1 + (x.roundedParts p).fract.length) := by
  have hsign : (if x.bits.sign then cstr "-" else []).length = if x.bits.sign then 1 else 0 := by
    split_ifs <;> rfl
  rw [FiniteNumber.text, printed, textOf, List.length_append, List.length_append, hsign]
  congr 2
  split_ifs with hp
  · rfl
  · exact length_pointed (fract_roundedParts_ne x hp)

/-- The integer part is not longer than the expansion, but for a carry. -/
lemma length_canonical_le {n : ℕ} (h : n ≤ x.expansion + 1) :
    (decimal.canonical n).length ≤ 2 ^ 15 := by
  have hlt := (isDigits_numeral x.expansion).value_lt
  have hcount := x.digitCount_expansion
  have hgrow : digitCount (x.expansion + 1) ≤ digitCount x.expansion + 1 := by
    rw [value_numeral, decimal_base] at hlt
    exact digitCount_le ((Nat.succ_le_of_lt hlt).trans_lt
      (Nat.pow_lt_pow_right (by norm_num) (Nat.lt_succ_self _)))
  have hmono : (numeral decimal.base decimal.digit n).length ≤ digitCount (x.expansion + 1) :=
    decimal.length_numeral_mono h
  rw [Alphabet.canonical, Alphabet.padded, length_padLeft]
  exact max_le (by norm_num) (hmono.trans (hgrow.trans hcount))

/-- Inside the expansion, a text is short. -/
lemma length_text_of_lt (h : p < x.fractLength) : (x.text p).length < 2 ^ 31 := by
  have hplaces := x.fractLength_lt
  have hparts : (x.roundedParts p).decimal.length ≤ 2 ^ 15 ∧
      (x.roundedParts p).fract.length ≤ 2 ^ 15 := by
    rw [FiniteNumber.roundedParts]
    split_ifs with htie
    · have hdiv := Nat.div_le_self x.expansion (10 ^ x.fractLength)
      have hfract := x.length_exactParts_fract
      have hdecimal := length_canonical_le x
        (show x.expansion / 10 ^ x.fractLength + x.expansion / 10 ^ x.fractLength % 2 ≤
          x.expansion + 1 by omega)
      exact ⟨hdecimal, by show x.exactParts.fract.length ≤ 2 ^ 15; omega⟩
    · have hrounded : x.rounded p ≤ x.expansion + 1 := by
        refine (roundEven_le _ _).trans (Nat.succ_le_succ (Nat.div_le_of_le_mul ?_))
        rw [Nat.mul_comm]
        exact Nat.mul_le_mul_right _ (Nat.pow_le_pow_right (by norm_num) h.le)
      have hfract : (cutParts p (x.rounded p)).fract.length = p :=
        decimal.length_padded_of_lt (Nat.mod_lt _ (Nat.pow_pos decimal.base_pos))
      exact ⟨length_canonical_le x ((Nat.div_le_self _ _).trans hrounded), by omega⟩
  obtain ⟨hdecimal, hfract⟩ := hparts
  rw [length_text]
  split_ifs <;> omega

/-- Beyond the expansion, the integer part is what it was. -/
lemma length_text_of_gt (h : x.fractLength < p) :
    (x.text p).length =
      (if x.bits.sign then 1 else 0) + (decimal.canonical ⌊x.magnitude⌋₊).length + 1 + p := by
  have hfloor : ⌊x.magnitude⌋₊ = x.rounded p / 10 ^ p := by
    have hcast : x.magnitude = (x.expansion : ℚ) / (10 ^ x.fractLength : ℕ) := by
      rw [x.magnitude_eq]
      push_cast
      rfl
    rw [hcast, Nat.floor_div_eq_div, x.rounded_of_le h.le, ← pow_sub_mul_pow 10 h.le,
      Nat.mul_comm x.expansion, Nat.mul_div_mul_left _ _ (by positivity)]
  have hfract : (cutParts p (x.rounded p)).fract.length = p :=
    decimal.length_padded_of_lt (Nat.mod_lt _ (Nat.pow_pos decimal.base_pos))
  have hdecimal : (cutParts p (x.rounded p)).decimal = decimal.canonical (x.rounded p / 10 ^ p) :=
    rfl
  have hp : p ≠ 0 := Nat.ne_zero_of_lt h
  rw [length_text, FiniteNumber.roundedParts, if_neg (x.not_isTie_of_le h.le), hfract, if_neg hp,
    hfloor, hdecimal]
  omega

end Length

/-- **Rounding.**  The text that is printed for a number and a precision is the one that is
correctly rounded, exactly when the precision is inside the expansion and no half-way point is
met with a fraction, or it is beyond the expansion and the lengths are those of an `int`. -/
theorem printsRounded_iff (x : FiniteNumber) (p : Option Precision) :
    PrintsRounded x p ↔ x.Printable (places p) := by
  rw [printsRounded_iff_text, FiniteNumber.Printable, FiniteNumber.Extends,
    FiniteNumber.halfWay_iff_isTie]
  constructor
  · rintro ⟨⟨hlt | ⟨hgt, hint⟩, hlength⟩, htie⟩
    · exact .inl ⟨hlt, htie⟩
    · rw [length_text_of_gt x hgt] at hlength
      exact .inr ⟨hgt, hint, hlength⟩
  · rintro (⟨hlt, htie⟩ | ⟨hgt, hint, hlength⟩)
    · exact ⟨⟨.inl hlt, length_text_of_lt x hlt⟩, htie⟩
    · rw [← length_text_of_gt x hgt] at hlength
      exact ⟨⟨.inr ⟨hgt, hint⟩, hlength⟩, .inr (x.not_isTie_of_le hgt.le)⟩

/-- One eighth. -/
def FiniteNumber.eighth : FiniteNumber where
  bits := ⟨0, true, 16380, false, zero_mantissa_lt, by norm_num⟩
  finite := by norm_num
  normal := .inl rfl

/-- `printf("%.2f", 0.125)` prints all of the digits. -/
theorem not_printsRounded_eighth : ¬PrintsRounded .eighth (some (.ofFin 2)) := by
  rw [printsRounded_iff_text]
  rintro ⟨-, hzero | htie⟩
  · exact absurd hzero two_ne_zero
  · refine htie ?_
    norm_num [FiniteNumber.IsTie, FiniteNumber.expansion, FiniteNumber.significand,
      FiniteNumber.fractLength, FiniteNumber.eighth, places, Precision.ofFin]

end FtNm
