import FtNm.Properties.RoundedText
import FtNm.Properties.Support.TextDirectives

/-!
# The flags of `%f`

A directive with the conversion `f` and any flags, width and precision of the grammar, against what
is written: the sign or its stand-in in front, the digits, and the width filled up around them.
`FloatValue` is a `double`, or a `long double` that is normalised; infinities and NaN have words for
digits, and the flag `0` fills up with blanks in front of them.

Two things are as the code has them.  A NaN gets neither `+` nor a space, since `manage_sign` asks
for `is_nan`, and under `#` a precision of zero keeps the point together with what is left of the
fraction.
-/

namespace FtNm

open AccessLog

/-! ## Values -/

/-- What a floating-point argument may be: any `double`, and any `long double` but those with
neither the integer bit nor the value zero. -/
inductive FloatValue
  | finite (x : FiniteNumber)
  | infinity (negative : Bool)
  | nan

namespace FloatValue

/-- The bits stand for a value. -/
def Represents (bits : FloatBits) : FloatValue → Prop
  | .finite x => bits = x.bits
  | .infinity negative =>
    bits.exponent = 2 ^ 15 - 1 ∧ bits.mantissa = 0 ∧ bits.sign = negative
  | .nan => bits.exponent = 2 ^ 15 - 1 ∧ bits.mantissa ≠ 0

/-- Whether there are digits. -/
def isFinite : FloatValue → Bool
  | .finite _ => true
  | _ => false

/-- Whether it is written with a `-`. -/
def negative : FloatValue → Bool
  | .finite x => x.bits.sign
  | .infinity negative => negative
  | .nan => false

/-- What is written behind the sign, for `p` places. -/
def body (hash : Bool) (p : ℕ) : FloatValue → List UInt8
  | .finite x => (x.roundedParts p).decimal ++
      if hash ∨ p ≠ 0 then cstr "." ++ (x.roundedParts p).fract else []
  | .infinity _ => cstr "inf"
  | .nan => cstr "nan"

/-- The places can be had: the precision is not the number of places that there are, and the
fraction can be extended to it. -/
def Rounds (p : ℕ) : FloatValue → Prop
  | .finite x => x.Extends p
  | _ => True

/-- A value with its `-`, if it has one. -/
def text (hash : Bool) (p : ℕ) (value : FloatValue) : List UInt8 :=
  (if value.negative then cstr "-" else []) ++ value.body hash p

end FloatValue

namespace Directive

variable (d : Directive)

/-- The number of places that a directive asks for, six unless it has a precision. -/
def floatPlaces : ℕ := ((d.digits 0).getD 6).toNat

/-- The sign of a number, or what the flags ask for in its place. -/
def signLead (negative : Bool) : List UInt8 :=
  if negative then cstr "-"
  else if d.has '+' then cstr "+"
  else if d.has ' ' then cstr " "
  else []

/-- What comes in front of the digits. -/
def floatLead : FloatValue → List UInt8
  | .finite x => d.signLead x.bits.sign
  | .infinity negative => d.signLead negative
  | .nan => []

/-- The text of a value, where a width of stars is `w`. -/
def floatShown (w : ℤ) (value : FloatValue) : List UInt8 :=
  layout (d.left w) (d.has '0' && value.isFinite) (d.width.value w).natAbs (d.floatLead value)
    (value.body (d.has '#') d.floatPlaces)

end Directive

/-! ## The text without its padding -/

lemma isDigits_roundedParts (x : FiniteNumber) (p : ℕ) :
    decimal.IsDigits (x.roundedParts p).decimal ∧ decimal.IsDigits (x.roundedParts p).fract := by
  rw [FiniteNumber.roundedParts]
  split_ifs <;> exact ⟨decimal.isDigits_padded _ _, decimal.isDigits_padded _ _⟩

/-- The digits of a number are none of the letters of a word, and no sign. -/
lemma mem_body_finite {x : FiniteNumber} {hash : Bool} {p : ℕ} {c : UInt8}
    (hc : c ∈ (FloatValue.finite x).body hash p) : c ≠ '-'.toUInt8 ∧ c ≠ 'n'.toUInt8 := by
  have hdigits : ∀ c ∈ cstr "0123456789.", c ≠ '-'.toUInt8 ∧ c ≠ 'n'.toUInt8 :=
    forall_mem_of_all (by decide)
  have hnumber (s : List UInt8) (hs : decimal.IsDigits s) (hmem : c ∈ s) :
      c ∈ cstr "0123456789." := by
    have hsplit : cstr "0123456789." = cstr "0123456789" ++ cstr "." := rfl
    rw [hsplit]
    exact List.mem_append_left _ (decimal_isDigit_iff.mp (hs c hmem))
  obtain ⟨hdecimal, hfract⟩ := isDigits_roundedParts x p
  refine hdigits c ?_
  rcases List.mem_append.mp hc with hmem | hmem
  · exact hnumber _ hdecimal hmem
  · split_ifs at hmem
    · rcases List.mem_append.mp hmem with hpoint | hmem
      · rw [List.mem_singleton.mp hpoint]
        decide
      · exact hnumber _ hfract hmem
    · exact absurd hmem List.not_mem_nil

/-- `join_dot_to_decimal`, with or without the flag `#`. -/
lemma joinDotToDecimal_text {hash sign : Bool} {p : ℕ} {parts : FloatParts} {body : List UInt8}
    (hbody : body = parts.decimal ++ if hash ∨ p ≠ 0 then cstr "." ++ parts.fract else [])
    (hlen : body.length < 2 ^ 31) :
    joinDotToDecimal hash p sign parts = some ((if sign then cstr "-" else []) ++ body) := by
  have hsign : (if sign then ftStrjoin (cstr "-") body else some body) =
      some ((if sign then cstr "-" else []) ++ body) := by
    cases sign with
    | true => exact ftStrjoin_of_lt (by decide) hlen
    | false => rfl
  have hplaces : ((p : ℤ) ≠ 0) = (p ≠ 0) := by simp
  unfold joinDotToDecimal
  simp only [hplaces]
  split_ifs at hbody with hcond
  · rw [hbody, List.length_append, List.length_append] at hlen
    have hfront : ftStrjoin parts.decimal (cstr ".") = some (parts.decimal ++ cstr ".") :=
      ftStrjoin_of_lt (by omega) (by decide)
    have hall : ftStrjoin (parts.decimal ++ cstr ".") parts.fract = some body := by
      rw [hbody, ← List.append_assoc]
      exact ftStrjoin_of_lt (by rw [List.length_append]; omega) (by omega)
    simp only [if_pos hcond, hfront, Option.bind_eq_bind, Option.bind_some, hall]
    exact hsign
  · rw [List.append_nil] at hbody
    have hdup : ftStrdup parts.decimal = some body := hbody ▸ ftStrdup_of_lt (hbody ▸ hlen)
    simp only [if_neg hcond, hdup, Option.bind_eq_bind, Option.bind_some]
    exact hsign

/-- `ft_print_f` has the text of the value ready. -/
lemma floatText_value {value : FloatValue} {bits : FloatBits} (h : value.Represents bits)
    {args : TArgs} {p : ℕ} (hprecision : args.precision = p) (hrounds : value.Rounds p)
    (hlen : (value.body (args.has MASK_HASH) p).length < 2 ^ 31) :
    (floatText args bits).out = .ok (value.text (args.has MASK_HASH) p) := by
  unfold floatText
  cases value with
  | finite x =>
    obtain rfl : bits = x.bits := h
    have hjoin : joinDotToDecimal (args.has MASK_HASH) p x.bits.sign (x.roundedParts p) = _ :=
      joinDotToDecimal_text rfl hlen
    obtain ⟨-, parts, hparts, rfl⟩ := splitFloatParts_finishes (P := fun _ => True)
      (fun _ => trivial) x (fun _ _ _ => trivial) p
    obtain ⟨-, parts, hrounded, rfl⟩ :=
      x.ftFround_splitParts_finishes (P := fun _ => True) (fun _ _ => trivial) hrounds
    rw [if_neg x.finite.ne, hprecision, Run.out_bind_of_ok hparts, Run.out_bind_of_ok hrounded,
      hjoin]
    rfl
  | infinity negative =>
    obtain ⟨hexponent, hmantissa, rfl⟩ := h
    rw [if_pos hexponent, if_neg (not_not.mpr hmantissa)]
    cases bits.sign <;> rfl
  | nan =>
    obtain ⟨hexponent, hmantissa⟩ := h
    rw [if_pos hexponent, if_pos hmantissa]
    rfl

/-! ## The padding -/

/-- The words are padded with blanks, whatever the flags. -/
lemma ftNumeric_word {args : TArgs} {w : ℕ} (hwidth : args.width = w) (hw : w < 2 ^ 31)
    {lead digits : List UInt8} {sign : Bool}
    (hsign : manageSign args (args.result.head? = some '-'.toUInt8) =
      ({ args with result := lead ++ digits }, sign))
    (hword : isNan { args with result := lead ++ digits } = true ∨
      isInf { args with result := lead ++ digits } = true)
    (hlen : (lead ++ digits).length < 2 ^ 31) :
    (ftNumeric args).result = layout (args.has MASK_MINUS) false w lead digits := by
  have hint : int32 (lead ++ digits).length = (lead ++ digits).length :=
    int32_of_mem (by omega) (by exact_mod_cast hlen)
  have hpad := padd_fill (lead ++ digits) hw hlen
  have hhas (mask : ℕ) :
      ({ args with result := lead ++ digits } : TArgs).has mask = args.has mask := rfl
  have hzero : ¬(args.has MASK_ZERO = true ∧
      (!isNan { args with result := lead ++ digits }) = true ∧
        (!isInf { args with result := lead ++ digits }) = true) := by
    rintro ⟨-, hnan, hinf⟩
    rcases hword with h | h
    · rw [h] at hnan
      cases hnan
    · rw [h] at hinf
      cases hinf
  unfold ftNumeric
  rw [hsign]
  dsimp only
  simp only [hhas]
  rw [hint, if_neg hzero, hwidth]
  by_cases hgt : (w : ℤ) > (lead ++ digits).length
  · rw [if_pos hgt, hpad, hpad]
    unfold layout
    rw [List.length_append]
    cases args.has MASK_MINUS <;> simp
  · rw [List.length_append] at hgt
    rw [if_neg (by rw [List.length_append]; exact hgt), layout_fill (by omega)]

section Width

variable {d : Directive} {w : ℤ} {args : TArgs} (hspec : args.spec = 'f'.toUInt8)
  (hplus : args.has MASK_PLUS = d.has '+')
  (hspace : args.has MASK_SPACE = (d.has ' ' && !d.has '+'))

include hspec hplus hspace

/-- `manage_sign` on a text without a sign. -/
lemma manageSign_plain {s : List UInt8} (hresult : args.result = s)
    (hhead : s.head? ≠ some '-'.toUInt8) {lead : List UInt8}
    (hlead : lead = if isNan args then [] else if d.has '+' then cstr "+"
      else if d.has ' ' then cstr " " else []) :
    manageSign args (args.result.head? = some '-'.toUInt8) =
      ({ args with result := lead ++ s }, !lead.isEmpty) := by
  have hu : args.spec ≠ 'u'.toUInt8 := by
    rw [hspec]
    decide
  have hself : args = { args with result := s } := by rw [← hresult]
  -- no text is both of the words
  have hword : (!isNan args || isInf args) = !isNan args := by
    cases hnan : isNan args with
    | false => rfl
    | true =>
      rw [isInf, of_decide_eq_true hnan]
      decide
  rw [decide_eq_false (hresult ▸ hhead), hlead, manageSign, if_neg Bool.false_ne_true, hword, hplus,
    hspace, hresult]
  cases isNan args with
  | true => simpa using hself
  | false =>
    cases d.has '+' with
    | true => simp [hu, cstr]
    | false =>
      cases d.has ' ' with
      | true => simp [hu, cstr]
      | false => simpa using hself

/-- `manage_sign` puts the sign, or what stands for it, in front. -/
lemma manageSign_float {value : FloatValue} {p : ℕ}
    (hresult : args.result = value.text (d.has '#') p) :
    manageSign args (args.result.head? = some '-'.toUInt8) =
      ({ args with result := d.floatLead value ++ value.body (d.has '#') p },
        !(d.floatLead value).isEmpty) := by
  by_cases hnegative : value.negative = true
  · have hlead : d.floatLead value = cstr "-" := by
      cases value with
      | nan => cases hnegative
      | finite | infinity => exact if_pos hnegative
    rw [FloatValue.text, if_pos hnegative, ← hlead] at hresult
    have hself : { args with result := d.floatLead value ++ value.body (d.has '#') p } = args := by
      rw [← hresult]
    have hhead : args.result.head? = some '-'.toUInt8 := by
      rw [hresult, hlead]
      rfl
    rw [hself, decide_eq_true hhead, hlead]
    rfl
  · rw [FloatValue.text, if_neg hnegative, List.nil_append] at hresult
    refine manageSign_plain hspec hplus hspace hresult ?_ ?_
    · intro hhead
      have hwords : '-'.toUInt8 ∉ cstr "inf" ∧ '-'.toUInt8 ∉ cstr "nan" := by decide
      have hmem := List.mem_of_mem_head? hhead
      cases value with
      | finite x => exact (mem_body_finite hmem).1 rfl
      | infinity => exact hwords.1 hmem
      | nan => exact hwords.2 hmem
    · have hletter : 'n'.toUInt8 ∈ cstr "nan" := by decide
      have hwords : cstr "inf" ≠ cstr "nan" := by decide
      rw [isNan, hresult]
      cases value with
      | finite x =>
        have hword : (FloatValue.finite x).body (d.has '#') p ≠ cstr "nan" := fun hword =>
          (mem_body_finite (hword ▸ hletter)).2 rfl
        rw [decide_eq_false hword, if_neg Bool.false_ne_true]
        exact if_neg hnegative
      | infinity negative =>
        have hword : (FloatValue.infinity negative).body (d.has '#') p ≠ cstr "nan" := hwords
        rw [decide_eq_false hword, if_neg Bool.false_ne_true]
        exact if_neg hnegative
      | nan => rfl

/-- **The padding of a floating-point number.** -/
lemma ftWidth_float {value : FloatValue} {n p : ℕ} (hwidth : args.width = n) (hn : n < 2 ^ 31)
    (hminus : args.has MASK_MINUS = d.left w)
    (hzero : args.has MASK_ZERO = (d.has '0' && !d.left w))
    (hresult : args.result = value.text (d.has '#') p)
    (hlen : (d.floatLead value ++ value.body (d.has '#') p).length < 2 ^ 31) :
    (ftWidth args).result = layout (d.left w) (d.has '0' && value.isFinite) n
      (d.floatLead value) (value.body (d.has '#') p) := by
  have hsign := manageSign_float hspec hplus hspace hresult
  have hnumeric : ftWidth args = ftNumeric args := if_pos (by rw [hspec]; decide)
  have hlead : d.floatLead value ∈ [[], cstr "-", cstr "+", cstr " "] := by
    have hsigns (negative : Bool) : d.signLead negative ∈ [[], cstr "-", cstr "+", cstr " "] := by
      unfold Directive.signLead
      split_ifs <;> decide
    cases value with
    | finite x => exact hsigns _
    | infinity negative => exact hsigns _
    | nan => exact List.mem_cons_self
  rw [hnumeric, ← hminus]
  rw [← hminus] at hzero
  by_cases hfinite : value.isFinite = true
  · have hshort : ∀ lead ∈ [[], cstr "-", cstr "+", cstr " "],
        lead.length ≤ 1 ∧ 'n'.toUInt8 ∉ lead := by decide
    obtain ⟨hone, hletter⟩ := hshort _ hlead
    have hn' : 'n'.toUInt8 ∉ d.floatLead value ++ value.body (d.has '#') p := by
      rw [List.mem_append, not_or]
      refine ⟨hletter, fun hmem => ?_⟩
      cases value with
      | finite x => exact (mem_body_finite hmem).2 rfl
      | infinity => cases hfinite
      | nan => cases hfinite
    rw [List.length_append] at hlen
    rw [hfinite, Bool.and_true]
    exact ftNumeric_layout hwidth hn hzero hsign hone hn' hlen
  · rw [Bool.not_eq_true] at hfinite
    rw [hfinite, Bool.and_false]
    refine ftNumeric_word hwidth hn hsign ?_ hlen
    have hwords : ∀ lead ∈ [[], cstr "-", cstr "+", cstr " "],
        lead ++ cstr "inf" ∈ [cstr "inf", cstr "-inf", cstr "+inf", cstr " inf"] := by decide
    cases value with
    | finite x => cases hfinite
    | infinity negative => exact .inr (decide_eq_true (hwords _ hlead))
    | nan => exact .inl rfl

end Width

/-! ## The directives -/

namespace Directive

variable (d : Directive)

lemma args_has (w : ℤ) : (d.args w).has MASK_PLUS = d.has '+' ∧
    (d.args w).has MASK_HASH = d.has '#' ∧
    (d.args w).has MASK_SPACE = (d.has ' ' && !d.has '+') := by
  obtain ⟨-, hplus, hhash, hspace, -⟩ := has_flagBits (d.left w) (d.has '+') (d.has '#')
    (d.has ' ') (d.filled 0)
  exact ⟨hplus, hhash, hspace⟩

variable {d}

/-- The conversion has six places, unless there is a precision. -/
lemma args_precision (hspec : d.spec = 'f'.toUInt8) (w : ℤ) :
    (d.args w).precision = d.floatPlaces := by
  show (d.digits 0).getD (if d.spec = 'f'.toUInt8 then 6 else -1) = _
  rw [if_pos hspec, floatPlaces]
  cases hdigits : d.digits 0 with
  | none => rfl
  | some n => exact (Int.toNat_of_nonneg (d.digits_nonneg 0 n hdigits)).symm

/-- What `ft_print_f` prints under the settings of a directive. -/
lemma ftPrintFloat_args (hspec : d.spec = 'f'.toUInt8) (hstar : d.precision ≠ some .star) {w : ℤ}
    (hwidth : int32 |d.width.value w| = |d.width.value w|) {bits : FloatBits} {value : FloatValue}
    (hbits : value.Represents bits) (hrounds : value.Rounds d.floatPlaces)
    (hlen : (d.floatShown w value).length < 2 ^ 31) (var : TVars) :
    (ftPrintFloat (d.args w) bits var).out = .ok (var.putstr (d.floatShown w value)) := by
  have hmem : d.spec ∉ cstr "diouxXpb" := by
    rw [hspec]
    decide
  have hsettings := d.settings_args hstar hmem w 0
  obtain ⟨hplus, hhash, hspace⟩ := d.args_has w
  obtain ⟨hn, hlt⟩ := hsettings.width_spec hwidth
  have hlong := hlen
  rw [floatShown, length_layout] at hlong
  have htext := floatText_value hbits (args_precision hspec w) hrounds (by rw [hhash]; omega)
  rw [hhash] at htext
  have hpadded := @ftWidth_float d w
    { d.args w with result := value.text (d.has '#') d.floatPlaces } hspec hplus hspace value _ _
    hn hlt hsettings.has_minus hsettings.has_zero rfl (by rw [List.length_append]; omega)
  rw [ftPrintFloat, Run.out_bind_of_ok htext]
  dsimp only
  rw [hpadded, putstrRun]
  exact congrArg Run.out (if_pos hlen)

end Directive

/-- **Floating-point directives.**  Behind any directive of the grammar with the conversion `f`
whose precision is no star, the scanners leave what makes `ft_print_f` print the text of the value:
its sign or what the flags put in its place, its digits or its word, arranged in the width. -/
theorem ftPrintFloat_floatShown (d : Directive) (hspec : d.spec = 'f'.toUInt8)
    (hstar : d.precision ≠ some .star) (wslot : ℕ)
    (hwidth : ¬(d.width = .star ∧ toInt wslot = -2 ^ 31)) (bits : FloatBits) (value : FloatValue)
    (hbits : value.Represents bits) (hrounds : value.Rounds d.floatPlaces)
    (hlen : (d.floatShown (toInt wslot) value).length < 2 ^ 31) (rest : List UInt8)
    (va : List VaArg) (var : TVars) :
    ∃ r, scanDirective (d.text ++ rest) (d.stars wslot 0 ++ va) = some r ∧
      r.specIndex = d.before.length ∧ r.typesList = va ∧
      (ftPrintFloat r.args bits var).out =
        .ok (var.putstr (d.floatShown (toInt wslot) value)) := by
  have hspace : ftIsspace d.spec = false := by
    rw [hspec]
    decide
  have hread : d.precision = some .absent → ftAtoll (d.behind rest) = 0 := fun _ =>
    d.ftAtoll_behind (fun _ => hspace) rest
  exact ⟨_, d.scanDirective_text hstar hread wslot 0 va, rfl, rfl,
    Directive.ftPrintFloat_args hspec hstar ((Directive.int32_width_iff wslot).mpr hwidth) hbits
      hrounds hlen var⟩

/-- `%+08.1f`. -/
def paddedFloat : Directive where
  flags := cstr "+0"
  width := .number ⟨cstr "8", by decide, forall_mem_of_all (by decide), by decide⟩
  precision := some (.number ⟨cstr "1", by decide, forall_mem_of_all (by decide), by decide⟩)
  modifier := .integer .absent
  spec := 'f'.toUInt8
  flags_mem := forall_mem_of_all (by decide)
  width_head := by decide
  spec_not_mem := by decide
  spec_ne := by decide

/-- An eighth is a tenth there. -/
theorem ftPrintFloat_floatShown_paddedFloat :
    ∃ r, scanDirective (cstr "+08.1f bytes") [] = some r ∧ r.specIndex = 5 ∧ r.typesList = [] ∧
      (ftPrintFloat r.args FiniteNumber.eighth.bits (initialVars [])).out =
        .ok ⟨8, cstr "+00000.1", [], none, false⟩ := by
  have hshown : paddedFloat.floatShown 0 (.finite .eighth) = cstr "+00000.1" := by
    decide +kernel
  have hrounds : FiniteNumber.eighth.Extends 1 := by decide +kernel
  have hprinted := ftPrintFloat_floatShown paddedFloat rfl (by decide) 0 (by decide)
    FiniteNumber.eighth.bits (.finite .eighth) rfl hrounds
    (by rw [show toInt 0 = 0 from rfl, hshown]; decide) (cstr " bytes") [] (initialVars [])
  rw [show toInt 0 = 0 from rfl, hshown] at hprinted
  exact hprinted

end FtNm
