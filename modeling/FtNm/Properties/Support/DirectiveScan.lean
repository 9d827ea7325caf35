import FtNm.Construction.DirectiveGrammar
import FtNm.Properties.Support.FormatCursor

/-!
# What the scanners make of a directive

Each scanner of a directive consumes the part it is for and nothing else, as long as the
character behind that part is of another kind.  `Directive.scanDirective_text` puts them
together for a directive whose precision is no star: the conversion gets the flags, width,
precision and modifier that are written, and the cursor ends on the specifier.
-/

namespace FtNm

/-! ## Flags -/

/-- The flag bits, where `-` overrides `0` and `+` overrides the space. -/
def flagBits (minus plus hash space zero : Bool) : ℕ :=
  (if minus then MASK_MINUS else 0) ||| (if plus then MASK_PLUS else 0) |||
    (if hash then MASK_HASH else 0) ||| (if space && !plus then MASK_SPACE else 0) |||
    (if zero && !minus then MASK_ZERO else 0)

/-- A flag character turns on its own bit. -/
lemma flagStep_flagBits : ∀ c ∈ cstr "-+#0 ", ∀ minus plus hash space zero,
    flagStep (flagBits minus plus hash space zero) c =
      flagBits (minus || c = '-'.toUInt8) (plus || c = '+'.toUInt8) (hash || c = '#'.toUInt8)
        (space || c = ' '.toUInt8) (zero || c = '0'.toUInt8) :=
  forall_mem_of_all (by decide)

/-- `get_flags` takes the flags, in whatever order they come, and stops behind them. -/
lemma getFlags_append {flags tail : List UInt8} (hflags : ∀ c ∈ flags, c ∈ cstr "-+#0 ")
    (htail : ∀ c ∈ tail.head?, ftContains "-+#0 " c = false) (minus plus hash space zero : Bool) :
    getFlags (flags ++ tail) (flagBits minus plus hash space zero) =
      (flagBits (minus || '-'.toUInt8 ∈ flags) (plus || '+'.toUInt8 ∈ flags)
        (hash || '#'.toUInt8 ∈ flags) (space || ' '.toUInt8 ∈ flags)
        (zero || '0'.toUInt8 ∈ flags), tail) := by
  induction flags generalizing minus plus hash space zero with
  | nil =>
    cases tail with
    | nil => simp [getFlags]
    | cons c tail =>
      have hc : ftContains "-+#0 " c = false := htail c rfl
      simp [getFlags, hc]
  | cons c flags ih =>
    have hc : c ∈ cstr "-+#0 " := hflags c List.mem_cons_self
    have hrest := ih fun c hc => hflags c (List.mem_cons_of_mem _ hc)
    have hflag : ftContains "-+#0 " c = true := decide_eq_true hc
    rw [List.cons_append, getFlags, if_pos hflag]
    rw [flagStep_flagBits c hc, hrest]
    have hmem (x : UInt8) : decide (x ∈ c :: flags) = (decide (c = x) || decide (x ∈ flags)) := by
      rw [← Bool.decide_or]
      exact decide_eq_decide.mpr (List.mem_cons.trans (or_congr_left eq_comm))
    simp only [hmem, Bool.or_assoc]

/-- What a negative width makes of the flags. -/
lemma flagBits_set_minus : ∀ minus plus hash space zero,
    (let flag := if flagBits minus plus hash space zero &&& MASK_MINUS ≠ 0 then
        flagBits minus plus hash space zero
      else flagBits minus plus hash space zero ||| MASK_MINUS
    if flag &&& MASK_ZERO ≠ 0 then flag ^^^ MASK_ZERO else flag) =
      flagBits true plus hash space zero := by
  decide

/-- A precision clears the flag `0`. -/
lemma flagBits_clear_zero : ∀ minus plus hash space zero,
    (if flagBits minus plus hash space zero &&& MASK_ZERO ≠ 0 then
        flagBits minus plus hash space zero ^^^ MASK_ZERO
      else flagBits minus plus hash space zero) = flagBits minus plus hash space false := by
  decide

lemma has_flagBits : ∀ minus plus hash space zero,
    decide (flagBits minus plus hash space zero &&& MASK_MINUS ≠ 0) = minus ∧
    decide (flagBits minus plus hash space zero &&& MASK_PLUS ≠ 0) = plus ∧
    decide (flagBits minus plus hash space zero &&& MASK_HASH ≠ 0) = hash ∧
    decide (flagBits minus plus hash space zero &&& MASK_SPACE ≠ 0) = (space && !plus) ∧
    decide (flagBits minus plus hash space zero &&& MASK_ZERO ≠ 0) = (zero && !minus) := by
  decide

/-! ## Numbers -/

/-- A digit is no blank, sign or star. -/
lemma digit_other : ∀ c ∈ cstr "0123456789",
    ftIsspace c = false ∧ c ≠ '-'.toUInt8 ∧ c ≠ '+'.toUInt8 ∧ c ≠ '*'.toUInt8 :=
  forall_mem_of_all (by decide)

lemma ftIsdigit_of_isDigit {c : UInt8} (h : IsDigit c) : ftIsdigit c = true := decide_eq_true h

section Digits

variable {digits tail : List UInt8} (hdigits : ∀ c ∈ digits, IsDigit c)
  (htail : ∀ c ∈ tail.head?, ftIsdigit c = false)

include hdigits htail

lemma asciiToInt_append (n : ℕ) : asciiToInt (digits ++ tail) n =
    digits.foldl (fun n c => n * 10 + (c.toNat - '0'.toNat)) n := by
  induction digits generalizing n with
  | nil =>
    cases tail with
    | nil => rfl
    | cons c tail =>
      have hc := htail c rfl
      rw [List.nil_append, asciiToInt, if_neg (by simp [hc])]
      rfl
  | cons c digits ih =>
    have hc := ftIsdigit_of_isDigit (hdigits c List.mem_cons_self)
    rw [List.cons_append, asciiToInt, if_pos hc,
      ih fun c hc => hdigits c (List.mem_cons_of_mem _ hc)]
    rfl

lemma dropWhile_digits_append : (digits ++ tail).dropWhile ftIsdigit = tail := by
  rw [List.dropWhile_append_of_pos fun c hc => ftIsdigit_of_isDigit (hdigits c hc)]
  cases tail with
  | nil => rfl
  | cons c tail =>
    have hc := htail c rfl
    exact List.dropWhile_cons_of_neg (by simp [hc])

end Digits

/-- `ft_atoll` reads a number. -/
lemma ftAtoll_number (n : Number) {tail : List UInt8}
    (htail : ∀ c ∈ tail.head?, ftIsdigit c = false) :
    ftAtoll (n.text ++ tail) = decimalValue n.text := by
  have hvalue : asciiToInt (n.text ++ tail) 0 = decimalValue n.text :=
    asciiToInt_append n.text_digits htail 0
  obtain ⟨c, digits, htext⟩ := List.exists_cons_of_ne_nil n.text_ne
  have hdigit : IsDigit c := n.text_digits c (htext ▸ List.mem_cons_self)
  obtain ⟨hspace, hminus, hplus, -⟩ := digit_other c hdigit
  have hstr : n.text ++ tail = c :: (digits ++ tail) := by rw [htext, List.cons_append]
  have hdrop : (n.text ++ tail).dropWhile ftIsspace = c :: (digits ++ tail) := by
    rw [hstr]
    exact List.dropWhile_cons_of_neg (by simp [hspace])
  rw [ftAtoll, hdrop]
  dsimp only
  rw [if_neg hminus, if_neg hplus, ← hstr, hvalue]
  exact toInt_of_lt n.text_lt

/-- Where there is no number it reads `0`. -/
lemma ftAtoll_none {c : UInt8} (hspace : ftIsspace c = false) (hdigit : ftIsdigit c = false)
    (hminus : c ≠ '-'.toUInt8) (hplus : c ≠ '+'.toUInt8) (str : List UInt8) :
    ftAtoll (c :: str) = 0 := by
  have hdrop : (c :: str).dropWhile ftIsspace = c :: str :=
    List.dropWhile_cons_of_neg (by simp [hspace])
  have hvalue : asciiToInt (c :: str) 0 = 0 := by rw [asciiToInt, if_neg (by simp [hdigit])]
  rw [ftAtoll, hdrop]
  dsimp only
  rw [if_neg hminus, if_neg hplus, hvalue]
  exact toInt_of_lt (by norm_num)

lemma ftAtoll_space {c : UInt8} (hspace : ftIsspace c = true) (str : List UInt8) :
    ftAtoll (c :: str) = ftAtoll str := by
  rw [ftAtoll, ftAtoll, List.dropWhile_cons_of_pos hspace]

/-! ## Width and precision -/

section Width

variable {tail : List UInt8} (htail : ∀ c ∈ tail.head?, inWidth c = false)

include htail

lemma getWidth_stop (digits : Bool) (args : TArgs) (va : List VaArg) :
    getWidth tail digits args va = (args, tail, va) := by
  cases tail with
  | nil => rfl
  | cons c tail =>
    have hc := htail c rfl
    simp only [inWidth, Bool.or_eq_false_iff, decide_eq_false_iff_not] at hc
    rw [getWidth, if_neg (by simp [hc.1]), if_neg hc.2]

/-- The rest of a run of digits. -/
lemma getWidth_run {digits : List UInt8} (hdigits : ∀ c ∈ digits, IsDigit c) (args : TArgs)
    (va : List VaArg) : getWidth (digits ++ tail) true args va = (args, tail, va) := by
  induction digits with
  | nil => exact getWidth_stop htail true args va
  | cons c digits ih =>
    have hc := ftIsdigit_of_isDigit (hdigits c List.mem_cons_self)
    rw [List.cons_append, getWidth, if_pos hc]
    exact ih fun c hc => hdigits c (List.mem_cons_of_mem _ hc)

lemma digit_stop : ∀ c ∈ tail.head?, ftIsdigit c = false := fun c hc =>
  (Bool.or_eq_false_iff.mp (htail c hc)).1

lemma getWidth_number (n : Number) (args : TArgs) (va : List VaArg) :
    getWidth (n.text ++ tail) false args va =
      ({ args with width := decimalValue n.text }, tail, va) := by
  have hvalue := ftAtoll_number n (digit_stop htail)
  have hdigits := n.text_digits
  obtain ⟨c, digits, htext⟩ := List.exists_cons_of_ne_nil n.text_ne
  rw [htext] at hvalue hdigits ⊢
  rw [List.cons_append] at hvalue ⊢
  rw [getWidth, if_pos (ftIsdigit_of_isDigit (hdigits c List.mem_cons_self)), hvalue]
  exact getWidth_run htail (fun c hc => hdigits c (List.mem_cons_of_mem _ hc)) _ _

/-- `get_width` takes a width in any of its forms. -/
lemma getWidth_amount (width : Amount) (slot : ℕ) (minus plus hash space zero : Bool)
    (args : TArgs) (hflag : args.flag = flagBits minus plus hash space zero)
    (hwidth : args.width = 0) (va : List VaArg) :
    getWidth (width.text ++ tail) false args (width.slots slot ++ va) =
      ({ args with
          flag := flagBits (minus || width.value (toInt slot) < 0) plus hash space zero
          width := int32 |width.value (toInt slot)| }, tail, va) := by
  obtain ⟨_, _, precision, spec, modifier, result, unsignEd⟩ := args
  obtain rfl := hflag
  obtain rfl := hwidth
  cases width with
  | absent =>
    simpa [Amount.text, Amount.slots, Amount.value, int32] using getWidth_stop htail false _ va
  | number n =>
    have hlt := n.text_lt
    have habs : int32 |((decimalValue n.text : ℕ) : ℤ)| = decimalValue n.text := by
      rw [Nat.abs_cast]
      exact int32_of_mem (by omega) (by exact_mod_cast hlt)
    have hnonneg : ¬((decimalValue n.text : ℕ) : ℤ) < 0 := by omega
    refine (getWidth_number htail n _ va).trans ?_
    simp only [Amount.value, habs, hnonneg, decide_false, Bool.or_false]
  | star =>
    have hminus := flagBits_set_minus minus plus hash space zero
    obtain ⟨hle, hlt⟩ := toInt_mem slot
    show getWidth ('*'.toUInt8 :: tail) false _ (.word slot :: va) = _
    rw [getWidth, if_neg (by decide), if_pos rfl]
    dsimp only [vaWord, Amount.value]
    rw [getWidth_stop htail]
    by_cases hneg : toInt slot < 0
    · have habs : toInt slot * -1 = |toInt slot| := by rw [abs_of_neg hneg, mul_neg_one]
      simp only [hneg, if_true, decide_true, Bool.or_true, habs, ← hminus, TArgs.has,
        decide_eq_true_iff]
    · have habs : int32 |toInt slot| = toInt slot := by
        rw [abs_of_nonneg (not_lt.mp hneg)]
        exact int32_of_mem hle hlt
      simp only [hneg, if_false, decide_false, Bool.or_false, habs]

end Width

/-- Without a point there is only the default of `f`. -/
lemma getPrecision_none {tail : List UInt8} (htail : tail.head? ≠ some '.'.toUInt8) (args : TArgs)
    (va : List VaArg) : getPrecision tail args va =
      ({ args with precision := if args.spec = 'f'.toUInt8 then 6 else args.precision },
        tail, va) := by
  cases tail with
  | nil =>
    rw [getPrecision]
    split_ifs <;> rfl
  | cons c tail =>
    have hc : c ≠ '.'.toUInt8 := fun hc => htail (hc ▸ rfl)
    rw [getPrecision, if_neg hc]
    split_ifs <;> rfl

/-- `get_precision` at a precision that is no star: what `ft_atoll` reads behind the point. -/
lemma getPrecision_text {text tail : List UInt8} (htext : ∀ c ∈ text, IsDigit c)
    (htail : ∀ c ∈ tail.head?, inWidth c = false) (hread : 0 ≤ ftAtoll (text ++ tail))
    (minus plus hash space zero : Bool) (args : TArgs)
    (hflag : args.flag = flagBits minus plus hash space zero) (va : List VaArg) :
    getPrecision ('.'.toUInt8 :: (text ++ tail)) args va =
      ({ args with
          precision := ftAtoll (text ++ tail)
          flag := flagBits minus plus hash space
            (zero && !decide (args.spec ∈ cstr "diouxXpb")) }, tail, va) := by
  have hstar : (text ++ tail).head? ≠ some '*'.toUInt8 := by
    cases text with
    | nil => exact fun hhead => absurd (htail _ hhead) (by decide)
    | cons c text => exact fun hhead =>
        (digit_other c (htext c List.mem_cons_self)).2.2.2 (Option.some.inj hhead)
  have hva : vaArgPrecision (text ++ tail) args va =
      ({ args with precision := ftAtoll (text ++ tail) }, va) := by
    rw [vaArgPrecision, if_neg hstar]
    dsimp only
    rw [if_neg (not_lt.mpr hread)]
  have hclear := flagBits_clear_zero minus plus hash space zero
  rw [getPrecision, if_pos rfl, hva]
  dsimp only
  rw [dropWhile_digits_append htext (digit_stop htail)]
  by_cases hspec : args.spec ∈ cstr "diouxXpb"
  · have hconversion : ftContains DIOUXXPB args.spec = true := decide_eq_true hspec
    simp only [TArgs.has, hflag, decide_eq_true_iff, hread, hconversion, hspec, and_true,
      decide_true, Bool.not_true, Bool.and_false, ← hclear]
    split_ifs <;> rfl
  · have hconversion : ftContains DIOUXXPB args.spec = false := decide_eq_false hspec
    simp [hconversion, hspec, ← hflag]

/-- The precision that `get_precision` takes from the format. -/
lemma getPrecision_precision {tail : List UInt8} (htail : tail.head? ≠ some '*'.toUInt8)
    {args : TArgs} (hf : args.spec ≠ 'f'.toUInt8) (va : List VaArg) :
    (getPrecision ('.'.toUInt8 :: tail) args va).1.precision = ftAtoll tail := by
  rw [getPrecision, if_pos rfl, vaArgPrecision, if_neg htail]
  dsimp only
  rw [if_neg hf]
  split_ifs <;> rfl

/-! ## Modifier and specifier -/

/-- The modifier bits. -/
def LengthModifier.mask : LengthModifier → ℕ
  | .absent => 0
  | .hh => MASK_HH
  | .h => MASK_H
  | .l => MASK_L
  | .ll => MASK_LL
  | .j => MASK_J
  | .z => MASK_Z

/-- The modifier bits, the one of the floats included. -/
def Modifier.mask : Modifier → ℕ
  | .integer m => m.mask
  | .L => MASK_UPL

/-- What follows a letter matters only if it is the same one. -/
lemma modifierStep_next {next : UInt8} (hnext : ftContains "hlLzj" next = false) (modifier : ℕ)
    (c : UInt8) : modifierStep modifier c (some next) = modifierStep modifier c none := by
  have hh : next ≠ 'h'.toUInt8 := fun h => absurd hnext (by rw [h]; decide)
  have hl : next ≠ 'l'.toUInt8 := fun h => absurd hnext (by rw [h]; decide)
  simp [modifierStep, hh, hl]

section Stop

variable {spec : UInt8} (hspec : ftContains "hlLzj" spec = false) (rest : List UInt8)

include hspec

lemma getModifier_stop (modifier : ℕ) : getModifier (spec :: rest) modifier = modifier := by
  rw [getModifier, if_neg (by simp [hspec])]

/-- The last letter of a modifier. -/
lemma getModifier_letter {letter : UInt8} (hletter : ftContains "hlLzj" letter = true)
    (modifier : ℕ) :
    getModifier (letter :: spec :: rest) modifier = modifierStep modifier letter none := by
  rw [getModifier, if_pos hletter, getModifier_stop hspec]
  exact modifierStep_next hspec modifier letter

/-- The first letter of a double one. -/
lemma getModifier_double {letter : UInt8} (hletter : ftContains "hlLzj" letter = true) :
    getModifier (letter :: letter :: spec :: rest) 0 =
      modifierStep (modifierStep 0 letter (some letter)) letter none := by
  rw [getModifier, if_pos hletter]
  exact getModifier_letter hspec rest hletter _

lemma getModifier_append (m : Modifier) : getModifier (m.text ++ spec :: rest) 0 = m.mask := by
  cases m with
  | L => exact getModifier_letter hspec rest (by decide) 0
  | integer m =>
    cases m with
    | absent => exact getModifier_stop hspec rest 0
    | h | l | j | z => exact getModifier_letter hspec rest (by decide) 0
    | hh | ll => exact getModifier_double hspec rest (by decide)

lemma afterModifier_append (m : Modifier) :
    afterModifier (m.text ++ spec :: rest) = spec :: rest := by
  have hletters : ∀ c ∈ m.text, ftContains "hlLzj" c = true := by
    rcases m with m | _
    · cases m <;> exact forall_mem_of_all (by decide)
    · exact forall_mem_of_all (by decide)
  rw [afterModifier, List.dropWhile_append_of_pos hletters]
  exact List.dropWhile_cons_of_neg (by simp [hspec])

end Stop

lemma getSpecifier_append {before rest : List UInt8} {spec : UInt8}
    (hbefore : ∀ c ∈ before, beforeSpecifier c = true) (hspec : beforeSpecifier spec = false) :
    getSpecifier (before ++ spec :: rest) = some (before.length, spec) := by
  induction before with
  | nil =>
    rw [List.nil_append, getSpecifier_cons, if_neg (by simp [hspec])]
    rfl
  | cons c before ih =>
    rw [List.cons_append, getSpecifier_cons, if_pos (hbefore c List.mem_cons_self),
      ih fun c hc => hbefore c (List.mem_cons_of_mem _ hc)]
    rfl

/-! ## A whole directive -/

namespace Directive

variable (d : Directive)

/-- The precision as it is written. -/
def precisionText : List UInt8 := d.precision.elim [] ('.'.toUInt8 :: ·.text)

/-- What stands behind the precision. -/
def behind (rest : List UInt8) : List UInt8 := d.modifier.text ++ d.spec :: rest

lemma text_append (rest : List UInt8) : d.text ++ rest =
    d.flags ++ (d.width.text ++ (d.precisionText ++ d.behind rest)) := by
  simp [text, before, precisionText, behind]

/-- The specifier is none of the characters that the rest of a directive is made of. -/
lemma contains_spec {set : String} (h : ∀ c ∈ cstr set, c ∈ cstr "-+#* .0123456789jzhlL") :
    ftContains set d.spec = false :=
  decide_eq_false fun hmem => d.spec_not_mem (h _ hmem)

lemma spec_ne_of_mem {c : UInt8} (h : c ∈ cstr "-+#* .0123456789jzhlL") : d.spec ≠ c :=
  fun hc => d.spec_not_mem (hc ▸ h)

lemma contains_modifier : ftContains "hlLzj" d.spec = false :=
  d.contains_spec (forall_mem_of_all (by decide))

lemma contains_digit : ftIsdigit d.spec = false :=
  d.contains_spec (forall_mem_of_all (by decide) :
    ∀ c ∈ cstr "0123456789", c ∈ cstr "-+#* .0123456789jzhlL")

lemma beforeSpecifier_spec : beforeSpecifier d.spec = false := by
  rw [beforeSpecifier, d.contains_spec (forall_mem_of_all (by decide)),
    d.contains_spec (forall_mem_of_all (by decide)), Bool.or_false]

lemma inWidth_spec : inWidth d.spec = false := by
  rw [inWidth, d.contains_digit, decide_eq_false (d.spec_ne_of_mem (by decide)), Bool.or_false]

/-! What stands behind the width, and behind the precision. -/

lemma head_behind (rest : List UInt8) : ∀ c ∈ (d.behind rest).head?,
    inWidth c = false ∧ ftContains "-+#0 " c = false ∧ c ≠ '.'.toUInt8 := by
  intro c hc
  have hspec : inWidth d.spec = false ∧ ftContains "-+#0 " d.spec = false ∧
      d.spec ≠ '.'.toUInt8 :=
    ⟨d.inWidth_spec, d.contains_spec (forall_mem_of_all (by decide)),
      d.spec_ne_of_mem (by decide)⟩
  unfold behind at hc
  rcases hmodifier : d.modifier with m | _
  · rw [hmodifier] at hc
    cases m with
    | absent => exact Option.some.inj hc ▸ hspec
    | hh | h | l | ll | j | z =>
      obtain rfl := Option.some.inj hc
      decide
  · rw [hmodifier] at hc
    obtain rfl := Option.some.inj hc
    decide

lemma head_precision (rest : List UInt8) : ∀ c ∈ (d.precisionText ++ d.behind rest).head?,
    inWidth c = false ∧ ftContains "-+#0 " c = false := by
  intro c hc
  unfold precisionText at hc
  cases hprecision : d.precision with
  | none =>
    rw [hprecision] at hc
    obtain ⟨hwidth, hflag, -⟩ := d.head_behind rest c hc
    exact ⟨hwidth, hflag⟩
  | some amount =>
    rw [hprecision] at hc
    obtain rfl : '.'.toUInt8 = c := Option.some.inj hc
    decide

lemma head_width (rest : List UInt8) :
    ∀ c ∈ (d.width.text ++ (d.precisionText ++ d.behind rest)).head?,
      ftContains "-+#0 " c = false := by
  intro c hc
  have hhead := d.width_head
  cases hwidth : d.width with
  | absent =>
    rw [hwidth] at hc
    exact (d.head_precision rest c hc).2
  | star =>
    rw [hwidth] at hc
    obtain rfl : '*'.toUInt8 = c := Option.some.inj hc
    decide
  | number n =>
    obtain ⟨c', digits, htext⟩ := List.exists_cons_of_ne_nil n.text_ne
    have hwidthText : d.width.text = c' :: digits := by rw [hwidth, Amount.text, htext]
    rw [hwidthText] at hc hhead
    obtain rfl : c' = c := Option.some.inj hc
    have hdigit : IsDigit c' := n.text_digits c' (htext ▸ List.mem_cons_self)
    have hflag : ∀ c ∈ cstr "0123456789", c ≠ '0'.toUInt8 → ftContains "-+#0 " c = false :=
      forall_mem_of_all (by decide)
    exact hflag c' hdigit fun hc => hhead (hc ▸ rfl)

lemma digits_before : ∀ c ∈ cstr "0123456789", beforeSpecifier c = true :=
  forall_mem_of_all (by decide)

lemma amount_before (amount : Amount) : ∀ c ∈ amount.text, beforeSpecifier c = true := by
  cases amount with
  | absent => exact fun c hc => absurd hc List.not_mem_nil
  | number n => exact fun c hc => digits_before c (n.text_digits c hc)
  | star => exact forall_mem_of_all (by decide)

/-- `get_specifier` finds the specifier. -/
lemma getSpecifier_text (rest : List UInt8) :
    getSpecifier (d.text ++ rest) = some (d.before.length, d.spec) := by
  have htext : d.text ++ rest = d.before ++ d.spec :: rest := by simp [text]
  have hflags : ∀ c ∈ cstr "-+#0 ", beforeSpecifier c = true := forall_mem_of_all (by decide)
  have hmodifier : ∀ c ∈ d.modifier.text, beforeSpecifier c = true := by
    rcases d.modifier with m | _
    · cases m <;> exact forall_mem_of_all (by decide)
    · exact forall_mem_of_all (by decide)
  rw [htext]
  refine getSpecifier_append (fun c hc => ?_) d.beforeSpecifier_spec
  simp only [before, List.mem_append] at hc
  rcases hc with ((hc | hc) | hc) | hc
  · exact hflags c (d.flags_mem c hc)
  · exact amount_before d.width c hc
  · cases hprecision : d.precision with
    | none =>
      rw [hprecision] at hc
      exact absurd hc List.not_mem_nil
    | some amount =>
      rw [hprecision] at hc
      rcases List.mem_cons.mp hc with rfl | hc
      · decide
      · exact amount_before amount c hc
  · exact hmodifier c hc

/-- The settings in front of the precision, where a width of stars is `w`. -/
def prepared (w : ℤ) : TArgs where
  flag := flagBits (d.left w) (d.has '+') (d.has '#') (d.has ' ') (d.has '0')
  width := int32 |d.width.value w|
  precision := -1
  spec := d.spec
  modifier := 0
  result := []
  unsignEd := 0

/-- The scanners up to the precision take the flags and the width. -/
lemma scanDirective_prepared (wslot pslot : ℕ) (rest : List UInt8) (va : List VaArg) {args : TArgs}
    {cursor : List UInt8} {va' : List VaArg}
    (hprecision : getPrecision (d.precisionText ++ d.behind rest) (d.prepared (toInt wslot))
      (d.precision.elim [] (Amount.slots pslot) ++ va) = (args, cursor, va')) :
    scanDirective (d.text ++ rest) (d.stars wslot pslot ++ va) = some {
      args := { args with modifier := getModifier cursor args.modifier }
      specIndex := d.before.length
      cursor := afterModifier cursor
      typesList := va' } := by
  have hflags := getFlags_append d.flags_mem (d.head_width rest) false false false false false
  rw [← text_append] at hflags
  have hwidth : getWidth (d.width.text ++ (d.precisionText ++ d.behind rest)) false
      { initializeArgs with
        spec := d.spec
        flag := flagBits (d.has '-') (d.has '+') (d.has '#') (d.has ' ') (d.has '0') }
        (d.stars wslot pslot ++ va) =
      (d.prepared (toInt wslot), d.precisionText ++ d.behind rest,
        d.precision.elim [] (Amount.slots pslot) ++ va) := by
    rw [stars, List.append_assoc]
    exact getWidth_amount (fun c hc => (d.head_precision rest c hc).1) d.width wslot (d.has '-')
      (d.has '+') (d.has '#') (d.has ' ') (d.has '0') _ rfl rfl _
  exact scanDirective_eq (d.getSpecifier_text rest) hflags hwidth hprecision

/-- What `ft_atoll` reads behind a point that has no number behind it. -/
lemma ftAtoll_behind (h : d.modifier = .integer .absent → ftIsspace d.spec = false)
    (rest : List UInt8) : ftAtoll (d.behind rest) = 0 := by
  unfold behind
  rcases hmodifier : d.modifier with m | _
  · cases m with
    | absent =>
      exact ftAtoll_none (h hmodifier) d.contains_digit (d.spec_ne_of_mem (by decide))
        (d.spec_ne_of_mem (by decide)) rest
    | hh | h | l | ll | j | z =>
      exact ftAtoll_none (by decide) (by decide) (by decide) (by decide) _
  · exact ftAtoll_none (by decide) (by decide) (by decide) (by decide) _

/-- A blank for a specifier is skipped. -/
lemma ftAtoll_behind_space (hmodifier : d.modifier = .integer .absent)
    (hspace : ftIsspace d.spec = true) (rest : List UInt8) :
    ftAtoll (d.behind rest) = ftAtoll rest := by
  rw [behind, hmodifier]
  exact ftAtoll_space hspace rest

/-- What the conversion is given, where a width of stars is `w` and no precision is one. -/
def args (w : ℤ) : TArgs where
  flag := flagBits (d.left w) (d.has '+') (d.has '#') (d.has ' ') (d.filled 0)
  width := int32 |d.width.value w|
  precision := (d.digits 0).getD (if d.spec = 'f'.toUInt8 then 6 else -1)
  spec := d.spec
  modifier := d.modifier.mask
  result := []
  unsignEd := 0

/-- What `get_precision` makes of a precision that is no star. -/
lemma getPrecision_prepared (hstar : d.precision ≠ some .star) {rest : List UInt8}
    (hread : d.precision = some .absent → ftAtoll (d.behind rest) = 0) (w : ℤ) (va : List VaArg) :
    getPrecision (d.precisionText ++ d.behind rest) (d.prepared w) va =
      ({ d.args w with modifier := 0 }, d.behind rest, va) := by
  have htail : ∀ c ∈ (d.behind rest).head?, inWidth c = false :=
    fun c hc => (d.head_behind rest c hc).1
  have hwritten (text : List UInt8) (htext : ∀ c ∈ text, IsDigit c) (n : ℕ)
      (hvalue : ftAtoll (text ++ d.behind rest) = n) (hdigits : d.digits 0 = some (n : ℤ)) :
      getPrecision ('.'.toUInt8 :: (text ++ d.behind rest)) (d.prepared w) va =
        ({ d.args w with modifier := 0 }, d.behind rest, va) := by
    have hread : 0 ≤ ftAtoll (text ++ d.behind rest) := by rw [hvalue]; exact Int.natCast_nonneg n
    have hscan := getPrecision_text htext htail hread _ _ _ _ _ (d.prepared w) rfl va
    rw [hscan, hvalue]
    simp only [args, filled, hdigits, Option.isSome_some, Bool.true_and, Option.getD_some]
    rfl
  unfold precisionText
  cases hprecision : d.precision with
  | none =>
    have hhead : (d.behind rest).head? ≠ some '.'.toUInt8 :=
      fun hc => (d.head_behind rest _ hc).2.2 rfl
    have hdigits : d.digits 0 = none := by rw [digits, hprecision]; rfl
    refine (getPrecision_none hhead (d.prepared w) va).trans ?_
    simp only [args, filled, hdigits, Option.isSome_none, Bool.false_and, Bool.not_false,
      Bool.and_true, Option.getD_none]
    rfl
  | some amount =>
    cases amount with
    | absent =>
      exact hwritten [] (fun c hc => absurd hc List.not_mem_nil) 0 (hread hprecision)
        (by simp [digits, hprecision, Amount.value])
    | number n =>
      exact hwritten n.text n.text_digits _ (ftAtoll_number n (digit_stop htail))
        (by simp [digits, hprecision, Amount.value])
    | star => exact absurd hprecision hstar

/-- **The scanners of a directive.** -/
lemma scanDirective_text (hstar : d.precision ≠ some .star) {rest : List UInt8}
    (hread : d.precision = some .absent → ftAtoll (d.behind rest) = 0) (wslot pslot : ℕ)
    (va : List VaArg) :
    scanDirective (d.text ++ rest) (d.stars wslot pslot ++ va) = some {
      args := d.args (toInt wslot)
      specIndex := d.before.length
      cursor := d.spec :: rest
      typesList := va } := by
  have hslots : d.precision.elim [] (Amount.slots pslot) = [] := by
    cases hprecision : d.precision with
    | none => rfl
    | some amount =>
      cases amount with
      | absent | number => rfl
      | star => exact absurd hprecision hstar
  have hprecision : getPrecision (d.precisionText ++ d.behind rest) (d.prepared (toInt wslot))
      (d.precision.elim [] (Amount.slots pslot) ++ va) =
      ({ d.args (toInt wslot) with modifier := 0 }, d.behind rest, va) := by
    rw [hslots]
    exact d.getPrecision_prepared hstar hread (toInt wslot) va
  rw [d.scanDirective_prepared wslot pslot rest va hprecision]
  simp only [behind, afterModifier_append d.contains_modifier,
    getModifier_append d.contains_modifier]
  rfl

end Directive

end FtNm
