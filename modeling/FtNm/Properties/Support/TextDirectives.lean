import FtNm.Properties.DirectiveReading
import FtNm.Properties.Support.IntegerText

/-!
# The conversions without a number

`%s`, `%c` and `%%`.  `TextArg` is the argument of one of them, and `Directive.shown` what C prints
of it: the string, of which a precision takes the beginning, the character or the percent sign,
arranged in the width.  Where C leaves it open, as for the flag `0` and for a null pointer, it is
what the width does for numbers, and the word `(null)`.  `ftPrintfHelper_textDirective` says that
this is what `ft_printf` prints, for every directive of the grammar.

A star for the precision makes no trouble here.  It takes its argument, and what the scanners miss
behind it is the modifier, which these conversions have no use for.
-/

namespace FtNm

/-- What `%s`, `%c` and `%%` are given. -/
inductive TextArg
  | str (s : List UInt8)
  | null
  | char (slot : ℕ)
  | percent
  deriving DecidableEq, Repr

namespace TextArg

/-- The specifier. -/
def spec : TextArg → UInt8
  | .str _ | .null => 's'.toUInt8
  | .char _ => 'c'.toUInt8
  | .percent => '%'.toUInt8

/-- The argument that is taken. -/
def taken : TextArg → List VaArg
  | .str s => [.str s]
  | .null => [.null]
  | .char slot => [.word slot]
  | .percent => []

/-- What is printed of it, under a precision that is the greatest length of a string. -/
def body (precision : Option ℤ) : TextArg → List UInt8
  | .str s => precision.elim s fun n => s.take n.toNat
  | .null => precision.elim (cstr "(null)") fun n => (cstr "(null)").take n.toNat
  | .char slot => [UInt8.ofNat slot]
  | .percent => cstr "%"

lemma spec_mem (t : TextArg) : t.spec ∈ cstr "sc%" := by
  cases t with
  | str | null => exact (by decide : 's'.toUInt8 ∈ cstr "sc%")
  | char => exact (by decide : 'c'.toUInt8 ∈ cstr "sc%")
  | percent => exact (by decide : '%'.toUInt8 ∈ cstr "sc%")

lemma spec_other (t : TextArg) : t.spec ≠ 'f'.toUInt8 ∧ ftIsspace t.spec = false ∧
    ftContains DIOUXXPB t.spec = false ∧ t.spec ∉ cstr "diouxXpb" := by
  have hspecs : ∀ c ∈ cstr "sc%", c ≠ 'f'.toUInt8 ∧ ftIsspace c = false ∧
      ftContains DIOUXXPB c = false ∧ c ∉ cstr "diouxXpb" := forall_mem_of_all (by decide)
  exact hspecs t.spec t.spec_mem

/-- What `%s` takes, and what it prints of it. -/
lemma string_spec {t : TextArg} (h : t.spec = 's'.toUInt8) (va : List VaArg)
    (precision : Option ℤ) :
    (vaStr (t.taken ++ va)).1.getD (cstr "(null)") = t.body none ∧ (vaStr (t.taken ++ va)).2 = va ∧
      t.body precision = precision.elim (t.body none) fun n => (t.body none).take n.toNat := by
  have hc : 'c'.toUInt8 ≠ 's'.toUInt8 := by decide
  have hpercent : '%'.toUInt8 ≠ 's'.toUInt8 := by decide
  cases t with
  | str s => exact ⟨rfl, rfl, rfl⟩
  | null => exact ⟨rfl, rfl, rfl⟩
  | char => exact absurd h hc
  | percent => exact absurd h hpercent

/-- What the other two print, a single character. -/
lemma char_spec {t : TextArg} (h : t.spec ≠ 's'.toUInt8) (va : List VaArg) :
    ∃ c, (∀ precision, t.body precision = [c]) ∧
      (if t.spec = 'c'.toUInt8 then
        (UInt8.ofNat (vaWord (t.taken ++ va)).1, (vaWord (t.taken ++ va)).2)
      else (t.spec, t.taken ++ va)) = (c, va) ∧ ftContains "%c" t.spec = true := by
  have hknown : ∀ c ∈ cstr "%c", ftContains "%c" c = true := forall_mem_of_all (by decide)
  cases t with
  | str => exact absurd rfl h
  | null => exact absurd rfl h
  | char slot => exact ⟨_, fun _ => rfl, rfl, hknown 'c'.toUInt8 (by decide)⟩
  | percent => exact ⟨_, fun _ => rfl, rfl, hknown '%'.toUInt8 (by decide)⟩

lemma length_body_le (t : TextArg) (precision : Option ℤ) :
    (t.body precision).length ≤ (t.body none).length := by
  cases precision with
  | none => rfl
  | some n =>
    cases t with
    | str s => exact List.length_take_le' _ _
    | null => exact List.length_take_le' _ _
    | char slot => rfl
    | percent => rfl

end TextArg

namespace Directive

variable (d : Directive)

/-- The text of a directive without a number, where the stars take the numbers `w` and `p`.  The
flag `0` fills the width up with zeros. -/
def shown (w p : ℤ) (t : TextArg) : List UInt8 :=
  layout (d.left w) (d.has '0') (d.width.value w).natAbs [] (t.body (d.digits p))

/-! ## Reading -/

/-- The settings of a directive whose conversion leaves the flag `0` alone, the modifier aside. -/
structure Settings (w p : ℤ) (args : TArgs) : Prop where
  flag : args.flag = flagBits (d.left w) (d.has '+') (d.has '#') (d.has ' ') (d.has '0')
  width : args.width = int32 |d.width.value w|
  precision : d.IsPrecision args.precision (d.digits p)
  spec : args.spec = d.spec

/-- The scanners find them, unless the precision is a star. -/
lemma settings_args (hstar : d.precision ≠ some .star) (hmem : d.spec ∉ cstr "diouxXpb") (w p : ℤ) :
    d.Settings w p (d.args w) := by
  have hfilled : d.filled 0 = d.has '0' := by
    rw [filled, decide_eq_false hmem, Bool.and_false, Bool.not_false, Bool.and_true]
  refine ⟨?_, rfl, ?_, rfl⟩
  · rw [args, hfilled]
  · rw [digits_of_ne_star hstar]
    show d.IsPrecision ((d.digits 0).getD (if d.spec = 'f'.toUInt8 then 6 else -1)) (d.digits 0)
    cases d.digits 0 with
    | some n => rfl
    | none =>
      rw [IsPrecision, Option.getD_none]
      split_ifs
      · rfl
      · exact neg_one_lt_zero

/-- A conversion without a number gets them whatever the precision. -/
lemma scanDirective_settings {t : TextArg} (hspec : d.spec = t.spec) (wslot pslot : ℕ)
    (rest : List UInt8) (va : List VaArg) :
    ∃ r, scanDirective (d.text ++ rest) (d.stars wslot pslot ++ va) = some r ∧
      d.Settings (toInt wslot) (toInt pslot) r.args ∧ r.specIndex = d.before.length ∧
        r.typesList = va := by
  obtain ⟨hf, hspace, hdigits, hmem⟩ := t.spec_other
  rw [← hspec] at hf hspace hdigits hmem
  by_cases hstar : d.precision = some .star
  · have hprecision : getPrecision (d.precisionText ++ d.behind rest) (d.prepared (toInt wslot))
        (d.precision.elim [] (Amount.slots pslot) ++ va) =
          ({ d.prepared (toInt wslot) with precision := toInt pslot },
            '*'.toUInt8 :: d.behind rest, va) := by
      rw [precisionText, hstar]
      show getPrecision ('.'.toUInt8 :: '*'.toUInt8 :: d.behind rest) (d.prepared (toInt wslot))
        (.word pslot :: va) = _
      have hconversion : ftContains DIOUXXPB (d.prepared (toInt wslot)).spec = false := hdigits
      have hfloat : (d.prepared (toInt wslot)).spec ≠ 'f'.toUInt8 := hf
      have hnumber : ftIsdigit '*'.toUInt8 = false := by decide
      rw [getPrecision, if_pos rfl, vaArgPrecision, List.head?_cons, if_pos rfl]
      simp only [vaWord, hfloat, false_and, if_false, hconversion, Bool.false_eq_true, and_false,
        List.dropWhile_cons, hnumber]
    have hvalue : d.digits (toInt pslot) =
        if 0 ≤ toInt pslot then some (toInt pslot) else none := by
      rw [digits, hstar]
      simp [Amount.value, Option.filter]
    refine ⟨_, d.scanDirective_prepared wslot pslot rest va hprecision, ⟨rfl, rfl, ?_, rfl⟩, rfl,
      rfl⟩
    rw [hvalue]
    split_ifs with hneg
    · exact rfl
    · rw [IsPrecision, if_neg hf]
      exact not_le.mp hneg
  · have hread : d.precision = some .absent → ftAtoll (d.behind rest) = 0 := fun _ =>
      d.ftAtoll_behind (fun _ => hspace) rest
    exact ⟨_, d.scanDirective_text hstar hread wslot pslot va, d.settings_args hstar hmem _ _, rfl,
      rfl⟩

/-! ## Arranging -/

end Directive

/-- `ft_string` arranges a text in the width. -/
lemma ftString_layout {args : TArgs} {w : ℕ} {minus zero : Bool} (hwidth : args.width = w)
    (hw : w < 2 ^ 31) (hminus : args.has MASK_MINUS = minus)
    (hzero : args.has MASK_ZERO = (zero && !minus)) (hlen : args.result.length < 2 ^ 31) :
    (ftString args).result = layout minus zero w [] args.result := by
  have hint : int32 args.result.length = args.result.length :=
    int32_of_mem (by omega) (by exact_mod_cast hlen)
  have hpad := padd_fill args.result hw hlen
  unfold ftString
  dsimp only
  rw [hint, hwidth]
  by_cases hgt : (w : ℤ) > args.result.length
  · rw [if_pos hgt, hminus, hzero, hpad, hpad, hpad]
    cases minus <;> cases zero <;> simp [layout]
  · rw [if_neg hgt, layout_fill (by simp only [List.length_nil]; omega), List.nil_append]

/-- `ft_print_c` arranges its character in the width. -/
lemma padd_layout (c : UInt8) {w : ℕ} (hpos : 0 < w) (minus zero : Bool) :
    padd [c] (w - 1) (if (zero && !minus) = true then '0' else ' ') (!minus) =
      layout minus zero w [] [c] := by
  have hrest : ((w : ℤ) - 1).toNat = w - 1 := by omega
  unfold padd layout
  rw [hrest]
  cases minus <;> cases zero <;> simp

/-- `is_s` takes the beginning of a text. -/
lemma ftPrecision_string {d : Directive} {args : TArgs} {precision : Option ℤ}
    (hspec : d.spec = 's'.toUInt8) (hargs : args.spec = 's'.toUInt8)
    (hprecision : d.IsPrecision args.precision precision)
    (hnonneg : ∀ n ∈ precision, 0 ≤ n) (hlen : args.result.length < 2 ^ 31) :
    ftPrecision args = { args with
      result := precision.elim args.result fun n => args.result.take n.toNat } := by
  have hint : int32 args.result.length = args.result.length :=
    int32_of_mem (by omega) (by exact_mod_cast hlen)
  cases precision with
  | none =>
    have hneg : args.precision < 0 := by
      rw [Directive.IsPrecision, if_neg (by rw [hspec]; decide)] at hprecision
      exact hprecision
    have hother : ftContains "poubxX" args.spec = false ∧ ftContains "id" args.spec = false := by
      rw [hargs]
      decide
    unfold ftPrecision
    simp [not_le.mpr hneg, hother.1, hother.2]
  | some n =>
    have hn : args.precision = n := hprecision
    have hpos : 0 ≤ n := hnonneg n rfl
    have hstring : args.spec = 's'.toUInt8 ∧ 0 ≤ args.precision := ⟨hargs, hn ▸ hpos⟩
    have htake : (if n = 0 then []
        else if n < args.result.length then args.result.take n.toNat
        else args.result) = args.result.take n.toNat := by
      split_ifs with hzero hlt
      · rw [hzero]
        rfl
      · rfl
      · exact (List.take_of_length_le (by omega)).symm
    rw [ftPrecision]
    dsimp only
    rw [if_pos hstring, isS, hint, hn, htake]
    rfl

/-! ## The conversions -/

namespace Directive

variable {d : Directive} {w p : ℤ} {args : TArgs}

lemma Settings.has_minus (h : d.Settings w p args) : args.has MASK_MINUS = d.left w := by
  rw [TArgs.has, h.flag]
  exact (has_flagBits _ _ _ _ _).1

lemma Settings.has_zero (h : d.Settings w p args) :
    args.has MASK_ZERO = (d.has '0' && !d.left w) := by
  rw [TArgs.has, h.flag]
  exact (has_flagBits _ _ _ _ _).2.2.2.2

/-- The width is an `int`. -/
lemma Settings.width_spec (h : d.Settings w p args)
    (hwidth : int32 |d.width.value w| = |d.width.value w|) :
    args.width = ((d.width.value w).natAbs : ℤ) ∧ (d.width.value w).natAbs < 2 ^ 31 := by
  have hlt := (int32_le |d.width.value w|).2
  rw [hwidth] at hlt
  refine ⟨by rw [h.width, hwidth, Int.natCast_natAbs], ?_⟩
  have hcast : ((d.width.value w).natAbs : ℤ) = |d.width.value w| := Int.natCast_natAbs _
  omega

lemma digits_nonneg (d : Directive) (p : ℤ) : ∀ n ∈ d.digits p, 0 ≤ n := by
  intro n hn
  exact of_decide_eq_true (Option.mem_filter_iff.mp hn).2

section Conversions

variable (h : d.Settings w p args) (hwidth : int32 |d.width.value w| = |d.width.value w|)

include h hwidth

lemma length_shown_lt {t : TextArg} (hlen : (t.body none).length < 2 ^ 31) :
    (d.shown w p t).length < 2 ^ 31 := by
  have hlt := (h.width_spec hwidth).2
  have hbody := (t.length_body_le (d.digits p)).trans_lt hlen
  rw [shown, length_layout, List.length_nil, Nat.zero_add]
  exact max_lt hlt hbody

lemma ftPrintS_shown {t : TextArg} (hspec : d.spec = 's'.toUInt8) (ht : t.spec = 's'.toUInt8)
    (hlen : (t.body none).length < 2 ^ 31) (var : TVars) (va : List VaArg) :
    ftPrintS args { var with typesList := t.taken ++ va } =
      ({ var with typesList := va }.put (d.shown w p t)) := by
  obtain ⟨hw, hlt⟩ := h.width_spec hwidth
  have hargs : args.spec = 's'.toUInt8 := h.spec.trans hspec
  obtain ⟨htaken, hrest, hbody⟩ := t.string_spec ht va (d.digits p)
  rw [← TVars.putstr_of_lt _ (length_shown_lt h hwidth hlen)]
  unfold ftPrintS
  dsimp only
  rw [htaken, hrest, TVars.indexed_of_lt _ hlen]
  split_ifs with hplain
  · -- neither a width nor a precision
    simp only [TArgs.plain, Bool.and_eq_true, decide_eq_true_iff] at hplain
    obtain ⟨⟨-, hzero⟩, hnone⟩ := hplain
    have hprecision := h.precision
    have hnonneg := d.digits_nonneg p
    rw [hw] at hzero
    cases hdigits : d.digits p with
    | none =>
      rw [shown, hdigits, layout_fill (by rw [Int.natCast_eq_zero.mp hzero]; exact Nat.zero_le _),
        List.nil_append]
    | some n =>
      rw [hdigits] at hprecision hnonneg
      have hn : args.precision = n := hprecision
      have hpos : 0 ≤ n := hnonneg n rfl
      omega
  · have hstring : ftPrecision { args with result := t.body none } = _ :=
      ftPrecision_string hspec hargs h.precision (d.digits_nonneg p) hlen
    have hle : (t.body (d.digits p)).length < 2 ^ 31 := (t.length_body_le _).trans_lt hlen
    have hlayout : (ftString { args with result := t.body (d.digits p) }).result = _ :=
      ftString_layout hw hlt h.has_minus h.has_zero hle
    rw [hstring, ← hbody, ftWidth, if_neg (by rw [hargs]; decide), if_pos hargs, hlayout, shown]

lemma ftPrintC_shown {t : TextArg} (ht : t.spec ≠ 's'.toUInt8) (hspec : d.spec = t.spec)
    (var : TVars) (va : List VaArg) :
    ftPrintC args { var with typesList := t.taken ++ va } =
      ({ var with typesList := va }.put (d.shown w p t)) := by
  obtain ⟨hw, hlt⟩ := h.width_spec hwidth
  obtain ⟨c, hbody, htaken, hknown⟩ := t.char_spec ht va
  have hargs : args.spec = t.spec := h.spec.trans hspec
  unfold ftPrintC
  dsimp only
  rw [hargs, htaken, if_pos hknown, h.has_minus, h.has_zero, hw]
  by_cases hzero : ((d.width.value w).natAbs : ℤ) ≤ 0
  · rw [if_pos hzero, shown, hbody, layout_fill (by omega), List.nil_append]
  · have hpos : 0 < (d.width.value w).natAbs := by omega
    have hcount : max (d.width.value w).natAbs (0 + 1) = (d.width.value w).natAbs := by omega
    rw [if_neg hzero, shown, hbody, TVars.put, length_layout, List.length_nil,
      List.length_singleton, hcount, padd_layout c hpos]

end Conversions

/-- The conversion that `manage_args` comes to. -/
lemma manageArgs_shown {t : TextArg} (h : d.Settings w p args) (hspec : d.spec = t.spec)
    (hwidth : int32 |d.width.value w| = |d.width.value w|)
    (hlen : (t.body none).length < 2 ^ 31) (printF : TArgs → TVars → TVars) (var : TVars)
    (va : List VaArg) :
    manageArgs printF args { var with typesList := t.taken ++ va } =
      ({ var with typesList := va }.put (d.shown w p t)) := by
  have hspecs : ∀ c ∈ cstr "sc%", ftContains "id" c = false ∧ ftContains "poubxX" c = false ∧
      c ≠ 'f'.toUInt8 := forall_mem_of_all (by decide)
  obtain ⟨hid, hpoubx, hf⟩ := hspecs t.spec t.spec_mem
  have hargs : args.spec = t.spec := h.spec.trans hspec
  unfold manageArgs
  rw [hargs, if_neg (by simp [hid]), if_neg (by simp [hpoubx]), if_neg hf]
  by_cases hs : t.spec = 's'.toUInt8
  · rw [if_pos hs, ftPrintS_shown h hwidth (hspec.trans hs) hs hlen]
  · rw [if_neg hs, ftPrintC_shown h hwidth hs hspec]

/-- **The round of the loop at a conversion without a number.** -/
lemma ftPrintfHelper_textDirective {t : TextArg} (hspec : d.spec = t.spec) {wslot pslot : ℕ}
    (hwidth : ¬(d.width = .star ∧ toInt wslot = -2 ^ 31)) (hlen : (t.body none).length < 2 ^ 31)
    (printF : TArgs → TVars → TVars) (rest : List UInt8) {var : TVars} {va : List VaArg}
    (hvar : var.typesList = d.stars wslot pslot ++ (t.taken ++ va)) :
    ftPrintfHelper printF 0 ('%'.toUInt8 :: (d.text ++ rest)) var =
      ftPrintfHelper printF 0 rest
        ({ var with typesList := va }.put (d.shown (toInt wslot) (toInt pslot) t)) := by
  obtain ⟨r, hscan, hsettings, hindex, htypes⟩ :=
    d.scanDirective_settings hspec wslot pslot rest (t.taken ++ va)
  have hdrop : (d.text ++ rest).drop (d.before.length + 1) = rest := by
    have hlength : d.before.length + 1 = d.text.length := by
      rw [text, List.length_append, List.length_singleton]
    rw [hlength, List.drop_left]
  rw [← hvar] at hscan
  rw [ftPrintfHelper_scanned printF var hscan, hindex, hdrop, htypes,
    manageArgs_shown hsettings hspec ((int32_width_iff wslot).mpr hwidth) hlen]

end Directive

end FtNm
