import FtNm.Properties.Support.DirectiveScan

/-!
# The reading of a directive

Five scanners share the cursor `j` of a directive, and each has to consume its own part, the
arguments of the stars included.  `FollowsGrammar` says that together they read what is written,
and that the cursor ends on the specifier.

They do for every directive of the grammar, but for three kinds:

* `va_arg_precision` takes the argument of a precision `*` and leaves the cursor on the star, so
  that neither a modifier nor the specifier behind it is reached;
* the least `int` has no absolute value to take for a width;
* a point with a blank specifier behind it has `ft_atoll` skip the specifier, and read a number
  of the text that follows the directive.

`followsGrammar_iff` says that these are the exceptions.
-/

namespace FtNm

namespace Directive

variable (d : Directive)

/-- Whether `x` stands for a precision, where a negative number is none and `f` has a default. -/
def IsPrecision (x : ℤ) : Option ℤ → Prop
  | some n => x = n
  | none => if d.spec = 'f'.toUInt8 then x = 6 else x < 0

/-- The scanners have read the directive in front of `rest`, where the stars take the numbers `w`
and `p` and leave the arguments `va`.  The flags are those that are written, less the ones that C
has another part of the directive override. -/
structure IsReading (w p : ℤ) (rest : List UInt8) (va : List VaArg) (r : Scanned) : Prop where
  flag : r.args.flag =
    flagBits (d.left w) (d.has '+') (d.has '#') (d.has ' ') (d.filled p)
  width : r.args.width = |d.width.value w|
  precision : d.IsPrecision r.args.precision (d.digits p)
  modifier : r.args.modifier = d.modifier.mask
  spec : r.args.spec = d.spec
  specIndex : r.specIndex = d.before.length
  cursor : r.cursor = d.spec :: rest
  typesList : r.typesList = va

/-- What the scanners find is what is written. -/
def FollowsGrammar (wslot pslot : ℕ) (rest : List UInt8) (va : List VaArg) : Prop :=
  ∃ r, scanDirective (d.text ++ rest) (d.stars wslot pslot ++ va) = some r ∧
    d.IsReading (toInt wslot) (toInt pslot) rest va r

variable {d} {wslot pslot : ℕ} {rest : List UInt8} {va : List VaArg}

/-! ## Stars for a precision -/

/-- The cursor stays on the star. -/
lemma cursor_of_star (h : d.precision = some .star) {r : Scanned}
    (hscan : scanDirective (d.text ++ rest) (d.stars wslot pslot ++ va) = some r) :
    r.cursor = '*'.toUInt8 :: d.behind rest := by
  have htext : d.precisionText ++ d.behind rest = '.'.toUInt8 :: '*'.toUInt8 :: d.behind rest := by
    rw [precisionText, h]
    rfl
  rcases hprecision : getPrecision (d.precisionText ++ d.behind rest) (d.prepared (toInt wslot))
    (d.precision.elim [] (Amount.slots pslot) ++ va) with ⟨args, cursor, va'⟩
  rw [d.scanDirective_prepared wslot pslot rest va hprecision] at hscan
  have hcursor : cursor = '*'.toUInt8 :: d.behind rest := by
    rw [htext] at hprecision
    exact (congrArg (fun scanned => scanned.2.1) hprecision).symm.trans (getPrecision_dot _ _ _)
  obtain rfl := Option.some.inj hscan
  rw [hcursor]
  rfl

lemma not_followsGrammar_of_star (h : d.precision = some .star) :
    ¬d.FollowsGrammar wslot pslot rest va := by
  rintro ⟨r, hscan, hreading⟩
  have hcursor := hreading.cursor.symm.trans (cursor_of_star h hscan)
  exact d.spec_ne_of_mem (by decide) (List.cons.inj hcursor).1

/-- A precision that is no star takes no argument. -/
lemma digits_of_ne_star (h : d.precision ≠ some .star) (p : ℤ) : d.digits p = d.digits 0 := by
  unfold digits
  cases hprecision : d.precision with
  | none => rfl
  | some amount =>
    cases amount with
    | absent | number => rfl
    | star => exact absurd hprecision h

/-! ## Numbers behind a blank -/

/-- A point with no number behind it gets what `ft_atoll` reads there. -/
lemma precision_of_absent (h : d.precision = some .absent) (hf : d.spec ≠ 'f'.toUInt8)
    {r : Scanned}
    (hscan : scanDirective (d.text ++ rest) (d.stars wslot pslot ++ va) = some r) :
    r.args.precision = ftAtoll (d.behind rest) := by
  have htext : d.precisionText ++ d.behind rest = '.'.toUInt8 :: d.behind rest := by
    rw [precisionText, h]
    rfl
  have hhead : (d.behind rest).head? ≠ some '*'.toUInt8 := fun hc =>
    absurd (d.head_behind rest _ hc).1 (by decide)
  rcases hprecision : getPrecision (d.precisionText ++ d.behind rest) (d.prepared (toInt wslot))
    (d.precision.elim [] (Amount.slots pslot) ++ va) with ⟨args, cursor, va'⟩
  rw [d.scanDirective_prepared wslot pslot rest va hprecision] at hscan
  rw [htext] at hprecision
  obtain rfl := Option.some.inj hscan
  exact (congrArg (fun scanned => scanned.1.precision) hprecision).symm.trans
    (getPrecision_precision hhead hf _)

lemma ftAtoll_of_followsGrammar (h : d.FollowsGrammar wslot pslot rest va)
    (hprecision : d.precision = some .absent) (hmodifier : d.modifier = .integer .absent)
    (hspace : ftIsspace d.spec = true) : ftAtoll rest = 0 := by
  obtain ⟨r, hscan, hreading⟩ := h
  have hf : d.spec ≠ 'f'.toUInt8 := fun hc => absurd hspace (by rw [hc]; decide)
  have hdigits : d.digits (toInt pslot) = some 0 := by rw [digits, hprecision]; rfl
  have hread := hreading.precision
  rw [precision_of_absent hprecision hf hscan, hdigits,
    d.ftAtoll_behind_space hmodifier hspace] at hread
  exact hread

/-! ## The exceptions -/

/-- The width is an `int`, unless it is the absolute value of the least one. -/
lemma int32_width_iff (w : ℕ) : int32 |d.width.value (toInt w)| = |d.width.value (toInt w)| ↔
    ¬(d.width = .star ∧ toInt w = -2 ^ 31) := by
  obtain ⟨hle, hlt⟩ := toInt_mem w
  cases hwidth : d.width with
  | absent => simp [Amount.value, int32]
  | number n =>
    have hn := n.text_lt
    have habs : int32 |((decimalValue n.text : ℕ) : ℤ)| = |((decimalValue n.text : ℕ) : ℤ)| := by
      rw [Nat.abs_cast]
      exact int32_of_mem (by omega) (by exact_mod_cast hn)
    exact iff_of_true habs (by simp)
  | star =>
    rw [Amount.value]
    constructor
    · rintro hint ⟨-, hmin⟩
      have hbound := (int32_le |toInt w|).2
      rw [hint, hmin] at hbound
      exact absurd hbound (by norm_num)
    · intro hmin
      have hgt : -2 ^ 31 < toInt w := lt_of_le_of_ne hle fun h => hmin ⟨rfl, h.symm⟩
      exact int32_of_mem (by have := abs_nonneg (toInt w); omega) (abs_lt.mpr ⟨hgt, hlt⟩)

/-- What the conversion is given is what is written. -/
lemma isReading_args (hstar : d.precision ≠ some .star) (p : ℤ)
    (hwidth : int32 |d.width.value (toInt wslot)| = |d.width.value (toInt wslot)|) :
    d.IsReading (toInt wslot) p rest va {
      args := d.args (toInt wslot)
      specIndex := d.before.length
      cursor := d.spec :: rest
      typesList := va } where
  flag := by rw [filled, digits_of_ne_star hstar]; rfl
  width := hwidth
  precision := by
    rw [digits_of_ne_star hstar]
    show d.IsPrecision ((d.digits 0).getD (if d.spec = 'f'.toUInt8 then 6 else -1)) (d.digits 0)
    cases d.digits 0 with
    | some n => rfl
    | none =>
      rw [IsPrecision, Option.getD_none]
      split_ifs <;> simp
  modifier := rfl
  spec := rfl
  specIndex := rfl
  cursor := rfl
  typesList := rfl

/-- **Directives.**  The scanners read what is written exactly if the precision is no star, the
least `int` is not given for a width, and no number behind a blank specifier is taken for the
precision. -/
theorem followsGrammar_iff (d : Directive) (wslot pslot : ℕ) (rest : List UInt8)
    (va : List VaArg) : d.FollowsGrammar wslot pslot rest va ↔
      d.precision ≠ some .star ∧ ¬(d.width = .star ∧ toInt wslot = -2 ^ 31) ∧
        (d.precision = some .absent → d.modifier = .integer .absent →
          ftIsspace d.spec = true → ftAtoll rest = 0) := by
  have hread (hblank : d.precision = some .absent → d.modifier = .integer .absent →
      ftIsspace d.spec = true → ftAtoll rest = 0) (hprecision : d.precision = some .absent) :
      ftAtoll (d.behind rest) = 0 := by
    by_cases hspace : d.modifier = .integer .absent ∧ ftIsspace d.spec = true
    · rw [d.ftAtoll_behind_space hspace.1 hspace.2]
      exact hblank hprecision hspace.1 hspace.2
    · refine d.ftAtoll_behind (fun hmodifier => ?_) rest
      exact Bool.eq_false_iff.mpr fun h => hspace ⟨hmodifier, h⟩
  constructor
  · intro h
    have hstar : d.precision ≠ some .star := fun hstar => not_followsGrammar_of_star hstar h
    have hblank := ftAtoll_of_followsGrammar h
    refine ⟨hstar, (int32_width_iff wslot).mp ?_, hblank⟩
    obtain ⟨r, hscan, hreading⟩ := h
    rw [d.scanDirective_text hstar (hread hblank)] at hscan
    obtain rfl := Option.some.inj hscan
    exact hreading.width
  · rintro ⟨hstar, hmin, hblank⟩
    exact ⟨_, d.scanDirective_text hstar (hread hblank) wslot pslot va,
      isReading_args hstar _ ((int32_width_iff wslot).mpr hmin)⟩

/-- The directive `%.*ld`. -/
def starLong : Directive where
  flags := []
  width := .absent
  precision := some .star
  modifier := .integer .l
  spec := 'd'.toUInt8
  flags_mem := fun _ h => absurd h List.not_mem_nil
  width_head := by decide
  spec_not_mem := by decide
  spec_ne := by decide

/-- With the precision three and the number one behind it, the cursor stays on the star, and the
modifier is missed. -/
theorem not_followsGrammar_starLong : ¬starLong.FollowsGrammar 0 3 [] [.word 1] := by
  rintro ⟨r, hscan, hreading⟩
  have hmodifier : (scanDirective (starLong.text ++ []) (starLong.stars 0 3 ++ [.word 1])).map
      (fun r => r.args.modifier) = some 0 := by decide
  rw [hscan] at hmodifier
  have hmask : r.args.modifier = MASK_L := hreading.modifier
  rw [Option.map_some, hmask] at hmodifier
  exact absurd hmodifier (by decide)

end Directive

end FtNm
