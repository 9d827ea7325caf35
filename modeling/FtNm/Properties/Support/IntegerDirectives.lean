import FtNm.Properties.Support.DirectiveScan

/-!
# The directives of C

A directive with an integer conversion of C is a phrase of the grammar without stars, so what
`DirectiveScan` says of the scanners holds of it.  `ftPrintfHelper_text` is the round of the loop
at such a directive: the conversion gets exactly the flags, width, precision and modifier that
are written.
-/

namespace FtNm

/-! ## Specifiers -/

namespace IntConversion

/-- The sets of specifiers that the code asks for, on the conversions of C. -/
@[simp] lemma contains_id (c : IntConversion) : ftContains "id" c.spec = c.signed := by
  cases c <;> decide

@[simp] lemma contains_poubxX (c : IntConversion) : ftContains "poubxX" c.spec = !c.signed := by
  cases c <;> decide

@[simp] lemma contains_ouxX (c : IntConversion) : ftContains "ouxX" c.spec = !c.signed := by
  cases c <;> decide

@[simp] lemma contains_diuf (c : IntConversion) :
    ftContains "diuf" c.spec = decide (c.base = 10) := by
  cases c <;> decide

@[simp] lemma contains_pxXob (c : IntConversion) :
    ftContains "pxXob" c.spec = !decide (c.base = 10) := by
  cases c <;> decide

/-- The specifiers that are none of C's integer conversions. -/
lemma spec_other (c : IntConversion) : c.spec ≠ 'f'.toUInt8 ∧ c.spec ≠ 's'.toUInt8 ∧
    c.spec ≠ 'p'.toUInt8 ∧ c.spec ≠ 'b'.toUInt8 := by
  cases c <;> decide

lemma ftIsspace_spec (c : IntConversion) : ftIsspace c.spec = false := by
  cases c <;> decide

lemma spec_inj (c c' : IntConversion) : c.spec = c'.spec ↔ c = c' := by
  cases c <;> cases c' <;> decide

lemma base_of_signed {c : IntConversion} (h : c.signed = true) : c.base = 10 := by
  revert h
  cases c <;> decide

lemma eq_u {c : IntConversion} (h : c.signed = false) (hbase : c.base = 10) : c = .u := by
  revert h hbase
  cases c <;> decide

end IntConversion

/-! ## As phrases of the grammar -/

/-- Digits that may be missing. -/
def Amount.ofDigits (s : List UInt8) (hdigits : ∀ c ∈ s, IsDigit c)
    (hlt : decimalValue s < 2 ^ 31) : Amount :=
  if h : s = [] then .absent else .number ⟨s, h, hdigits, hlt⟩

section OfDigits

variable {s : List UInt8} (hdigits : ∀ c ∈ s, IsDigit c) (hlt : decimalValue s < 2 ^ 31)

@[simp] lemma Amount.text_ofDigits : (Amount.ofDigits s hdigits hlt).text = s := by
  unfold ofDigits
  split_ifs with h
  · exact h.symm
  · rfl

@[simp] lemma Amount.value_ofDigits (taken : ℤ) :
    (Amount.ofDigits s hdigits hlt).value taken = decimalValue s := by
  unfold ofDigits
  split_ifs with h
  · rw [h]
    rfl
  · rfl

@[simp] lemma Amount.slots_ofDigits (slot : ℕ) :
    (Amount.ofDigits s hdigits hlt).slots slot = [] := by
  unfold ofDigits
  split_ifs <;> rfl

lemma Amount.ofDigits_ne_star : Amount.ofDigits s hdigits hlt ≠ .star := by
  unfold ofDigits
  split_ifs <;> exact fun h => Amount.noConfusion h

end OfDigits

namespace IntDirective

variable (d : IntDirective)

/-- What the conversion of a directive is given. -/
def args : TArgs where
  flag := flagBits (d.has '-') (d.has '+') (d.has '#') (d.has ' ')
    (d.has '0' && d.precision.isNone)
  width := decimalValue d.width
  precision := d.precision.elim (-1) fun s => decimalValue s
  spec := d.conversion.spec
  modifier := d.modifier.mask
  result := []
  unsignEd := 0

lemma flags_subset (c : IntConversion) : ∀ x ∈ c.flags, x ∈ cstr "-+#0 " := by
  cases c <;> exact forall_mem_of_all (by decide)

/-- A directive of C as a phrase of the grammar. -/
def toDirective : Directive where
  flags := d.flags
  width := .ofDigits d.width d.width_digits d.width_lt
  precision := d.precision.pmap
    (fun s (h : (∀ c ∈ s, IsDigit c) ∧ decimalValue s < 2 ^ 31) => .ofDigits s h.1 h.2)
    fun s hs => ⟨d.precision_digits s hs, d.precision_lt s hs⟩
  modifier := .integer d.modifier
  spec := d.conversion.spec
  flags_mem := fun c hc => flags_subset d.conversion c (d.flags_mem c hc)
  width_head := by
    rw [Amount.text_ofDigits]
    exact d.width_head
  spec_not_mem := by cases d.conversion <;> decide
  spec_ne := by cases d.conversion <;> decide

lemma toDirective_precision_text :
    d.toDirective.precision.elim [] ('.'.toUInt8 :: ·.text) =
      d.precision.elim [] ('.'.toUInt8 :: ·) := by
  obtain ⟨_, _, precision, _, _, _, _, _, _, _, _⟩ := d
  cases precision <;> simp [toDirective]

lemma toDirective_text : d.toDirective.text = d.text := by
  rw [Directive.text, Directive.before, toDirective_precision_text]
  simp [toDirective, text, Modifier.text]

lemma toDirective_stars : d.toDirective.stars 0 0 = [] := by
  obtain ⟨_, _, precision, _, _, _, _, _, _, _, _⟩ := d
  cases precision <;> simp [toDirective, Directive.stars]

lemma toDirective_digits :
    d.toDirective.digits 0 = d.precision.map fun s => (decimalValue s : ℤ) := by
  obtain ⟨_, _, precision, _, _, _, _, _, _, _, _⟩ := d
  cases precision <;> simp [toDirective, Directive.digits]

lemma toDirective_precision : d.toDirective.precision ≠ some .star := by
  obtain ⟨_, _, precision, _, _, _, _, _, _, _, _⟩ := d
  cases precision with
  | none => exact fun h => nomatch h
  | some s => exact fun h => Amount.ofDigits_ne_star _ _ (Option.some.inj h)

/-- What the scanners hand over is what the conversion is given. -/
lemma toDirective_args : d.toDirective.args 0 = d.args := by
  have hspec : d.toDirective.spec ∈ cstr "diouxXpb" := by
    show d.conversion.spec ∈ cstr "diouxXpb"
    cases d.conversion <;> decide
  have hvalue : d.toDirective.width.value 0 = decimalValue d.width := Amount.value_ofDigits _ _ 0
  have hwidth : int32 |d.toDirective.width.value 0| = decimalValue d.width := by
    have hlt := d.width_lt
    rw [hvalue, Nat.abs_cast]
    exact int32_of_mem (by omega) (by exact_mod_cast hlt)
  have hleft : d.toDirective.left 0 = d.has '-' := by
    have hnonneg : ¬((decimalValue d.width : ℕ) : ℤ) < 0 := by omega
    rw [Directive.left, hvalue, decide_eq_false hnonneg, Bool.or_false]
    rfl
  have hfilled : d.toDirective.filled 0 = (d.has '0' && d.precision.isNone) := by
    rw [Directive.filled, toDirective_digits, Option.isSome_map, decide_eq_true hspec,
      Bool.and_true, Option.not_isSome]
    rfl
  have hprecision : (d.toDirective.digits 0).getD
      (if d.toDirective.spec = 'f'.toUInt8 then 6 else -1) =
        d.precision.elim (-1) fun s => (decimalValue s : ℤ) := by
    have hdefault : d.toDirective.spec ≠ 'f'.toUInt8 := d.conversion.spec_other.1
    rw [toDirective_digits, if_neg hdefault]
    cases d.precision <;> rfl
  rw [Directive.args, hleft, hfilled, hwidth, hprecision]
  rfl

/-- The round of the loop at a directive. -/
lemma ftPrintfHelper_text (printF : TArgs → TVars → TVars) (rest : List UInt8) (var : TVars) :
    ftPrintfHelper printF 0 ('%'.toUInt8 :: (d.text ++ rest)) var =
      ftPrintfHelper printF 0 rest (manageArgs printF d.args var) := by
  have hread : d.toDirective.precision = some .absent →
      ftAtoll (d.toDirective.behind rest) = 0 := fun _ =>
    d.toDirective.ftAtoll_behind (fun _ => d.conversion.ftIsspace_spec) rest
  have hscan := d.toDirective.scanDirective_text d.toDirective_precision hread 0 0 var.typesList
  have hdrop : (d.text ++ rest).drop (d.toDirective.before.length + 1) = rest := by
    have hlength : d.toDirective.before.length + 1 = d.text.length := by
      rw [← toDirective_text, Directive.text, List.length_append]
      rfl
    rw [hlength, List.drop_left]
  have hzero : toInt 0 = 0 := rfl
  rw [toDirective_text, toDirective_stars, List.nil_append, hzero, toDirective_args] at hscan
  rw [ftPrintfHelper_scanned printF var hscan, hdrop]

/-! ## The flags of a directive -/

lemma args_has_minus : d.args.has MASK_MINUS = d.has '-' := (has_flagBits _ _ _ _ _).1

lemma args_has_plus : d.args.has MASK_PLUS = d.has '+' := (has_flagBits _ _ _ _ _).2.1

lemma args_has_hash : d.args.has MASK_HASH = d.has '#' := (has_flagBits _ _ _ _ _).2.2.1

lemma args_has_space : d.args.has MASK_SPACE = (d.has ' ' && !d.has '+') :=
  (has_flagBits _ _ _ _ _).2.2.2.1

lemma args_has_zero :
    d.args.has MASK_ZERO = (d.has '0' && d.precision.isNone && !d.has '-') :=
  (has_flagBits _ _ _ _ _).2.2.2.2

end IntDirective

end FtNm
