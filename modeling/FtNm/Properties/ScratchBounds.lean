import FtNm.Properties.Support.FloatRounding

/-!
# The scratch strings of `%f`

Three routines of the `f` conversion store into blocks of their own, at indices that are
precisions and lengths of digit strings.  `ScratchInBounds` says that every one of these stores
is inside its block and that every string handed to `sum_string` still ends in its block.

This is so for most numbers and precisions, but not for all of them:

* `ft_strndup` increments its index once more before it stores the terminator, which only
  numbers with a zero mantissa get to see;
* `split_float_parts` extends the fraction only if the precision is larger than its length, so
  for equality the five of `is_roundable` is stored over the terminator;
* the length of the extended fraction need not be an `int`.

`scratchInBounds_iff` says that these are the exceptions.
-/

namespace FtNm

open AccessLog

/-- Every store is inside its block, and every string ends inside its block. -/
def ScratchInBounds (x : FiniteNumber) (p : Precision) : Prop :=
  (splitFloatParts x.bits p.1 >>= ftFround p.1).All BlockUse.InBounds

variable {x : FiniteNumber} {p : Precision}

/-! ## The mantissa -/

/-- The terminator of `ft_strndup` is stored behind the block. -/
lemma ftStrndup_overruns (s : List UInt8) (times : ℕ) :
    ∃ u ∈ (ftStrndup s times).log, ¬u.InBounds := by
  refine ⟨.store (s.length * times + 1) (s.length * times + 1 : ℕ),
    List.mem_append_right _ (List.mem_singleton_self _), ?_⟩
  rintro ⟨-, hindex⟩
  exact absurd hindex (lt_irrefl _)

/-- A number without fraction bits, such as a power of two, goes through `ft_strndup`. -/
lemma not_scratchInBounds_of_zero (h : x.bits.mantissa = 0) : ¬ScratchInBounds x p := by
  obtain ⟨u, hu, hout⟩ := ftStrndup_overruns (cstr "0") 63
  have hmantissa : u ∈ (getMantissa x.bits).log := by
    rw [getMantissa, if_neg (not_not.mpr h)]
    exact Run.mem_log_bind hu _
  exact fun hall => hout (hall u (Run.mem_log_bind (Run.mem_log_bind hmantissa _) _))

/-! ## The fraction -/

lemma not_scratchInBounds_of_not_extends (h : ¬x.Extends p.1) : ¬ScratchInBounds x p := by
  have hsplit := splitFloatParts_finishes (P := fun _ => True) (fun _ => trivial) x
    (fun _ _ _ => trivial) p.1
  obtain ⟨⟨u, hu, hout⟩, -⟩ := hsplit.breaks (x.ftFround_splitParts_breaks p.2 h)
  exact fun hall => hout (hall u hu)

/-- **Scratch strings.**  They stay in bounds exactly for the numbers that have fraction bits,
with a precision that is not the number of their decimal places and to which these can be
extended. -/
theorem scratchInBounds_iff (x : FiniteNumber) (p : Precision) :
    ScratchInBounds x p ↔ x.bits.mantissa ≠ 0 ∧ x.Extends p.1 := by
  constructor
  · intro h
    exact ⟨fun hzero => not_scratchInBounds_of_zero hzero h,
      by_contra fun hext => not_scratchInBounds_of_not_extends hext h⟩
  · rintro ⟨hmantissa, hext⟩
    have hsplit := splitFloatParts_finishes inBounds_block x
      (fun hzero => absurd hzero hmantissa) p.1
    have hround := x.ftFround_splitParts_finishes (fun _ h => h) hext
    exact (hsplit.bind_eq hround).1

/-- The number one. -/
def FiniteNumber.one : FiniteNumber where
  bits := ⟨0, true, 16383, false, zero_mantissa_lt, by norm_num⟩
  finite := by norm_num
  normal := .inl rfl

/-- `printf("%f", 1.0)`: the terminator of the mantissa is stored behind its block. -/
theorem not_scratchInBounds_one : ¬ScratchInBounds .one (.ofFin 6) :=
  not_scratchInBounds_of_zero rfl

end FtNm
