import FtNm.Construction.DecimalStrings
import FtNm.Construction.FtPrintf
import FtNm.Framework.AccessLog

/-!
# The `f` conversion

`libft/ft_printf/src/ft_print_f.c` and `split_float.c`, with `ft_strndup.c` and `ft_strsub.c`
from `libft/`: the text of a floating-point number.

* `FloatBits` is the 80-bit representation that a double is converted to, field by field.
* `getMantissa` writes the fraction bits as a decimal, `splitFloatParts` multiplies by the power
  of two and cuts the digits at the point, `ftFround` rounds them, `joinDotToDecimal` puts them
  together.  `ftPrintFloat` is `ft_print_f`.

Three routines store into a block that they have allocated, at an index that they compute:
`ftStrndup`, `isRoundable` and `ftFround`.  These stores are logged with the size of the block,
and so is every block that is handed to `sum_string` as a string.  A run goes on after a store
that misses its block, and stops where nothing can be said about what comes next.
-/

namespace FtNm

open AccessLog

/-! ## The number -/

/-- `t_floatbits`. -/
structure FloatBits where
  mantissa : ℕ
  bit : Bool
  exponent : ℕ
  sign : Bool
  mantissa_lt : mantissa < 2 ^ 63
  exponent_lt : exponent < 2 ^ 15
  deriving DecidableEq, Repr

/-- `args->decimal` and `args->fract`. -/
structure FloatParts where
  decimal : List UInt8
  fract : List UInt8
  deriving DecidableEq, Repr

/-! ## Blocks -/

/-- What the routines do with the blocks they allocate: a store at an index of a block of `size`
bytes, or passing the block to `sum_string`. -/
inductive BlockUse
  | store (size : ℕ) (index : ℤ)
  | passed (block : List UInt8)
  deriving DecidableEq, Repr

/-- Why a run stopped: C does not say what happens. -/
inductive Undefined
  | undefined
  deriving DecidableEq, Repr

abbrev FloatRun := Run BlockUse Undefined

/-- A step that may have no result. -/
def defined {α : Type} : Option α → FloatRun α
  | some a => pure a
  | none => .stop .undefined

/-- The block of a string that has just been allocated for it. -/
def block (s : List UInt8) : List UInt8 := s ++ [0]

/-- `sum_string` on two blocks, which it reads up to their terminators. -/
def sumBlocks (num1 num2 : List UInt8) : FloatRun (List UInt8) := do
  .touch [.passed num1, .passed num2] ()
  if 0 ∈ num1 ∧ 0 ∈ num2 then
    defined (sumString (num1.takeWhile (· ≠ 0)) (num2.takeWhile (· ≠ 0)))
  else .stop .undefined

/-- `ft_strndup`: the copies, and the terminator behind the last of them. -/
def ftStrndup (s : List UInt8) (times : ℕ) : FloatRun (List UInt8) :=
  let len := s.length
  let size := len * times + 1
  let copies := (List.range (len * times)).map fun i : ℕ => .store size i
  .touch (copies ++ [.store size (len * times + 1)]) (List.replicate times s).flatten

/-- `padd`, with the `int` subscripts of the copies it makes. -/
def paddCopy (element : List UInt8) (rest : ℤ) (c : Char) (left : Bool) : Option (List UInt8) :=
  if rest ≤ 0 then ftStrdup element
  else
    let fill := List.replicate rest.toNat c.toUInt8
    if left then ftStrjoin fill element else ftStrjoin element fill

/-- Where the subscripts are in range, it is `padd`. -/
lemma paddCopy_eq (element : List UInt8) {rest : ℤ} (hrest : rest < 2 ^ 31) (c : Char)
    (left : Bool) : paddCopy element rest c left =
      if element.length < 2 ^ 31 then some (padd element rest c left) else none := by
  have hfill : (List.replicate rest.toNat c.toUInt8).length < 2 ^ 31 := by
    rw [List.length_replicate]
    omega
  unfold paddCopy padd
  by_cases hnone : rest ≤ 0
  · rw [if_pos hnone, ftStrdup, Int.toNat_of_nonpos hnone]
    cases left <;> simp
  · rw [if_neg hnone]
    cases left <;>
      simp only [ftStrjoin, hfill, true_and, and_true, if_true, Bool.false_eq_true, if_false]

/-! ## The decimal expansion -/

/-- The loop of `get_mantissa`, with `k` of its 63 rounds left. -/
def mantissaLoop (umantiss : ℕ) : (k i : ℕ) → List UInt8 → FloatRun (List UInt8)
  | 0, _, mantiss => pure mantiss
  | k + 1, i, mantiss => do
    let mantiss ← (if (umantiss >>> (62 - i)) &&& 1 ≠ 0 then do
        let res ← defined (ftLargePow (i + 1) (cstr "5"))
        sumBlocks (block mantiss) (block res)
      else pure mantiss)
    let mantiss ← (if i < 62 then defined (ftStrjoin mantiss (cstr "0")) else pure mantiss)
    mantissaLoop umantiss k (i + 1) mantiss

/-- `get_mantissa`. -/
def getMantissa (bits : FloatBits) : FloatRun (List UInt8) := do
  let mantiss ← (if bits.mantissa ≠ 0 then mantissaLoop bits.mantissa 63 0 (cstr "0")
    else ftStrndup (cstr "0") 63)
  defined (ftStrjoin (cstr (if bits.bit then "1" else "0")) mantiss)

/-- `save_parts`. -/
def saveParts (mantiss : List UInt8) (mbIsset : Bool) (e : ℤ) : Option FloatParts :=
  let mtslen := int32 mantiss.length
  if e < 0 ∧ mbIsset then do
    let e := |mtslen - 63 + e|
    let fract ← paddCopy mantiss e '0' true
    let decimal ← ftStrdup (cstr "0")
    pure ⟨decimal, fract⟩
  else do
    let e := mtslen - 63
    let decimal ← ftStrsub mantiss 0 e
    let fract ← ftStrdup (mantiss.drop e.toNat)
    pure ⟨decimal, fract⟩

/-- `split_float_parts`. -/
def splitFloatParts (bits : FloatBits) (precision : ℤ) : FloatRun FloatParts := do
  let e : ℤ := bits.exponent - 16383
  let mantiss ← getMantissa bits
  let mbIsset := bits.mantissa ≠ 0 || bits.bit
  let mantiss ← (if mbIsset then do
      let tmp ← defined (ftLargePow e.natAbs (cstr (if e < 0 then "5" else "2")))
      defined (multiplyString tmp mantiss)
    else pure mantiss)
  let parts ← defined (saveParts mantiss mbIsset e)
  if precision > int32 parts.fract.length then do
    let fract ← defined (paddCopy parts.fract (int32 (precision + 1)) '0' false)
    pure { parts with fract := fract }
  else pure parts

/-! ## Rounding -/

/-- `is_roundable`: the parts, of which it may round the decimal one itself, and the block of the
number that is to be added to the fraction. -/
def isRoundable (precision flen : ℤ) (parts : FloatParts) :
    FloatRun (FloatParts × Option (List UInt8)) :=
  -- a negative length is a huge one for `ft_strnew`, which returns `NULL`
  if flen < 0 then do
    .touch [.store 0 0] ()
    .stop .undefined
  else do
    let size := flen.toNat + 1
    let zeros := (List.range flen.toNat).map fun i : ℕ => .store size i
    .touch (zeros ++ [.store size precision]) ()
    let s := (block (List.replicate flen.toNat '0'.toUInt8)).set precision.toNat '5'.toUInt8
    -- the read of `fract[precision]`
    if 0 ≤ precision ∧ precision ≤ parts.fract.length then
      if parts.fract[precision.toNat]? = some '5'.toUInt8 then
        let i := precision + 1
        let zeros := (parts.fract.drop i.toNat).takeWhile (· = '0'.toUInt8)
        if i + zeros.length = flen then
          let lastDigit := digitVal (parts.decimal.getLastD '0'.toUInt8)
          if lastDigit % 2 ≠ 0 then do
            let decimal ← sumBlocks (block parts.decimal) (block (cstr "1"))
            pure ({ parts with decimal := decimal }, none)
          else pure (parts, none)
        else pure (parts, some s)
      else pure (parts, some s)
    else .stop .undefined

/-- `ft_fround`. -/
def ftFround (precision : ℤ) (parts : FloatParts) : FloatRun FloatParts := do
  let flen := int32 parts.fract.length
  let (parts, s) ← isRoundable precision flen parts
  match s with
  | none => pure parts
  | some s => do
    let fract ← defined (ftStrdup parts.fract)
    let fsum ← sumBlocks s (block fract)
    let slen := int32 fsum.length
    let parts ← (if slen > flen then do
        let carry ← defined (ftStrsub fsum 0 (slen - flen))
        let decimal ← sumBlocks (block carry) (block parts.decimal)
        let fract ← defined (ftStrdup (fsum.drop (slen - flen).toNat))
        pure ⟨decimal, fract⟩
      else pure { parts with fract := fsum })
    .touch [.store (parts.fract.length + 1) precision] ()
    pure { parts with fract := parts.fract.take precision.toNat }

/-! ## The text -/

/-- `join_dot_to_decimal` for a number that has its two parts. -/
def joinDotToDecimal (hash : Bool) (precision : ℤ) (sign : Bool) (parts : FloatParts) :
    Option (List UInt8) := do
  let mantiss ← (if hash ∨ precision ≠ 0 then do
      let mantiss ← ftStrjoin parts.decimal (cstr ".")
      ftStrjoin mantiss parts.fract
    else ftStrdup parts.decimal)
  if sign then ftStrjoin (cstr "-") mantiss else pure mantiss

/-- `args->mantiss` as `ft_print_f` hands it to `ft_width`. -/
def floatText (args : TArgs) (bits : FloatBits) : FloatRun (List UInt8) :=
  if bits.exponent = 2 ^ 15 - 1 then
    if bits.mantissa ≠ 0 then pure (cstr "nan")
    else pure (cstr (if bits.sign then "-inf" else "inf"))
  else do
    let parts ← splitFloatParts bits args.precision
    let parts ← ftFround args.precision parts
    defined (joinDotToDecimal (args.has MASK_HASH) args.precision bits.sign parts)

/-- `ft_putstr`, with its `int` subscript. -/
def putstrRun (var : TVars) (s : List UInt8) : FloatRun TVars :=
  if s.length < 2 ^ 31 then pure (var.putstr s) else .stop .undefined

/-- `ft_print_f` on a number of which `bits` is the representation. -/
def ftPrintFloat (args : TArgs) (bits : FloatBits) (var : TVars) : FloatRun TVars := do
  let mantiss ← floatText args bits
  let args := ftWidth { args with result := mantiss }
  putstrRun var args.result

end FtNm
