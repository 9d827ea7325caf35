import FtNm.Construction.DecimalStrings
import FtNm.Construction.FtPrintf
import FtNm.Framework.AccessLog

/-!
# The number-to-text converters, store by store

`libft/ft_utoa.c`, `ft_ltoa.c` and `ft_atoll.c`, with `ft_printf/src/shift_bits.c`.
`Construction/FtPrintf.lean` has the texts that these functions return.  Here are the blocks that
they allocate and the stores that they fill them with: each counts the digits in one loop and
writes them, the last one first, in another.

* `Block` is an allocated block, and the memory that it lies in: a store that misses the block
  still changes a cell.
* `Stores.ftUtoa`, `Stores.ftLtoa` and `Stores.shiftBits` log the index of every store with the
  size of the block that it is meant for.
* `ftAtoll64` is `ft_atoll` before its callers convert the result to `int`.

Allocation succeeds.
-/

namespace FtNm

open AccessLog

/-! ## Blocks -/

/-- The store of a character at an index of a block of `size` bytes. -/
structure CharStore where
  size : ℕ
  index : ℤ
  deriving DecidableEq, Repr

/-- A block of `size` bytes, and the memory around it, counted from its start. -/
structure Block where
  size : ℕ
  cell : ℤ → UInt8

/-- A computation that fills blocks. -/
abbrev Filling := Run CharStore Empty

/-- `block[index] = c`. -/
def Block.put (b : Block) (index : ℤ) (c : UInt8) : Filling Block :=
  .touch [⟨b.size, index⟩] { b with cell := Function.update b.cell index c }

/-- `ft_memalloc`, in a memory that holds `heap`. -/
def ftMemalloc (heap : ℤ → UInt8) (size : ℕ) : Block where
  size := size
  cell i := if 0 ≤ i ∧ i < size then 0 else heap i

/-- `ft_strnew`. -/
def ftStrnew (heap : ℤ → UInt8) (size : ℕ) : Block := ftMemalloc heap (size + 1)

/-- `ft_strcpy`, from the index `i` on. -/
def ftStrcpy : List UInt8 → (i : ℤ) → Block → Filling Block
  | [], i, b => b.put i 0
  | c :: src, i, b => do
    let b ← b.put i c
    ftStrcpy src (i + 1) b

/-! ## `ft_utoa` -/

/-- The first loop of `conversion`. -/
def countChars (temp nbrChars : ℕ) : ℕ :=
  if _h : temp = 0 then nbrChars else countChars (temp / 10) (nbrChars + 1)
termination_by temp
decreasing_by omega

/-- The second loop of `conversion`. -/
def conversionLoop (n : ℕ) (i : ℤ) (b : Block) : Filling Block :=
  if _h : n = 0 then pure b
  else do
    let b ← b.put i (digitByte (n % 10))
    conversionLoop (n / 10) (i - 1) b
termination_by n
decreasing_by omega

namespace Stores

/-- `conversion`. -/
def conversion (heap : ℤ → UInt8) (n nbrChars : ℕ) : Filling Block := do
  let nbrChars := countChars n nbrChars
  let b ← (ftMemalloc heap nbrChars).put nbrChars 0
  conversionLoop n (nbrChars - 1) b

/-- `ft_utoa`. -/
def ftUtoa (heap : ℤ → UInt8) (n : ℕ) : Filling Block :=
  if n = 0 then ftStrcpy (cstr "0") 0 (ftMemalloc heap 2) else conversion heap n 0

end Stores

/-! ## `ft_ltoa` and `shift_bits` -/

/-- The loop that both end with: `len` digits of `nbr` are stored behind the first `start`
cells, `last` being the last digit and `rest` the number without it. -/
def fill (start : ℕ) (last : ℕ → UInt8) (rest : ℕ → ℕ) :
    (len nbr : ℕ) → Block → Filling Block
  | 0, _, b => pure b
  | len + 1, nbr, b => do
    let b ← b.put (start + len : ℕ) (last nbr)
    fill start last rest len (rest nbr) b

/-- `nb_length`. -/
def nbLength (nb : ℤ) : ℕ := if _h : nb.tdiv 10 = 0 then 1 else nbLength (nb.tdiv 10) + 1
termination_by nb.natAbs
decreasing_by
  have hdiv : (nb.tdiv 10).natAbs = nb.natAbs / 10 := Int.natAbs_tdiv nb 10
  omega

namespace Stores

/-- `ft_ltoa`; the product with `-1` is converted to an unsigned number. -/
def ftLtoa (heap : ℤ → UInt8) (n : ℤ) : Filling Block := do
  let isNeg := if n < 0 then 1 else 0
  let digits := nbLength n
  let number := ftStrnew heap (digits + isNeg)
  let (number, nbr) ← (if n < 0 then do
      let number ← number.put 0 '-'.toUInt8
      pure (number, ((n * -1) % 2 ^ 64).toNat)
    else pure (number, n.toNat))
  fill isNeg (fun nbr => digitByte (nbr % 10)) (· / 10) digits nbr number

/-- `shift_bits`. -/
def shiftBits (heap : ℤ → UInt8) (nbr mask shift : ℕ) (hshift : 0 < shift) : Filling Block :=
  let len := nbaseLength shift hshift nbr
  fill 0 (fun nbr => digitChar (nbr &&& mask)) (· >>> shift) len nbr (ftStrnew heap len)

end Stores

/-! ## `ft_atoll` -/

/-- The conversion to `long long`, and its arithmetic. -/
def int64 (x : ℤ) : ℤ := x.bmod (2 ^ 64)

/-- `ascii_to_int`. -/
def asciiToInt64 : List UInt8 → (result : ℤ) → ℤ
  | [], result => result
  | c :: cs, result =>
    if ftIsdigit c then asciiToInt64 cs (int64 (result * 10 + (c.toNat - '0'.toNat))) else result

/-- `ft_atoll`. -/
def ftAtoll64 (s : List UInt8) : ℤ :=
  match s.dropWhile ftIsspace with
  | [] => 0
  | c :: cs =>
    if c = '-'.toUInt8 then int64 (asciiToInt64 cs 0 * -1)
    else if c = '+'.toUInt8 then asciiToInt64 cs 0
    else asciiToInt64 (c :: cs) 0

end FtNm
