import FtNm.Construction.Libft

/-!
# Arithmetic on decimal strings

`libft/ft_printf/src/sum_string.c`, `multiply_string.c` and `ft_large_pow.c`: the big numbers
behind `%f`, as strings of decimal digits.

* `sumString` adds from the last digits on, with a carry.
* `multiplyString` is the school method: a row for every digit of the second factor, added into
  one buffer that starts out as zeros, and the leading zeros stripped at the end.
* `ftLargePow` squares and multiplies.

Both loops run on `int` lengths and cursors.  A length that an `int` does not hold is converted
as the machine does it, and the loops then see fewer digits than there are.  `none` is a run that
has no result: a signed overflow, the copy of a string whose `int` subscript overflows, or a
block with no room for its terminator.

The strings consist of digits, so `digitVal` subtracts natural numbers.
-/

namespace FtNm

/-- `c - '0'`. -/
def digitVal (c : UInt8) : ℕ := c.toNat - '0'.toNat

/-- `d + '0'`. -/
def digitByte (d : ℕ) : UInt8 := UInt8.ofNat (d + '0'.toNat)

/-! ## Copies -/

/-- `ft_strdup`; the subscript of `ft_strcpy` is an `int`. -/
def ftStrdup (s : List UInt8) : Option (List UInt8) := if s.length < 2 ^ 31 then some s else none

/-- `ft_strjoin` and `ft_strjoin_free`; the subscripts of `ft_strcpy` and `ft_strcat` are of type
`int`. -/
def ftStrjoin (s1 s2 : List UInt8) : Option (List UInt8) :=
  if s1.length < 2 ^ 31 ∧ s2.length < 2 ^ 31 then some (s1 ++ s2) else none

/-- `ft_strsub`, where it does not return `NULL`. -/
def ftStrsub (s : List UInt8) (start len : ℤ) : Option (List UInt8) :=
  if 0 ≤ start ∧ 0 ≤ len ∧ start + len ≤ s.length ∧ len < 2 ^ 31 then
    some ((s.drop start.toNat).take len.toNat)
  else none

/-! ## Addition -/

/-- The digits that the cursor `ft_strlen(num) - 1` still has to go through, the next one
first. -/
def cursor (num : List UInt8) : List UInt8 :=
  (num.take (int32 (num.length - 1) + 1).toNat).reverse

/-- The loop of `sum_string`. -/
def sumStringLoop (num1 num2 : List UInt8) (carry : ℕ) (strSum : List UInt8) :
    Option (List UInt8) :=
  if num1 = [] ∧ num2 = [] ∧ carry = 0 then some strSum
  else
    let sum := carry
    let sum := sum + (num1.head?.map digitVal).getD 0
    let sum := sum + (num2.head?.map digitVal).getD 0
    let modulo := [digitByte (sum % 10)]
    (ftStrjoin modulo strSum).bind (sumStringLoop num1.tail num2.tail (sum / 10))
termination_by (num1.length + num2.length, carry)
decreasing_by
  rcases num1 with - | ⟨c, num1⟩ <;> rcases num2 with - | ⟨d, num2⟩
  all_goals simp_wf
  all_goals grind

/-- `sum_string`. -/
def sumString (num1 num2 : List UInt8) : Option (List UInt8) :=
  sumStringLoop (cursor num1) (cursor num2) 0 []

/-! ## Multiplication -/

/-- The inner loop of `ft_multiply` for the digit `d` of the second factor, with `j` digits of
the first one left, and the store of the carry behind it. -/
def multiplyRow (num1 : List UInt8) (d : ℕ) : (j k carry : ℕ) → List UInt8 → List UInt8
  | 0, k, carry, res => if carry > 0 then res.set k (digitByte carry) else res
  | j + 1, k, carry, res =>
    let sum := d * digitVal (num1.getD j 0) + carry + digitVal (res.getD k 0)
    multiplyRow num1 d j (k - 1) (sum / 10) (res.set k (digitByte (sum % 10)))

/-- The outer loop of `ft_multiply`, with `i` digits of the second factor left. -/
def ftMultiply (num1 num2 : List UInt8) (len1 len2 len : ℕ) : (i : ℕ) → List UInt8 → List UInt8
  | 0, res => res
  | i + 1, res =>
    let k := len - (len2 - i)
    ftMultiply num1 num2 len1 len2 len i
      (multiplyRow num1 (digitVal (num2.getD i 0)) len1 k 0 res)

/-- The size that `multiply_string` computes is an `int` and has room for the terminator. -/
def ProductFits (len1 len2 : ℤ) : Prop := 0 < len1 + len2 + 1 ∧ len1 + len2 + 1 < 2 ^ 31

instance (len1 len2 : ℤ) : Decidable (ProductFits len1 len2) :=
  inferInstanceAs (Decidable (_ ∧ _))

/-- `multiply_string`. -/
def multiplyString (num1 num2 : List UInt8) : Option (List UInt8) :=
  let len1 := int32 num1.length
  let len2 := int32 num2.length
  if ProductFits len1 len2 then
    let len := (len1 + len2).toNat
    let res := List.replicate len '0'.toUInt8
    let res := ftMultiply num1 num2 len1.toNat len2.toNat len len2.toNat res
    (ftStrdup res).bind fun num1 => ftStrdup (num1.dropWhile (· = '0'.toUInt8))
  else none

/-- `ft_large_pow`. -/
def ftLargePow (pow : ℕ) (nb : List UInt8) : Option (List UInt8) :=
  if _h : pow = 0 then ftStrdup (cstr "1")
  else
    (ftLargePow (pow / 2) nb).bind fun tmp =>
      if pow % 2 = 0 then multiplyString tmp tmp
      else (multiplyString tmp tmp).bind fun square => multiplyString square nb
termination_by pow
decreasing_by omega

end FtNm
