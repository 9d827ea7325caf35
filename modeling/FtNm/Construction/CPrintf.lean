import FtNm.Construction.Libft
import FtNm.Framework.Numeral

/-!
# The integer conversions of C

What the C standard says of a directive with the conversion `d`, `i`, `u`, `o`, `x` or `X`.
Nothing here is translated from `ft_printf`; it is what `ft_printf` is compared with.

* `IntDirective` is a directive that C defines: the flags of its conversion, a width and a
  precision of digits, one length modifier.  `IntDirective.text` is how it is written.
* `cText` is the text that it prints for an argument.  The precision is the least number of
  digits, one unless it is given, and zero itself has none.  A sign, a space or `0x` comes in
  front, and the width is filled up with blanks on one side or with zeros between the two.
-/

namespace FtNm

open Numeral

/-! ## Directives -/

/-- A length modifier. -/
inductive LengthModifier
  | absent | hh | h | l | ll | j | z
  deriving DecidableEq, Repr

/-- An integer conversion. -/
inductive IntConversion
  | d | i | u | o | x | X
  deriving DecidableEq, Repr

/-- How a modifier is written. -/
def LengthModifier.text : LengthModifier → List UInt8
  | .absent => []
  | .hh => cstr "hh"
  | .h => cstr "h"
  | .l => cstr "l"
  | .ll => cstr "ll"
  | .j => cstr "j"
  | .z => cstr "z"

/-- The number of bits of the argument's type, where `int` has 32 and `long` has 64. -/
def LengthModifier.bits : LengthModifier → ℕ
  | .hh => 8
  | .h => 16
  | .absent => 32
  | .l | .ll | .j | .z => 64

namespace IntConversion

/-- The specifier of a conversion. -/
def spec : IntConversion → UInt8
  | .d => 'd'.toUInt8
  | .i => 'i'.toUInt8
  | .u => 'u'.toUInt8
  | .o => 'o'.toUInt8
  | .x => 'x'.toUInt8
  | .X => 'X'.toUInt8

/-- Whether the argument is signed. -/
def signed : IntConversion → Bool
  | .d | .i => true
  | _ => false

/-- The base of the digits. -/
def base : IntConversion → ℕ
  | .o => 8
  | .x | .X => 16
  | _ => 10

/-- A digit, in upper case for `X`. -/
def digit (c : IntConversion) (d : ℕ) : UInt8 :=
  (cstr (if c = .X then "0123456789ABCDEF" else "0123456789abcdef")).getD d 0

/-- The flags that C defines for the conversion. -/
def flags (c : IntConversion) : List UInt8 :=
  cstr (if c = .o ∨ c = .x ∨ c = .X then "-+ 0#" else "-+ 0")

end IntConversion

/-- A decimal digit. -/
def IsDigit (c : UInt8) : Prop := c ∈ cstr "0123456789"

instance decidableIsDigit (c : UInt8) : Decidable (IsDigit c) :=
  inferInstanceAs (Decidable (c ∈ _))

/-- The number that decimal digits stand for. -/
def decimalValue (s : List UInt8) : ℕ := s.foldl (fun n c => n * 10 + (c.toNat - '0'.toNat)) 0

/-- A directive with an integer conversion, behind its `%`. -/
structure IntDirective where
  flags : List UInt8
  width : List UInt8
  precision : Option (List UInt8)
  modifier : LengthModifier
  conversion : IntConversion
  flags_mem : ∀ c ∈ flags, c ∈ conversion.flags
  width_digits : ∀ c ∈ width, IsDigit c
  width_head : width.head? ≠ some '0'.toUInt8
  width_lt : decimalValue width < 2 ^ 31
  precision_digits : ∀ s ∈ precision, ∀ c ∈ s, IsDigit c
  precision_lt : ∀ s ∈ precision, decimalValue s < 2 ^ 31

namespace IntDirective

variable (d : IntDirective)

/-- How a directive is written. -/
def text : List UInt8 :=
  d.flags ++ d.width ++ (d.precision.elim [] ('.'.toUInt8 :: ·)) ++ d.modifier.text ++
    [d.conversion.spec]

/-- Whether a flag is given. -/
def has (flag : Char) : Bool := flag.toUInt8 ∈ d.flags

/-! ## What is printed -/

/-- The argument in a slot, in the type that the conversion and the modifier ask for. -/
def value (slot : ℕ) : ℤ :=
  if d.conversion.signed then (slot : ℤ).bmod (2 ^ d.modifier.bits)
  else (slot % 2 ^ d.modifier.bits : ℕ)

/-- What comes in front of the digits: a sign or a space, or the prefix of the base. -/
def lead (value : ℤ) : List UInt8 :=
  if d.conversion.signed then
    if value < 0 then cstr "-"
    else if d.has '+' then cstr "+"
    else if d.has ' ' then cstr " "
    else []
  else if value ≠ 0 ∧ d.has '#' then
    match d.conversion with
    | .x => cstr "0x"
    | .X => cstr "0X"
    | _ => []
  else []

/-- The digits: at least as many as the precision, and in octal with a zero in front if that is
asked for. -/
def digits (magnitude : ℕ) : List UInt8 :=
  let s := padLeft '0'.toUInt8 ((d.precision.map decimalValue).getD 1)
    (numeral d.conversion.base d.conversion.digit magnitude)
  if d.conversion = .o ∧ d.has '#' ∧ s.head? ≠ some '0'.toUInt8 then '0'.toUInt8 :: s else s

/-- **The text of a directive.** -/
def cText (slot : ℕ) : List UInt8 :=
  let lead := d.lead (d.value slot)
  let digits := d.digits (d.value slot).natAbs
  let fill := decimalValue d.width - (lead.length + digits.length)
  if d.has '-' then lead ++ digits ++ List.replicate fill ' '.toUInt8
  else if d.has '0' ∧ d.precision = none then
    lead ++ List.replicate fill '0'.toUInt8 ++ digits
  else List.replicate fill ' '.toUInt8 ++ lead ++ digits

end IntDirective

end FtNm
