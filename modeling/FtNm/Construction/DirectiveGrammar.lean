import FtNm.Construction.CPrintf
import FtNm.Construction.FtPrintf

/-!
# The grammar of a directive

What may stand behind a `%`, whatever the conversion:

    flags* (digits | '*')? ('.' (digits | '*')?)? (hh | h | l | ll | L | j | z)? specifier

and what it says.  Nothing here is translated from `ft_printf`; the scanners of `ft_printf` are
compared with it.

* `Directive` is a phrase of the grammar, `Directive.text` how it is written and
  `Directive.stars` the arguments that its stars take, from left to right.
* `Directive.left`, `Directive.filled`, `Amount.value` and `Directive.digits` are what it says,
  for the numbers that the stars take: a negative width asks for `-` and its absolute value, a
  negative precision is none at all, and a precision takes the flag `0` from the conversions
  that have digits.

The flag `0` cannot be told from a leading zero of the width, and is read as the flag.  Any
character that no other part of a directive is made of can be the specifier.
-/

namespace FtNm

/-! ## Numbers and stars -/

/-- A number of a directive. -/
structure Number where
  text : List UInt8
  text_ne : text ≠ []
  text_digits : ∀ c ∈ text, IsDigit c
  text_lt : decimalValue text < 2 ^ 31
  deriving DecidableEq

/-- What stands for a width or a precision. -/
inductive Amount
  | absent
  | number (n : Number)
  | star
  deriving DecidableEq

namespace Amount

/-- How it is written. -/
def text : Amount → List UInt8
  | .absent => []
  | .number n => n.text
  | .star => cstr "*"

/-- What it comes to, where a star takes the number `taken`. -/
def value (taken : ℤ) : Amount → ℤ
  | .absent => 0
  | .number n => decimalValue n.text
  | .star => taken

/-- The argument that it takes, out of the slot of an `int`. -/
def slots (slot : ℕ) : Amount → List VaArg
  | .star => [.word slot]
  | _ => []

end Amount

/-- A length modifier: one of the integer conversions, or the one of the floats. -/
inductive Modifier
  | integer (m : LengthModifier)
  | L
  deriving DecidableEq, Repr

/-- How a modifier is written. -/
def Modifier.text : Modifier → List UInt8
  | .integer m => m.text
  | .L => cstr "L"

/-! ## Directives -/

/-- A directive, behind its `%`. -/
structure Directive where
  flags : List UInt8
  width : Amount
  precision : Option Amount
  modifier : Modifier
  spec : UInt8
  flags_mem : ∀ c ∈ flags, c ∈ cstr "-+#0 "
  width_head : width.text.head? ≠ some '0'.toUInt8
  spec_not_mem : spec ∉ cstr "-+#* .0123456789jzhlL"
  spec_ne : spec ≠ 0

namespace Directive

variable (d : Directive)

/-- What stands in front of the specifier. -/
def before : List UInt8 :=
  d.flags ++ d.width.text ++ d.precision.elim [] ('.'.toUInt8 :: ·.text) ++ d.modifier.text

/-- How a directive is written. -/
def text : List UInt8 := d.before ++ [d.spec]

/-- The arguments that the stars take, for the slots of a width and of a precision. -/
def stars (wslot pslot : ℕ) : List VaArg :=
  d.width.slots wslot ++ d.precision.elim [] (Amount.slots pslot)

/-- Whether a flag is given. -/
def has (flag : Char) : Bool := flag.toUInt8 ∈ d.flags

/-- Whether the text goes to the left, where a width of stars is `w`. -/
def left (w : ℤ) : Bool := d.has '-' || d.width.value w < 0

/-- The precision, if there is one, where a precision of stars is `p`. -/
def digits (p : ℤ) : Option ℤ := (d.precision.map (Amount.value p)).filter (0 ≤ ·)

/-- Whether the flag `0` is given, and not taken back by a precision. -/
def filled (p : ℤ) : Bool :=
  d.has '0' && !((d.digits p).isSome && decide (d.spec ∈ cstr "diouxXpb"))

end Directive

end FtNm
