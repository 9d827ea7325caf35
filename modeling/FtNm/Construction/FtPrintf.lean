import FtNm.Construction.Libft

/-!
# `ft_printf`

`libft/ft_printf/`: the formatter that every line of output goes through.

A format is a C string and a cursor into it is the suffix that starts there, so `str[j]` is
the head of the suffix and the NUL is the empty one.  The four scanners of a directive each
consume their own part of the suffix; `ftPrintfHelper` keeps the outer cursor `i` and jumps
behind the specifier by skipping characters.

* `getSpecifier`, `getFlags`, `getWidth`, `getPrecision`, `getModifier` are the scanners of
  `parse.c` and `ft_printf.c`; `scanDirective` is what they leave behind, one after the other.
* `ftPrintD`, `ftPrintPoubx`, `ftPrintS`, `ftPrintC` are the conversions, with the padding of
  `ft_precision.c` and `ft_width.c` and the digit strings of `shift_bits.c`, `ft_utoa.c` and
  `ft_ltoa.c`.
* `setColor` is the literal text, with the colour tags of `color.c`.

A number among the arguments is its slot.  Lengths and paddings are computed in `int`, as the
source does; the counter is the sum of what is added to it.  The big-decimal code behind `%f`
is a parameter: `ftPrintF` is `ft_print_f` over it.  No format of `ft_nm` reaches it, so
`ftPrintf` halts there (`noFloat`).  A directive without a specifier halts the run too, since
the source then walks past the NUL of the format.

Strings are copied and written with an `int` for a subscript.  A run that comes to one of `2 ^ 31`
bytes is marked (`tooLong`), and the mark stays.  The strings that `padd`, `ft_strjoin` and
`ft_strsub` make on the way are parts of the one that the conversion hands to `ft_putstr`
(`length_le_ftPrecision`, `length_le_ftWidth`), so `putstr` asks for all of them at once; only the
argument of `%s`, of which a precision keeps a part, is asked for where it is copied.
-/

namespace FtNm

/-! ## State -/

def MASK_MINUS : ℕ := 1 <<< 0
def MASK_PLUS : ℕ := 1 <<< 1
def MASK_HASH : ℕ := 1 <<< 2
def MASK_SPACE : ℕ := 1 <<< 3
def MASK_ZERO : ℕ := 1 <<< 4
def MASK_H : ℕ := 1 <<< 5
def MASK_HH : ℕ := 1 <<< 6
def MASK_L : ℕ := 1 <<< 7
def MASK_LL : ℕ := 1 <<< 8
def MASK_J : ℕ := 1 <<< 9
def MASK_Z : ℕ := 1 <<< 10
def MASK_UPL : ℕ := 1 <<< 12

/-- A variadic argument: the slot of a number, a C string, or the null pointer. -/
inductive VaArg
  | word (w : ℕ)
  | str (s : List UInt8)
  | null
  deriving DecidableEq, Repr

/-- `va_arg` of a number, as the whole slot. -/
def vaWord : List VaArg → ℕ × List VaArg
  | .word w :: rest => (w, rest)
  | _ :: rest => (0, rest)
  | [] => (0, [])

/-- `va_arg` of type `char *`. -/
def vaStr : List VaArg → Option (List UInt8) × List VaArg
  | .str s :: rest => (some s, rest)
  | .null :: rest => (none, rest)
  | _ :: rest => (some [], rest)
  | [] => (some [], [])

/-- `t_args`, the fields of the integer, character and string conversions. -/
structure TArgs where
  flag : ℕ
  width : ℤ
  precision : ℤ
  spec : UInt8
  modifier : ℕ
  result : List UInt8
  unsignEd : ℕ
  deriving DecidableEq, Repr

/-- `initialize_args`. -/
def initializeArgs : TArgs where
  flag := 0
  width := 0
  precision := -1
  spec := 0
  modifier := 0
  result := []
  unsignEd := 0

/-- Whether a flag or modifier bit is set. -/
def TArgs.has (args : TArgs) (mask : ℕ) : Bool := args.flag &&& mask ≠ 0

/-- Why a run ended before the end of its format. -/
inductive Halt
  | overrun
  | float
  deriving DecidableEq, Repr

/-- `t_vars`: the counter, the bytes written so far and the arguments not yet taken.  Once a
subscript has left the range of `int` (`tooLong`), C says nothing about the other fields. -/
structure TVars where
  counter : ℤ
  out : List UInt8
  typesList : List VaArg
  halt : Option Halt
  tooLong : Bool := false
  deriving DecidableEq, Repr

namespace TVars

variable (var : TVars) (s : List UInt8)

/-- The string `s` is gone through with an `int`, up to its NUL. -/
def indexed : TVars := { var with tooLong := var.tooLong || decide (2 ^ 31 ≤ s.length) }

/-- `counter += ft_putchar(c)`, for the characters of `s`. -/
def put : TVars := { var with counter := var.counter + s.length, out := var.out ++ s }

/-- `counter += ft_putstr(s)`. -/
def putstr : TVars := (var.indexed s).put s

variable {s}

lemma indexed_of_lt (h : s.length < 2 ^ 31) : var.indexed s = var := by
  rw [indexed, decide_eq_false (not_le.mpr h), Bool.or_false]

lemma putstr_of_lt (h : s.length < 2 ^ 31) : var.putstr s = var.put s := by
  rw [putstr, indexed_of_lt var h]

lemma put_put (t : List UInt8) : (var.put s).put t = var.put (s ++ t) := by
  simp [put, Int.add_assoc]

end TVars

/-! ## The scanners of a directive -/

/-- `get_specifier`: how many characters precede the specifier, and the specifier. -/
def getSpecifier : List UInt8 → Option (ℕ × UInt8)
  | [] => none
  | c :: cs =>
    if ftContains "-+#* .jzhlL" c || ftContains "0123456789" c then
      (getSpecifier cs).map fun p => (p.1 + 1, p.2)
    else some (0, c)

/-- One round of the loop of `get_flags`. -/
def flagStep (flag : ℕ) (c : UInt8) : ℕ :=
  let flag :=
    if c = '-'.toUInt8 then
      let flag := flag ||| MASK_MINUS
      if flag &&& MASK_ZERO ≠ 0 then flag ^^^ MASK_ZERO else flag
    else flag
  let flag := if c = '0'.toUInt8 ∧ flag &&& MASK_MINUS = 0 then flag ||| MASK_ZERO else flag
  let flag := if c = '#'.toUInt8 then flag ||| MASK_HASH else flag
  let flag :=
    if c = '+'.toUInt8 then
      let flag := flag ||| MASK_PLUS
      if flag &&& MASK_SPACE ≠ 0 then flag ^^^ MASK_SPACE else flag
    else flag
  if c = ' '.toUInt8 ∧ flag &&& MASK_PLUS = 0 then flag ||| MASK_SPACE else flag

/-- `get_flags`. -/
def getFlags : List UInt8 → ℕ → ℕ × List UInt8
  | [], flag => (flag, [])
  | c :: cs, flag => if ftContains "-+#0 " c then getFlags cs (flagStep flag c) else (flag, c :: cs)

/-- `ft_isdigit`. -/
def ftIsdigit (c : UInt8) : Bool := ftContains "0123456789" c

/-- `ascii_to_int`: the value of the leading digits, before it is cut to a `long long`. -/
def asciiToInt : List UInt8 → ℕ → ℕ
  | [], result => result
  | c :: cs, result =>
    if ftIsdigit c then asciiToInt cs (result * 10 + (c.toNat - '0'.toNat)) else result

/-- `ft_isspace`. -/
def ftIsspace (c : UInt8) : Bool := c ∈ [' '.toUInt8, 10, 9, 11, 12, 13]

/-- `ft_atoll`, converted to `int` as its callers do: the sign and the digits. -/
def ftAtoll (s : List UInt8) : ℤ :=
  match s.dropWhile ftIsspace with
  | [] => 0
  | c :: cs =>
    if c = '-'.toUInt8 then toInt (2 ^ 32 - asciiToInt cs 0 % 2 ^ 32)
    else if c = '+'.toUInt8 then toInt (asciiToInt cs 0)
    else toInt (asciiToInt (c :: cs) 0)

/-- `get_width`; `digits` says that the cursor is inside a run of digits already read. -/
def getWidth : List UInt8 → (digits : Bool) → TArgs → List VaArg → TArgs × List UInt8 × List VaArg
  | [], _, args, va => (args, [], va)
  | c :: cs, digits, args, va =>
    if ftIsdigit c then
      getWidth cs true (if digits then args else { args with width := ftAtoll (c :: cs) }) va
    else if c = '*'.toUInt8 then
      let (slot, va) := vaWord va
      let w := toInt slot
      let args :=
        if w < 0 then
          { args with
            flag :=
              let flag := if args.has MASK_MINUS then args.flag else args.flag ||| MASK_MINUS
              if flag &&& MASK_ZERO ≠ 0 then flag ^^^ MASK_ZERO else flag
            width := int32 (w * -1) }
        else { args with width := w }
      getWidth cs false args va
    else (args, c :: cs, va)

/-- `va_arg_precision`. -/
def vaArgPrecision (cs : List UInt8) (args : TArgs) (va : List VaArg) : TArgs × List VaArg :=
  if cs.head? = some '*'.toUInt8 then
    let (slot, va) := vaWord va
    let precision := toInt slot
    let precision := if args.spec = 'f'.toUInt8 ∧ precision < 0 then 6 else precision
    ({ args with precision := precision }, va)
  else
    let precision := ftAtoll cs
    if precision < 0 then
      if args.spec = 'f'.toUInt8 then ({ args with precision := 6 }, va)
      else
        ({ args with
            precision := precision
            flag := if args.has MASK_MINUS then args.flag else args.flag + 1
            width := int32 (precision * -1) }, va)
    else ({ args with precision := precision }, va)

def DIOUXXPB : String := "diouxXpb"

/-- `get_precision`. -/
def getPrecision (cs : List UInt8) (args : TArgs) (va : List VaArg) :
    TArgs × List UInt8 × List VaArg :=
  match cs with
  | [] => (if args.spec = 'f'.toUInt8 then { args with precision := 6 } else args, [], va)
  | c :: cs =>
    if c = '.'.toUInt8 then
      let (args, va) := vaArgPrecision cs args va
      let cs := cs.dropWhile ftIsdigit
      let args :=
        if args.has MASK_ZERO ∧ 0 ≤ args.precision ∧ ftContains DIOUXXPB args.spec then
          { args with flag := args.flag ^^^ MASK_ZERO }
        else args
      (args, cs, va)
    else (if args.spec = 'f'.toUInt8 then { args with precision := 6 } else args, c :: cs, va)

/-- One round of the loop of `get_modifier`, at the character `c` before `next`. -/
def modifierStep (modifier : ℕ) (c : UInt8) (next : Option UInt8) : ℕ :=
  let double (letter : UInt8) (one two modifier : ℕ) : ℕ :=
    let modifier := if c = letter ∧ modifier &&& two = 0 then modifier ||| one else modifier
    if c = letter ∧ next = some letter then
      let modifier := modifier ||| two
      if modifier &&& one ≠ 0 then modifier ^^^ one else modifier
    else modifier
  let modifier := double 'h'.toUInt8 MASK_H MASK_HH modifier
  let modifier := double 'l'.toUInt8 MASK_L MASK_LL modifier
  let modifier := if c = 'L'.toUInt8 then modifier ||| MASK_UPL else modifier
  let modifier := if c = 'z'.toUInt8 then modifier ||| MASK_Z else modifier
  if c = 'j'.toUInt8 then modifier ||| MASK_J else modifier

/-- `get_modifier`. -/
def getModifier : List UInt8 → ℕ → ℕ
  | [], modifier => modifier
  | c :: cs, modifier =>
    if ftContains "hlLzj" c then getModifier cs (modifierStep modifier c cs.head?) else modifier

/-! ## Numerals -/

/-- `nbase_length`: how many shifts empty the number, counting the first digit. -/
def nbaseLength (shift : ℕ) (hshift : 0 < shift) (nb : ℕ) : ℕ :=
  if h : nb >>> shift = 0 then 1 else nbaseLength shift hshift (nb >>> shift) + 1
termination_by nb
decreasing_by
  rw [Nat.shiftRight_eq_div_pow] at h ⊢
  have hnb : 0 < nb := Nat.pos_of_ne_zero fun h0 => h (by simp [h0])
  exact Nat.div_lt_self hnb (Nat.one_lt_two_pow hshift.ne')

/-- The digit characters of `shift_bits`. -/
def digitChar (d : ℕ) : UInt8 := (cstr "0123456789abcdef").getD d 0

/-- The filling loop of `shift_bits`: `len` digits, the last one first. -/
def fillDigits (mask shift : ℕ) : (len nbr : ℕ) → List UInt8
  | 0, _ => []
  | len + 1, nbr => fillDigits mask shift len (nbr >>> shift) ++ [digitChar (nbr &&& mask)]

/-- `shift_bits`. -/
def shiftBits (nbr mask shift : ℕ) (hshift : 0 < shift) : List UInt8 :=
  fillDigits mask shift (nbaseLength shift hshift nbr) nbr

/-- An octal digit is three bits, a hexadecimal one four. -/
lemma octalShift_pos : 0 < 3 := by norm_num

lemma hexShift_pos : 0 < 4 := by norm_num

/-- The decimal digits of a number, most significant first; none for `0`. -/
def decimalDigits (n : ℕ) : List UInt8 :=
  if _h : n = 0 then [] else decimalDigits (n / 10) ++ [UInt8.ofNat (n % 10 + '0'.toNat)]
termination_by n
decreasing_by omega

/-- `ft_utoa`. -/
def ftUtoa (n : ℕ) : List UInt8 := if n = 0 then cstr "0" else decimalDigits n

/-- `ft_ltoa`. -/
def ftLtoa (n : ℤ) : List UInt8 :=
  if n < 0 then '-'.toUInt8 :: ftUtoa n.natAbs else ftUtoa n.natAbs

/-- `ft_base`: the numeral of `unsign_ed` in the base of the specifier. -/
def ftBase (args : TArgs) : List UInt8 :=
  if args.spec = 'u'.toUInt8 then ftUtoa args.unsignEd
  else if args.spec = 'b'.toUInt8 then shiftBits args.unsignEd 1 1 (by norm_num)
  else if args.spec = 'o'.toUInt8 then shiftBits args.unsignEd 7 3 (by norm_num)
  else
    let hexa := shiftBits args.unsignEd 15 4 (by norm_num)
    if args.spec = 'X'.toUInt8 then
      hexa.map fun c => if 'a'.toUInt8 ≤ c ∧ c ≤ 'z'.toUInt8 then c - 32 else c
    else hexa

/-! ## Padding -/

/-- `padd`: `rest` copies of `c` on the given side. -/
def padd (element : List UInt8) (rest : ℤ) (c : Char) (left : Bool) : List UInt8 :=
  let fill := List.replicate rest.toNat c.toUInt8
  if left then fill ++ element else element ++ fill

@[simp] lemma length_padd (element : List UInt8) (rest : ℤ) (c : Char) (left : Bool) :
    (padd element rest c left).length = element.length + rest.toNat := by
  unfold padd
  cases left <;> simp [add_comm]

/-- `is_s`. -/
def isS (args : TArgs) (len : ℤ) : TArgs :=
  { args with
    result :=
      if args.precision = 0 then []
      else if args.precision < len then args.result.take args.precision.toNat
      else args.result }

/-- `ft_poubx`. -/
def ftPoubx (args : TArgs) (len : ℤ) : TArgs :=
  { args with
    result :=
      if args.precision > len then padd args.result (int32 (args.precision - len)) '0' true
      else args.result }

/-- `ft_precision`. -/
def ftPrecision (args : TArgs) : TArgs :=
  let len := int32 args.result.length
  if args.spec = 's'.toUInt8 ∧ 0 ≤ args.precision then isS args len
  else if ftContains "poubxX" args.spec then ftPoubx args len
  else if ftContains "id" args.spec then
    let sign : ℕ := if args.result.head? = some '-'.toUInt8 then 1 else 0
    let zeros := int32 (args.precision - (len - sign))
    if args.precision > len - sign then
      let padded := padd (args.result.drop sign) zeros '0' true
      { args with result := if sign = 1 then '-'.toUInt8 :: padded else padded }
    else args
  else args

/-- `is_nan`. -/
def isNan (args : TArgs) : Bool := args.result = cstr "nan"

/-- `is_inf`. -/
def isInf (args : TArgs) : Bool :=
  args.result ∈ [cstr "inf", cstr "-inf", cstr "+inf", cstr " inf"]

/-- `manage_sign`: the result with its sign character, and whether it has one. -/
def manageSign (args : TArgs) (sign : Bool) : TArgs × Bool :=
  if sign then (args, true)
  else if args.has MASK_PLUS ∧ args.spec ≠ 'u'.toUInt8 then
    if !isNan args || isInf args then ({ args with result := '+'.toUInt8 :: args.result }, true)
    else (args, false)
  else if args.has MASK_SPACE ∧ args.spec ≠ 'u'.toUInt8 then
    if !isNan args || isInf args then ({ args with result := ' '.toUInt8 :: args.result }, true)
    else (args, false)
  else (args, false)

/-- `ft_numeric`. -/
def ftNumeric (args : TArgs) : TArgs :=
  let (args, sign) := manageSign args (args.result.head? = some '-'.toUInt8)
  let len := int32 args.result.length
  let pad := int32 (args.width - len)
  if args.width > len then
    if args.has MASK_ZERO ∧ !isNan args ∧ !isInf args then
      if sign then
        { args with result := args.result.take 1 ++ padd (args.result.drop 1) pad '0' true }
      else { args with result := padd args.result pad '0' true }
    else if args.has MASK_MINUS then { args with result := padd args.result pad ' ' false }
    else { args with result := padd args.result pad ' ' true }
  else args

/-- `ft_string`. -/
def ftString (args : TArgs) : TArgs :=
  let len := int32 args.result.length
  let pad := int32 (args.width - len)
  if args.width > len then
    if args.has MASK_MINUS then { args with result := padd args.result pad ' ' false }
    else if args.has MASK_ZERO then { args with result := padd args.result pad '0' true }
    else { args with result := padd args.result pad ' ' true }
  else args

/-- `get_prefix`. -/
def getPrefix (args : TArgs) : List UInt8 :=
  if args.spec = 'p'.toUInt8 then cstr "0x"
  else if args.has MASK_HASH then
    if args.unsignEd ≠ 0 ∧ args.spec = 'x'.toUInt8 then cstr "0x"
    else if args.unsignEd ≠ 0 ∧ args.spec = 'X'.toUInt8 then cstr "0X"
    else if args.spec = 'o'.toUInt8 ∧ args.result.head? ≠ some '0'.toUInt8 then cstr "0"
    else if args.spec = 'b'.toUInt8 then cstr "0b"
    else []
  else []

/-- `ft_alternate`. -/
def ftAlternate (args : TArgs) : TArgs :=
  let pre := getPrefix args
  let flg := args.has MASK_HASH || args.spec = 'p'.toUInt8
  let pad := int32 (args.width - (args.result.length + pre.length))
  let left := !args.has MASK_MINUS
  if args.has MASK_ZERO then
    let padded := padd args.result pad '0' left
    { args with result := if flg then pre ++ padded else padded }
  else
    let full := if flg then pre ++ args.result else args.result
    { args with result := padd full pad ' ' left }

/-- `ft_width`, the dispatch table `g_funcs` included. -/
def ftWidth (args : TArgs) : TArgs :=
  if ftContains "diuf" args.spec then ftNumeric args
  else if args.spec = 's'.toUInt8 then ftString args
  else if ftContains "pxXob" args.spec then ftAlternate args
  else args

/-! Each of these routines leaves a text of which the one before is a part. -/

lemma length_le_ftPoubx (args : TArgs) (len : ℤ) :
    args.result.length ≤ (ftPoubx args len).result.length := by
  unfold ftPoubx
  split_ifs <;> simp

lemma length_le_ftPrecision {args : TArgs} (h : args.spec ≠ 's'.toUInt8) :
    args.result.length ≤ (ftPrecision args).result.length := by
  have hstring : ¬(args.spec = 's'.toUInt8 ∧ 0 ≤ args.precision) := fun hs => h hs.1
  unfold ftPrecision
  dsimp only
  rw [if_neg hstring]
  split_ifs
  · exact length_le_ftPoubx _ _
  all_goals grind [length_padd]

lemma length_le_manageSign (args : TArgs) (sign : Bool) :
    args.result.length ≤ (manageSign args sign).1.result.length := by
  unfold manageSign
  split_ifs <;> simp

lemma length_le_ftNumeric (args : TArgs) :
    args.result.length ≤ (ftNumeric args).result.length := by
  refine (length_le_manageSign args (args.result.head? = some '-'.toUInt8)).trans ?_
  unfold ftNumeric
  dsimp only
  generalize manageSign args (args.result.head? = some '-'.toUInt8) = signed
  split_ifs
  · rw [List.length_append, length_padd, List.length_take, List.length_drop]
    omega
  all_goals simp

lemma length_le_ftString (args : TArgs) : args.result.length ≤ (ftString args).result.length := by
  unfold ftString
  dsimp only
  split_ifs <;> simp

lemma length_le_ftAlternate (args : TArgs) :
    args.result.length ≤ (ftAlternate args).result.length := by
  unfold ftAlternate
  dsimp only
  split_ifs <;> simp only [List.length_append, length_padd] <;> omega

lemma length_le_ftWidth (args : TArgs) : args.result.length ≤ (ftWidth args).result.length := by
  unfold ftWidth
  split_ifs
  · exact length_le_ftNumeric args
  · exact length_le_ftString args
  · exact length_le_ftAlternate args
  · exact le_rfl

/-! ## The conversions -/

/-- The test of the fast path: no flag, no width, no precision. -/
def TArgs.plain (args : TArgs) : Bool :=
  args.flag = 0 && args.width = 0 && args.precision = -1

/-- Whether a length modifier bit is set. -/
def TArgs.modified (args : TArgs) (mask : ℕ) : Bool := args.modifier &&& mask ≠ 0

/-- `ft_unsigned`. -/
def ftUnsigned (args : TArgs) (slot : ℕ) : ℕ :=
  let wide := args.modified MASK_L || args.modified MASK_LL || args.modified MASK_Z ||
    args.modified MASK_J || !ftContains "ouxX" args.spec
  let unsignEd := if wide then slot % 2 ^ 64 else slot % 2 ^ 32
  if args.modified MASK_H then unsignEd % 2 ^ 16
  else if args.modified MASK_HH then unsignEd % 2 ^ 8
  else unsignEd

/-- The value of the low `bits` bits of a slot, taken as a signed integer. -/
def signedSlot (bits slot : ℕ) : ℤ :=
  if slot % 2 ^ bits < 2 ^ (bits - 1) then (slot % 2 ^ bits : ℕ)
  else (slot % 2 ^ bits : ℕ) - 2 ^ bits

/-- `ft_signed`. -/
def ftSigned (args : TArgs) (slot : ℕ) : ℤ :=
  if args.modified MASK_L || args.modified MASK_LL || args.modified MASK_Z ||
      args.modified MASK_J then signedSlot 64 slot
  else if args.modified MASK_H then signedSlot 16 slot
  else if args.modified MASK_HH then signedSlot 8 slot
  else signedSlot 32 slot

/-- `ft_print_d`. -/
def ftPrintD (args : TArgs) (var : TVars) : TVars :=
  let (slot, va) := vaWord var.typesList
  let var := { var with typesList := va }
  let x := ftSigned args slot
  let args := { args with result := ftLtoa x }
  if args.plain then var.putstr args.result
  else
    let args := if args.precision = 0 ∧ x = 0 then { args with result := [] } else ftPrecision args
    var.putstr (ftWidth args).result

/-- `ft_print_poubx`. -/
def ftPrintPoubx (args : TArgs) (var : TVars) : TVars :=
  let (slot, va) := vaWord var.typesList
  let var := { var with typesList := va }
  let args := { args with unsignEd := ftUnsigned args slot }
  let args :=
    { args with result := if args.unsignEd = 0 ∧ args.precision = 0 then [] else ftBase args }
  if args.plain then
    var.putstr (if args.spec = 'p'.toUInt8 then cstr "0x" ++ args.result else args.result)
  else var.putstr (ftWidth (ftPrecision args)).result

/-- `ft_print_s`. -/
def ftPrintS (args : TArgs) (var : TVars) : TVars :=
  let (s, va) := vaStr var.typesList
  let args := { args with result := s.getD (cstr "(null)") }
  let var := { var with typesList := va }.indexed args.result
  if args.plain then var.putstr args.result
  else var.putstr (ftWidth (ftPrecision args)).result

/-- `ft_print_f`, where `mantiss` is the text that `split_float_parts`, `ft_fround` and
`join_dot_to_decimal` make of the number, or the one for infinities and for nan. -/
def ftPrintF (mantiss : TArgs → ℕ → List UInt8) (args : TArgs) (var : TVars) : TVars :=
  let (slot, va) := vaWord var.typesList
  let var := { var with typesList := va }
  let args := { args with result := mantiss args slot }
  var.putstr (ftWidth args).result

/-- `ft_print_f` in a program that never asks for it. -/
def noFloat (_ : TArgs) (var : TVars) : TVars := { var with halt := some .float }

/-- `ft_print_c`, with `non_spec_char` for the characters that name no conversion. -/
def ftPrintC (args : TArgs) (var : TVars) : TVars :=
  let (c, va) :=
    if args.spec = 'c'.toUInt8 then
      let (slot, va) := vaWord var.typesList
      (UInt8.ofNat slot, va)
    else (args.spec, var.typesList)
  let var := { var with typesList := va }
  let pad := if args.has MASK_ZERO then '0' else ' '
  if ftContains "%c" args.spec then
    if args.width ≤ 0 then var.put [c]
    else
      { var with
        counter := var.counter + args.width
        out := var.out ++ padd [c] (args.width - 1) pad (!args.has MASK_MINUS) }
  else if args.width ≤ 0 then var.putstr [args.spec]
  else var.putstr (padd [args.spec] (args.width - 1) pad (!args.has MASK_MINUS))

/-- `manage_args`. -/
def manageArgs (printF : TArgs → TVars → TVars) (args : TArgs) (var : TVars) : TVars :=
  if ftContains "id" args.spec then ftPrintD args var
  else if ftContains "poubxX" args.spec then ftPrintPoubx args var
  else if args.spec = 's'.toUInt8 then ftPrintS args var
  else if args.spec = 'f'.toUInt8 then printF args var
  else ftPrintC args var

lemma manageArgs_signed {args : TArgs} (h : ftContains "id" args.spec = true)
    (printF : TArgs → TVars → TVars) (var : TVars) :
    manageArgs printF args var = ftPrintD args var := if_pos h

lemma manageArgs_unsigned {args : TArgs} (hid : ftContains "id" args.spec = false)
    (h : ftContains "poubxX" args.spec = true) (printF : TArgs → TVars → TVars) (var : TVars) :
    manageArgs printF args var = ftPrintPoubx args var := by
  rw [manageArgs, if_neg (by simp [hid]), if_pos h]

/-! ## The format loop -/

/-- `g_colors`; every code starts with the escape character. -/
def gColors : List (String × String) := [
  ("black", "[30m"), ("red", "[31m"), ("green", "[32m"), ("yellow", "[33m"), ("blue", "[34m"),
  ("magneta", "[35m"), ("cyan", "[36m"), ("light gray", "[37m"), ("dark gray", "[90m"),
  ("light red", "[91m"), ("light green", "[92m"), ("light yellow", "[93m"),
  ("light blue", "[94m"), ("light magneta", "[95m"), ("light cyan", "[96m"), ("white", "[97m"),
  ("b_black", "[40m"), ("b_red", "[41m"), ("b_green", "[42m"), ("b_yellow", "[43m"),
  ("b_blue", "[44m"), ("b_magneta", "[45m"), ("b_cyan", "[46m"), ("b_light_gray", "[47m"),
  ("b_dark_gray", "[100m"), ("b_light_red", "[101m"), ("b_light_green", "[102m"),
  ("b_light_yellow", "[103m"), ("b_light_blue", "[104m"), ("b_light_magneta", "[105m"),
  ("b_light_cyan", "[106m"), ("b_white", "[107m"), ("bold_txt", "[1m"), ("eoc", "[39m"),
  ("eobc", "[49m"), ("eoall", "[0m"), ("eoftxt", "[0m")]

/-- `get_color`. -/
def getColor (name : List UInt8) : Option (List UInt8) :=
  (gColors.find? fun entry => name = cstr entry.1).map fun entry => 27 :: cstr entry.2

/-- The look-ahead of `set_color` behind a `{`: the name up to the closing `}`, unless a `%`
or the end of the format comes first. -/
def colorName : List UInt8 → Option (List UInt8)
  | [] => none
  | c :: cs =>
    if c = '}'.toUInt8 then some []
    else if c = '%'.toUInt8 then none
    else (colorName cs).map (c :: ·)

/-- `set_color` at the character `c`: the new state, and how many characters of `cs` the
cursor moves over. -/
def setColor (c : UInt8) (cs : List UInt8) (var : TVars) : TVars × ℕ :=
  if c = '{'.toUInt8 then
    match colorName cs with
    | none => (var.put [c], 0)
    | some name => ({ var with out := var.out ++ (getColor name).getD [] }, name.length + 1)
  else (var.put [c], 0)

/-- One directive: the scanners in order on the text behind the `%`, then the conversion. -/
def directive (printF : TArgs → TVars → TVars) (spec : UInt8) (cs : List UInt8) (var : TVars) :
    TVars :=
  let args := { initializeArgs with spec := spec }
  let (flag, cs) := getFlags cs args.flag
  let (args, cs, va) := getWidth cs false { args with flag := flag } var.typesList
  let (args, cs, va) := getPrecision cs args va
  let args := { args with modifier := getModifier cs args.modifier }
  manageArgs printF args { var with typesList := va }

/-- What the scanners make of a directive, one after the other. -/
lemma directive_eq (printF : TArgs → TVars → TVars) {spec : UInt8} {cs cs₁ cs₂ cs₃ : List UInt8}
    {flag : ℕ} {args₂ args₃ : TArgs} {var : TVars} {va₂ va₃ : List VaArg}
    (hflags : getFlags cs 0 = (flag, cs₁))
    (hwidth : getWidth cs₁ false { initializeArgs with spec := spec, flag := flag }
      var.typesList = (args₂, cs₂, va₂))
    (hprecision : getPrecision cs₂ args₂ va₂ = (args₃, cs₃, va₃)) :
    directive printF spec cs var =
      manageArgs printF { args₃ with modifier := getModifier cs₃ args₃.modifier }
        { var with typesList := va₃ } := by
  have hflags' : getFlags cs initializeArgs.flag = (flag, cs₁) := hflags
  simp only [directive, hflags', hwidth, hprecision]

/-- Where `get_modifier` leaves the cursor. -/
def afterModifier (cs : List UInt8) : List UInt8 := cs.dropWhile (ftContains "hlLzj")

/-- What the scanners of a directive leave behind: the settings, `spec_index` counted from
behind the `%`, the cursor `j`, and the arguments not yet taken. -/
structure Scanned where
  args : TArgs
  specIndex : ℕ
  cursor : List UInt8
  typesList : List VaArg

/-- The scanners of a directive, in the order in which `ft_printf_helper` calls them. -/
def scanDirective (cs : List UInt8) (va : List VaArg) : Option Scanned :=
  match getSpecifier cs with
  | none => none
  | some (k, spec) =>
    let args := { initializeArgs with spec := spec }
    let (flag, cs) := getFlags cs args.flag
    let (args, cs, va) := getWidth cs false { args with flag := flag } va
    let (args, cs, va) := getPrecision cs args va
    some {
      args := { args with modifier := getModifier cs args.modifier }
      specIndex := k
      cursor := afterModifier cs
      typesList := va }

/-- What the scanners find, one after the other. -/
lemma scanDirective_eq {spec : UInt8} {k : ℕ} {cs cs₁ cs₂ cs₃ : List UInt8} {flag : ℕ}
    {args₂ args₃ : TArgs} {va va₂ va₃ : List VaArg} (hspec : getSpecifier cs = some (k, spec))
    (hflags : getFlags cs 0 = (flag, cs₁))
    (hwidth : getWidth cs₁ false { initializeArgs with spec := spec, flag := flag } va =
      (args₂, cs₂, va₂))
    (hprecision : getPrecision cs₂ args₂ va₂ = (args₃, cs₃, va₃)) :
    scanDirective cs va = some {
      args := { args₃ with modifier := getModifier cs₃ args₃.modifier }
      specIndex := k
      cursor := afterModifier cs₃
      typesList := va₃ } := by
  have hflags' : getFlags cs initializeArgs.flag = (flag, cs₁) := hflags
  simp only [scanDirective, hspec, hflags', hwidth, hprecision]

/-- `ft_printf_helper`: the number is how many characters the cursor still jumps over. -/
def ftPrintfHelper (printF : TArgs → TVars → TVars) : ℕ → List UInt8 → TVars → TVars
  | _, [], var => var
  | skip + 1, _ :: cs, var => ftPrintfHelper printF skip cs var
  | 0, c :: cs, var =>
    if c = '%'.toUInt8 then
      if cs = [] then var
      else
        match getSpecifier cs with
        -- the cursor is left on the NUL, and the loop steps over it
        | none => { var with halt := some .overrun }
        | some (k, spec) => ftPrintfHelper printF (k + 1) cs (directive printF spec cs var)
    else
      let (var, skip) := setColor c cs var
      ftPrintfHelper printF skip cs var

section Loop

variable (printF : TArgs → TVars → TVars) (var : TVars)

@[simp] lemma ftPrintfHelper_nil (skip : ℕ) : ftPrintfHelper printF skip [] var = var := by
  cases skip <;> rfl

/-- The cursor jumps over characters without looking at them. -/
lemma ftPrintfHelper_skip (skip : ℕ) (cs : List UInt8) :
    ftPrintfHelper printF skip cs var = ftPrintfHelper printF 0 (cs.drop skip) var := by
  induction skip generalizing cs with
  | zero => rfl
  | succ skip ih =>
    cases cs with
    | nil => simp
    | cons c cs => exact ih cs

@[simp] lemma ftPrintfHelper_last : ftPrintfHelper printF 0 ['%'.toUInt8] var = var := rfl

/-- A directive with a specifier. -/
lemma ftPrintfHelper_directive {cs : List UInt8} {k : ℕ} {spec : UInt8}
    (h : getSpecifier cs = some (k, spec)) :
    ftPrintfHelper printF 0 ('%'.toUInt8 :: cs) var =
      ftPrintfHelper printF 0 (cs.drop (k + 1)) (directive printF spec cs var) := by
  have hcs : cs ≠ [] := by
    rintro rfl
    cases h
  rw [ftPrintfHelper, if_pos rfl, if_neg hcs, h]
  exact ftPrintfHelper_skip _ _ _ _

/-- The round of the loop at a directive converts what the scanners have found. -/
lemma ftPrintfHelper_scanned {cs : List UInt8} {scanned : Scanned}
    (h : scanDirective cs var.typesList = some scanned) :
    ftPrintfHelper printF 0 ('%'.toUInt8 :: cs) var =
      ftPrintfHelper printF 0 (cs.drop (scanned.specIndex + 1))
        (manageArgs printF scanned.args { var with typesList := scanned.typesList }) := by
  cases hspec : getSpecifier cs with
  | none =>
    rw [scanDirective, hspec] at h
    cases h
  | some found =>
    rw [ftPrintfHelper_directive printF var hspec]
    rw [scanDirective, hspec] at h
    obtain rfl := Option.some.inj h
    rfl

/-- A directive without a specifier. -/
lemma ftPrintfHelper_stuck {cs : List UInt8} (hcs : cs ≠ []) (h : getSpecifier cs = none) :
    ftPrintfHelper printF 0 ('%'.toUInt8 :: cs) var = { var with halt := some .overrun } := by
  rw [ftPrintfHelper, if_pos rfl, if_neg hcs, h]

/-- Literal text. -/
lemma ftPrintfHelper_literal {c : UInt8} (hc : c ≠ '%'.toUInt8) (cs : List UInt8) :
    ftPrintfHelper printF 0 (c :: cs) var =
      ftPrintfHelper printF 0 (cs.drop (setColor c cs var).2) (setColor c cs var).1 := by
  rw [ftPrintfHelper, if_neg hc]
  exact ftPrintfHelper_skip _ _ _ _

end Loop

/-- The state in which `ft_printf` enters the loop. -/
def initialVars (args : List VaArg) : TVars where
  counter := 0
  out := []
  typesList := args
  halt := none

/-- `ft_printf` on any format: the final state, whose `out` is what was written and `counter`
the result.  The cursors `i` and `j` are of type `int`, too. -/
def ftPrintfBytes (printF : TArgs → TVars → TVars) (format : List UInt8) (args : List VaArg) :
    TVars :=
  ftPrintfHelper printF 0 format ((initialVars args).indexed format)

/-- `ft_printf` on the formats of `ft_nm`. -/
def ftPrintf (format : String) (args : List VaArg) : TVars :=
  ftPrintfBytes noFloat (cstr format) args

end FtNm
