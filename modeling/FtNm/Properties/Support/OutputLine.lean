import FtNm.Construction.Printer

/-!
# The line of a symbol

What the formats of `output` come to.  `output_eq` says that a line is an address
column, a space, the letter, a space, the name and a newline, where the column is blank for an
undefined symbol and the zero-padded hexadecimal numeral of the value (`hexColumn`) otherwise.

`hexValue` reads a column back, and `hexValue_hexColumn` says that the column denotes the value
whatever its width.
-/

namespace FtNm

/-! ## Hexadecimal columns -/

/-- The number that a digit stands for. -/
def hexDigit (c : UInt8) : Option ℕ := (cstr "0123456789abcdef").idxOf? c

/-- The number that a hexadecimal numeral stands for, with `acc` for the digits before it. -/
def hexValueFrom : ℕ → List UInt8 → Option ℕ
  | acc, [] => some acc
  | acc, c :: cs => (hexDigit c).bind fun d => hexValueFrom (acc * 16 + d) cs

/-- The number that a hexadecimal numeral stands for. -/
def hexValue (s : List UInt8) : Option ℕ := hexValueFrom 0 s

/-- The address column of `w` characters for a value. -/
def hexColumn (w value : ℕ) : List UInt8 :=
  let digits := shiftBits value 15 4 hexShift_pos
  padd digits ((w : ℤ) - digits.length) '0' true

/-- The address column of `w` characters for no value. -/
def blankColumn (w : ℕ) : List UInt8 := List.replicate w ' '.toUInt8

lemma hexDigit_digitChar : ∀ d < 16, hexDigit (digitChar d) = some d := by decide

lemma hexValueFrom_append (acc : ℕ) (s t : List UInt8) :
    hexValueFrom acc (s ++ t) = (hexValueFrom acc s).bind fun acc => hexValueFrom acc t := by
  induction s generalizing acc with
  | nil => rfl
  | cons c s ih =>
    rw [List.cons_append, hexValueFrom, hexValueFrom, Option.bind_assoc]
    exact congrArg _ (funext fun d => ih _)

@[simp] lemma length_fillDigits (mask shift len nbr : ℕ) :
    (fillDigits mask shift len nbr).length = len := by
  induction len generalizing nbr with
  | zero => rfl
  | succ len ih => simp [fillDigits, ih]

/-- `len` hexadecimal digits hold a number below `16 ^ len`. -/
lemma hexValueFrom_fillDigits (acc len nbr : ℕ) (h : nbr < 16 ^ len) :
    hexValueFrom acc (fillDigits 15 4 len nbr) = some (acc * 16 ^ len + nbr) := by
  induction len generalizing nbr with
  | zero =>
    have hzero : nbr = 0 := by simpa using h
    simp [fillDigits, hexValueFrom, hzero]
  | succ len ih =>
    have hdigit : nbr &&& 15 = nbr % 16 := Nat.and_two_pow_sub_one_eq_mod nbr 4
    have hshift : nbr >>> 4 = nbr / 16 := Nat.shiftRight_eq_div_pow nbr 4
    have hlt : nbr / 16 < 16 ^ len := by
      rw [pow_succ] at h
      omega
    rw [fillDigits, hexValueFrom_append, hshift, ih _ hlt, hdigit]
    simp only [Option.bind_some, hexValueFrom, hexDigit_digitChar _ (Nat.mod_lt nbr (by norm_num)),
      Option.some.injEq, pow_succ]
    have hsplit := Nat.div_add_mod nbr 16
    linarith

/-- `nbase_length` counts enough digits, and no more than a number below `16 ^ w` needs. -/
lemma lt_pow_nbaseLength (nbr : ℕ) : nbr < 16 ^ nbaseLength 4 hexShift_pos nbr := by
  induction nbr using Nat.strong_induction_on with
  | _ nbr ih =>
    have hshift : nbr >>> 4 = nbr / 16 := Nat.shiftRight_eq_div_pow nbr 4
    unfold nbaseLength
    split_ifs with h
    · rw [hshift] at h
      omega
    · rw [hshift] at h
      have hrec := ih (nbr / 16) (by omega)
      rw [hshift, pow_succ]
      omega

lemma nbaseLength_le {nbr w : ℕ} (hw : 0 < w) (h : nbr < 16 ^ w) :
    nbaseLength 4 hexShift_pos nbr ≤ w := by
  induction w generalizing nbr with
  | zero => omega
  | succ w ih =>
    have hshift : nbr >>> 4 = nbr / 16 := Nat.shiftRight_eq_div_pow nbr 4
    unfold nbaseLength
    split_ifs with hzero
    · omega
    · rw [hshift] at hzero ⊢
      have hlt : nbr / 16 < 16 ^ w := by
        rw [pow_succ] at h
        omega
      have hpos : 0 < w := by
        by_contra hw0
        have hw0 : w = 0 := by omega
        rw [hw0, pow_zero] at hlt
        omega
      have hrec := ih hpos hlt
      omega

lemma hexValueFrom_zeros (k : ℕ) (s : List UInt8) :
    hexValueFrom 0 (List.replicate k '0'.toUInt8 ++ s) = hexValueFrom 0 s := by
  have hdigit : hexDigit '0'.toUInt8 = some 0 := by decide
  induction k with
  | zero => rfl
  | succ k ih =>
    rw [List.replicate_succ, List.cons_append, hexValueFrom, hdigit]
    exact ih

/-- **The column denotes the value.** -/
lemma hexValue_hexColumn (w value : ℕ) : hexValue (hexColumn w value) = some value := by
  unfold hexValue hexColumn padd shiftBits
  dsimp only
  rw [if_pos rfl, hexValueFrom_zeros, hexValueFrom_fillDigits _ _ _ (lt_pow_nbaseLength value)]
  simp

lemma length_hexColumn {w value : ℕ} (hw : 0 < w) (h : value < 16 ^ w) :
    (hexColumn w value).length = w := by
  have hle := nbaseLength_le hw h
  unfold hexColumn padd shiftBits
  dsimp only
  rw [if_pos rfl, List.length_append, List.length_replicate, length_fillDigits]
  omega

/-! ## The formats -/

/-- The settings of a zero-padded `%x` directive. -/
def hexArgs (width : ℤ) (modifier : ℕ) : TArgs :=
  { initializeArgs with
    flag := MASK_ZERO, width := width, spec := 'x'.toUInt8, modifier := modifier }

/-- The settings once the numeral of `u` is made. -/
def hexResult (width : ℤ) (modifier u : ℕ) : TArgs :=
  { hexArgs width modifier with unsignEd := u, result := shiftBits u 15 4 hexShift_pos }

/-- The numeral of a 64-bit number is short. -/
lemma int32_length_shiftBits {u : ℕ} (hu : u < 2 ^ 64) :
    int32 (shiftBits u 15 4 hexShift_pos).length = (shiftBits u 15 4 hexShift_pos).length := by
  have hle := nbaseLength_le (w := 16) (by norm_num) (show u < 16 ^ 16 by omega)
  have hlength : (shiftBits u 15 4 hexShift_pos).length = nbaseLength 4 hexShift_pos u :=
    length_fillDigits _ _ _ _
  rw [hlength]
  exact int32_of_mem (by omega) (by omega)

/-- No precision, no change. -/
lemma ftPrecision_hexResult (width : ℤ) (modifier : ℕ) {u : ℕ} (hu : u < 2 ^ 64) :
    ftPrecision (hexResult width modifier u) = hexResult width modifier u := by
  let digits := shiftBits u 15 4 hexShift_pos
  have hneg : ¬(-1 : ℤ) > int32 digits.length := by
    rw [int32_length_shiftBits hu]
    omega
  show { hexArgs width modifier with
    unsignEd := u
    result := if (-1 : ℤ) > int32 digits.length then
      padd digits (int32 (-1 - int32 digits.length)) '0' true else digits } = _
  rw [if_neg hneg]
  rfl

/-- The numeral is padded to the width with zeros on its left. -/
lemma ftWidth_hexResult {w : ℕ} (hw : w < 2 ^ 31) (modifier : ℕ) {u : ℕ} (hu : u < 2 ^ 64) :
    (ftWidth (hexResult w modifier u)).result = hexColumn w u := by
  have hzero : (hexResult w modifier u).has MASK_ZERO = true :=
    (by decide : decide (MASK_ZERO &&& MASK_ZERO ≠ 0) = true)
  have hminus : (hexResult w modifier u).has MASK_MINUS = false :=
    (by decide : decide (MASK_ZERO &&& MASK_MINUS ≠ 0) = false)
  have hhash : (hexResult w modifier u).has MASK_HASH = false :=
    (by decide : decide (MASK_ZERO &&& MASK_HASH ≠ 0) = false)
  have hspec : (hexResult w modifier u).spec = 'x'.toUInt8 := rfl
  have hp : 'x'.toUInt8 ≠ 'p'.toUInt8 := by decide
  have hdispatch : ftWidth (hexResult w modifier u) = ftAlternate (hexResult w modifier u) := rfl
  have hpad : int32 ((w : ℤ) - (shiftBits u 15 4 hexShift_pos).length) =
      (w : ℤ) - (shiftBits u 15 4 hexShift_pos).length := by
    have hlength := int32_length_shiftBits hu
    have hbound := int32_le (shiftBits u 15 4 hexShift_pos).length
    exact int32_of_mem (by omega) (by omega)
  rw [hdispatch]
  simp only [ftAlternate, getPrefix, hzero, hminus, hhash, hspec, hp, if_true, if_false,
    Bool.false_eq_true, decide_false, Bool.or_self, Bool.not_false, List.length_nil,
    Nat.cast_zero, add_zero]
  show padd (shiftBits u 15 4 hexShift_pos)
    (int32 ((w : ℤ) - (shiftBits u 15 4 hexShift_pos).length)) '0' true = _
  rw [hpad]
  rfl

lemma ftUnsigned_lt (args : TArgs) (slot : ℕ) : ftUnsigned args slot < 2 ^ 64 := by
  unfold ftUnsigned
  dsimp only
  split_ifs <;> omega

/-- A zero-padded `%x` writes a column. -/
lemma ftPrintPoubx_hexArgs {w : ℕ} (hw : w < 2 ^ 31) (modifier slot : ℕ) (var : TVars)
    (va : List VaArg) :
    ftPrintPoubx (hexArgs w modifier) { var with typesList := .word slot :: va } =
      { var with typesList := va }.putstr
        (hexColumn w (ftUnsigned (hexArgs w modifier) slot)) := by
  have hu := ftUnsigned_lt (hexArgs w modifier) slot
  let u := ftUnsigned (hexArgs w modifier) slot
  have hresult : { hexArgs w modifier with
      unsignEd := u
      result := if u = 0 ∧ (-1 : ℤ) = 0 then [] else shiftBits u 15 4 hexShift_pos } =
        hexResult w modifier u := by
    rw [if_neg (by omega)]
    rfl
  show { var with typesList := va }.putstr (ftWidth (ftPrecision { hexArgs w modifier with
      unsignEd := u
      result := if u = 0 ∧ (-1 : ℤ) = 0 then [] else shiftBits u 15 4 hexShift_pos })).result = _
  rw [hresult, ftPrecision_hexResult w modifier hu, ftWidth_hexResult hw modifier hu]

lemma manageArgs_hexArgs {w : ℕ} (hw : w < 2 ^ 31) (modifier slot : ℕ) (var : TVars)
    (va : List VaArg) :
    manageArgs noFloat (hexArgs w modifier) { var with typesList := .word slot :: va } =
      { var with typesList := va }.putstr
        (hexColumn w (ftUnsigned (hexArgs w modifier) slot)) := by
  have hid : ftContains "id" (hexArgs w modifier).spec = false :=
    (by decide : ftContains "id" 'x'.toUInt8 = false)
  have hpoubx : ftContains "poubxX" (hexArgs w modifier).spec = true :=
    (by decide : ftContains "poubxX" 'x'.toUInt8 = true)
  rw [manageArgs_unsigned hid hpoubx, ftPrintPoubx_hexArgs hw]

/-- What the formats have in common: the part behind the address column. -/
def lineRest (type : UInt8) (name : List UInt8) : List UInt8 :=
  32 :: type :: 32 :: name ++ [10]

/-- A run has written a line, and has come to no string that is too long, unless it is the name. -/
structure Prints (run : TVars) (column : List UInt8) (type : UInt8) (name : List UInt8) : Prop where
  out : run.out = column ++ lineRest type name
  tooLong : run.tooLong = decide (2 ^ 31 ≤ name.length)

/-- What follows the column in the formats: the letter and the name. -/
lemma prints_tail {var : TVars} {type : UInt8} {name : List UInt8}
    (hargs : var.typesList = [.word type.toNat, .str name]) (hshort : var.tooLong = false) :
    Prints (ftPrintfHelper noFloat 0 (cstr " %c %s\n") var) var.out type name := by
  have hofNat : UInt8.ofNat type.toNat = type := UInt8.ofNat_toNat
  obtain ⟨counter, out, typesList, halt, tooLong⟩ := var
  obtain rfl : typesList = [.word type.toNat, .str name] := hargs
  obtain rfl : tooLong = false := hshort
  have htail : (ftPrintfHelper noFloat 0 (cstr " %c %s\n")
      ⟨counter, out, [.word type.toNat, .str name], halt, false⟩).out =
      out ++ [32] ++ [UInt8.ofNat type.toNat] ++ [32] ++ name ++ [10] := rfl
  have hmark : (ftPrintfHelper noFloat 0 (cstr " %c %s\n")
      ⟨counter, out, [.word type.toNat, .str name], halt, false⟩).tooLong =
      (false || decide (2 ^ 31 ≤ name.length) || decide (2 ^ 31 ≤ name.length)) := rfl
  refine ⟨?_, ?_⟩
  · rw [htail, hofNat]
    simp [lineRest]
  · rw [hmark, Bool.false_or, Bool.or_self]

/-- A format that starts with a directive in front of the letter and the name: `flag` and `args`
are what the scanners make of the directive, `cs` the text that they leave. -/
lemma prints_column {format : String} {head text column : List UInt8} {spec : UInt8} {k : ℕ}
    {flag : ℕ} {args : TArgs} {slot : ℕ} {cs : List UInt8}
    (hformat : cstr format = '%'.toUInt8 :: text) (hlength : (cstr format).length < 2 ^ 31)
    (hspec : getSpecifier text = some (k, spec))
    (hrest : text.drop (k + 1) = cstr " %c %s\n") (hflags : getFlags text 0 = (flag, head))
    (hwidth : ∀ va, getWidth head false { initializeArgs with spec := spec, flag := flag } va =
      (args, cs, va))
    (hprecision : ∀ va, getPrecision cs args va = (args, cs, va)) {args' : TArgs}
    (hmodifier : { args with modifier := getModifier cs args.modifier } = args')
    (hconversion : ∀ va, ∃ counter, manageArgs noFloat args' (initialVars (.word slot :: va)) =
      ⟨counter, column, va, none, false⟩)
    (type : UInt8) (name : List UInt8) :
    Prints (ftPrintf format [.word slot, .word type.toNat, .str name]) column type name := by
  obtain ⟨counter, hcolumn⟩ := hconversion [.word type.toNat, .str name]
  unfold ftPrintf ftPrintfBytes
  rw [TVars.indexed_of_lt _ hlength, hformat, ftPrintfHelper_directive _ _ hspec, hrest,
    directive_eq _ hflags (hwidth _) (hprecision _), hmodifier, hcolumn]
  exact prints_tail rfl rfl

/-- A column is short. -/
lemma manageArgs_hexColumn {w : ℕ} (hpos : 0 < w) (hw : w < 2 ^ 31) (modifier slot : ℕ)
    (hslot : ftUnsigned (hexArgs w modifier) slot < 16 ^ w) (va : List VaArg) :
    ∃ counter, manageArgs noFloat (hexArgs w modifier) (initialVars (.word slot :: va)) =
      ⟨counter, hexColumn w (ftUnsigned (hexArgs w modifier) slot), va, none, false⟩ := by
  have hprinted : manageArgs noFloat (hexArgs w modifier) (initialVars (.word slot :: va)) = _ :=
    manageArgs_hexArgs hw modifier slot (initialVars []) va
  have hlength := length_hexColumn hpos hslot
  rw [TVars.putstr_of_lt _ (by omega)] at hprinted
  exact ⟨_, hprinted⟩

lemma prints_hex64 (value : ℕ) (type : UInt8) (name : List UInt8) :
    Prints (ftPrintf "%016lx %c %s\n" [.word value, .word type.toNat, .str name])
      (hexColumn 16 (value % 2 ^ 64)) type name := by
  have hspec : getSpecifier (cstr "016lx %c %s\n") = some (4, 'x'.toUInt8) := by decide
  have hflags : getFlags (cstr "016lx %c %s\n") 0 = (MASK_ZERO, cstr "16lx %c %s\n") := by decide
  have hwidth : ∀ va, getWidth (cstr "16lx %c %s\n") false (hexArgs 0 0) va =
      (hexArgs 16 0, cstr "lx %c %s\n", va) := fun _ => rfl
  have hmodifier : { hexArgs 16 0 with modifier := getModifier (cstr "lx %c %s\n") 0 } =
      hexArgs (16 : ℕ) MASK_L := by decide
  have hslot : ftUnsigned (hexArgs (16 : ℕ) MASK_L) value = value % 2 ^ 64 := rfl
  have hlt : ftUnsigned (hexArgs (16 : ℕ) MASK_L) value < 16 ^ 16 := ftUnsigned_lt _ value
  exact prints_column rfl (by decide) hspec (by decide) hflags hwidth (fun _ => rfl) hmodifier
    (fun va => hslot ▸ manageArgs_hexColumn (by norm_num) (by norm_num) MASK_L value hlt va)
    type name

lemma prints_hex32 (value : ℕ) (type : UInt8) (name : List UInt8) :
    Prints (ftPrintf "%08x %c %s\n" [.word value, .word type.toNat, .str name])
      (hexColumn 8 (value % 2 ^ 32)) type name := by
  have hspec : getSpecifier (cstr "08x %c %s\n") = some (2, 'x'.toUInt8) := by decide
  have hflags : getFlags (cstr "08x %c %s\n") 0 = (MASK_ZERO, cstr "8x %c %s\n") := by decide
  have hwidth : ∀ va, getWidth (cstr "8x %c %s\n") false (hexArgs 0 0) va =
      (hexArgs 8 0, cstr "x %c %s\n", va) := fun _ => rfl
  have hmodifier : { hexArgs 8 0 with modifier := getModifier (cstr "x %c %s\n") 0 } =
      hexArgs (8 : ℕ) 0 := by decide
  have hslot : ftUnsigned (hexArgs (8 : ℕ) 0) value = value % 2 ^ 32 := rfl
  have hlt : ftUnsigned (hexArgs (8 : ℕ) 0) value < 16 ^ 8 :=
    hslot ▸ Nat.mod_lt value (by norm_num)
  exact prints_column rfl (by decide) hspec (by decide) hflags hwidth (fun _ => rfl) hmodifier
    (fun va => hslot ▸ manageArgs_hexColumn (by norm_num) (by norm_num) 0 value hlt va)
    type name

/-- The settings of a `%c` directive. -/
def charArgs (width : ℤ) : TArgs := { initializeArgs with width := width, spec := 'c'.toUInt8 }

lemma prints_blank64 (type : UInt8) (name : List UInt8) :
    Prints (ftPrintf "%16c %c %s\n" [.word ' '.toNat, .word type.toNat, .str name])
      (blankColumn 16) type name := by
  have hspec : getSpecifier (cstr "16c %c %s\n") = some (2, 'c'.toUInt8) := by decide
  have hflags : getFlags (cstr "16c %c %s\n") 0 = (0, cstr "16c %c %s\n") := by decide
  have hwidth : ∀ va, getWidth (cstr "16c %c %s\n") false (charArgs 0) va =
      (charArgs 16, cstr "c %c %s\n", va) := fun _ => rfl
  exact prints_column rfl (by decide) hspec (by decide) hflags hwidth (fun _ => rfl) rfl
    (fun _ => ⟨16, rfl⟩) type name

lemma prints_blank32 (type : UInt8) (name : List UInt8) :
    Prints (ftPrintf "%8c %c %s\n" [.word ' '.toNat, .word type.toNat, .str name])
      (blankColumn 8) type name := by
  have hspec : getSpecifier (cstr "8c %c %s\n") = some (1, 'c'.toUInt8) := by decide
  have hflags : getFlags (cstr "8c %c %s\n") 0 = (0, cstr "8c %c %s\n") := by decide
  have hwidth : ∀ va, getWidth (cstr "8c %c %s\n") false (charArgs 0) va =
      (charArgs 8, cstr "c %c %s\n", va) := fun _ => rfl
  exact prints_column rfl (by decide) hspec (by decide) hflags hwidth (fun _ => rfl) rfl
    (fun _ => ⟨8, rfl⟩) type name

/-- The width of the address column. -/
def columnWidth (is64 : Bool) : ℕ := if is64 then 16 else 8

/-- The formats without an address start with a blank column. -/
lemma prints_blankVars (is64 : Bool) (type : UInt8) (name : List UInt8) :
    Prints (blankVars is64 type name) (blankColumn (columnWidth is64)) type name := by
  unfold blankVars
  dsimp only
  cases is64
  · rw [if_neg Bool.false_ne_true]
    exact prints_blank32 type name
  · rw [if_pos rfl]
    exact prints_blank64 type name

/-- **The call of `ft_printf` for a symbol.** -/
lemma prints_outputVars (file : TFile) (value : ℕ) (type : UInt8) (name shndx : ℕ) :
    Prints (outputVars file value type name shndx)
      (if shndx = SHN_UNDEF then blankColumn (columnWidth file.is64)
        else hexColumn (columnWidth file.is64) (value % 256 ^ (columnWidth file.is64 / 2)))
      type (file.data.text name) := by
  unfold outputVars
  dsimp only
  by_cases hundef : shndx = SHN_UNDEF
  · rw [if_pos hundef, if_pos hundef]
    exact prints_blankVars file.is64 type _
  · rw [if_neg hundef, if_neg hundef]
    cases file.is64
    · rw [if_neg Bool.false_ne_true]
      exact prints_hex32 value type _
    · rw [if_pos rfl]
      exact prints_hex64 value type _

/-- **The line of a symbol.** -/
lemma output_eq (file : TFile) (value : ℕ) (type : UInt8) (name shndx : ℕ) :
    output file value type name shndx =
      (if shndx = SHN_UNDEF then blankColumn (columnWidth file.is64)
        else hexColumn (columnWidth file.is64) (value % 256 ^ (columnWidth file.is64 / 2))) ++
      lineRest type (file.data.text name) :=
  (prints_outputVars file value type name shndx).out

end FtNm
