import FtNm.Construction.FtPrintf
import FtNm.Framework.AccessLog

/-!
# How `ft_printf` reads its format

The same loop and the same scanners as in `FtNm.Construction.FtPrintf`, at the level of the
cursors: the format is an array behind a pointer, `i` and `j` are subscripts, and every read is
logged.  What the scanners make of the characters does not steer them, so it is left out here.

A cursor is counted exactly, and a read logs the subscript that the machine computes from it,
which is another one once the cursor has left the range of its type.  A run stops at the first
read that misses the format and its NUL.  Where the source reads a character again at the same
cursor, one read stands for all of them.
-/

namespace FtNm

open AccessLog

/-- Why a scan stopped early. -/
inductive ScanExit
  | outside
  deriving DecidableEq, Repr

/-- A computation that logs the subscripts at which it reads the format. -/
abbrev Scan := Run ℤ ScanExit

/-- A cursor at or behind another one. -/
abbrev Behind (j : ℕ) := { k : ℕ // j ≤ k }

/-! ## Reading a character -/

/-- The subscript computed from an exact cursor: an `int` kept in `t_vars`, -/
def intSub (k : ℕ) : ℤ := int32 k

/-- an `int` index of `ft_atoll`, behind the pointer `&str[j]`, -/
def atollSub (j k : ℕ) : ℤ := j + int32 (k - j)

/-- or a `size_t`. -/
def sizeSub (k : ℕ) : ℤ := k

/-- The character at the cursor `k`, the NUL included. -/
def charAt (str : List UInt8) (sub : ℕ → ℤ) (k : ℕ) : Scan { _c : UInt8 // k ≤ str.length } where
  log := [sub k]
  out := if h : sub k = k ∧ k ≤ str.length then .ok ⟨str.getD k 0, h.2⟩ else .error .outside

/-- `while (p(str[k])) k++`. -/
def scanWhile (str : List UInt8) (sub : ℕ → ℤ) (p : UInt8 → Bool) (k : ℕ) : Scan (Behind k) := do
  let c ← charAt str sub k
  if p c.1 then
    let j ← scanWhile str sub p (k + 1)
    pure ⟨j.1, (Nat.le_succ k).trans j.2⟩
  else pure ⟨k, le_rfl⟩
termination_by str.length + 1 - k
decreasing_by
  have := c.2
  omega

/-- `ft_atoll(&str[j])`. -/
def ftAtollAt (str : List UInt8) (j : ℕ) : Scan Unit := do
  let k ← scanWhile str (atollSub j) ftIsspace j
  let c ← charAt str (atollSub j) k.1
  let digits := if c.1 = '-'.toUInt8 ∨ c.1 = '+'.toUInt8 then k.1 + 1 else k.1
  let _ ← scanWhile str (atollSub j) ftIsdigit digits
  pure ()

/-! ## The scanners of a directive -/

/-- `get_specifier`: where `j` ends up, and whether there is a specifier. -/
def getSpecifierAt (str : List UInt8) (j : ℕ) : Scan (Behind j × Bool) := do
  let k ← scanWhile str intSub
    (fun c => ftContains "-+#* .jzhlL" c || ftContains "0123456789" c) j
  let c ← charAt str intSub k.1
  pure (k, c.1 ≠ 0)

/-- `get_flags`: where `j` ends up. -/
def getFlagsAt (str : List UInt8) (j : ℕ) : Scan (Behind j) :=
  scanWhile str intSub (ftContains "-+#0 ") j

/-- `get_width`: where `j` ends up. -/
def getWidthAt (str : List UInt8) (j : ℕ) : Scan ℕ := do
  let c ← charAt str intSub j
  if ftIsdigit c.1 then
    ftAtollAt str j
    -- the first round of the inner loop looks at the digit just read
    let k ← scanWhile str intSub ftIsdigit (j + 1)
    let c' ← charAt str intSub k.1
    if c'.1 = '*'.toUInt8 then getWidthAt str (k.1 + 1) else getWidthAt str k.1
  else if c.1 = '*'.toUInt8 then getWidthAt str (j + 1)
  else pure j
termination_by str.length + 1 - j
decreasing_by
  · have := c.2
    have := k.2
    omega
  · have := c.2
    have := k.2
    omega
  · have := c.2
    omega

/-- `get_precision`: where `j` ends up. -/
def getPrecisionAt (str : List UInt8) (j : ℕ) : Scan ℕ := do
  let c ← charAt str intSub j
  if c.1 = '.'.toUInt8 then
    let c' ← charAt str intSub (j + 1)
    if c'.1 = '*'.toUInt8 then pure () else ftAtollAt str (j + 1)
    let k ← scanWhile str intSub ftIsdigit (j + 1)
    pure k.1
  else pure j

/-- `get_modifier`: where `j` ends up. -/
def getModifierAt (str : List UInt8) (j : ℕ) : Scan ℕ := do
  let c ← charAt str intSub j
  if ftContains "hlLzj" c.1 then
    if c.1 = 'h'.toUInt8 ∨ c.1 = 'l'.toUInt8 then
      let _ ← charAt str intSub (j + 1)
      getModifierAt str (j + 1)
    else getModifierAt str (j + 1)
  else pure j
termination_by str.length + 1 - j
decreasing_by all_goals
  have := c.2
  omega

/-! ## Colour tags -/

/-- The copying loop of `ft_strsub`. -/
def copyAt (str : List UInt8) : (len start : ℕ) → Scan Unit
  | 0, _ => pure ()
  | len + 1, start => do
    let _ ← charAt str sizeSub start
    copyAt str len (start + 1)

/-- `ft_strsub`. -/
def ftStrsubAt (str : List UInt8) (start len : ℕ) : Scan Unit := do
  let size ← scanWhile str sizeSub (fun c => c ≠ 0) 0
  if start + len > size.1 then pure () else copyAt str len start

/-- `get_color(str, begin, end)`. -/
def getColorAt (str : List UInt8) (begin' end' : ℕ) : Scan Unit :=
  ftStrsubAt str begin' (end' + 1 - begin')

/-- `set_color`: where `i` ends up. -/
def setColorAt (str : List UInt8) (i : ℕ) : Scan (Behind i) := do
  let c ← charAt str intSub i
  if c.1 = '{'.toUInt8 then
    let j ← scanWhile str intSub
      (fun c => c ≠ '}'.toUInt8 && !(c = '%'.toUInt8 || c = 0)) (i + 1)
    let c' ← charAt str intSub j.1
    if c'.1 = '}'.toUInt8 then
      getColorAt str (i + 1) (j.1 - 1)
      pure ⟨j.1, (Nat.le_succ i).trans j.2⟩
    else pure ⟨i, le_rfl⟩
  else pure ⟨i, le_rfl⟩

/-! ## The loop -/

/-- `ft_printf_helper`, from the round on in which `i` has just been moved to the cursor. -/
def ftPrintfHelperAt (str : List UInt8) (i : ℕ) : Scan Unit := do
  let c ← charAt str intSub i
  if c.1 = 0 then pure ()
  else if c.1 = '%'.toUInt8 then
    let next ← charAt str intSub (i + 1)
    if next.1 = 0 then pure ()
    else
      let found ← getSpecifierAt str (i + 1)
      if found.2 then
        let j ← getFlagsAt str (i + 1)
        let j ← getWidthAt str j.1
        let j ← getPrecisionAt str j
        let _ ← getModifierAt str j
        ftPrintfHelperAt str (found.1.1 + 1)
      -- no specifier: `i = j`, and the loop condition moves on from there
      else ftPrintfHelperAt str (found.1.1 + 1)
  else
    let k ← setColorAt str i
    ftPrintfHelperAt str (k.1 + 1)
termination_by str.length + 1 - i
decreasing_by
  · have := c.2
    have := found.1.2
    omega
  · have := c.2
    have := found.1.2
    omega
  · have := c.2
    have := k.2
    omega

end FtNm
