import FtNm.Construction.FtPrintf
import FtNm.Construction.ManageELF

/-!
# Sorting and printing

`srcs/printer.c`: the merge sort over the symbol array, the four listing functions and the
line that `output` prints.

* `merge` and `mergeSort` work on the array in place, with the three cursors of the source and
  with `left` and `right` as the copies it allocates.
* `undifinedSymbolsOnly`, `displayAll`, `externalOnly` and `noFlag` each run only under their
  own option.  What they print is a list of `Line`s; a `Line` is one `ft_printf` call, kept
  together with the entry it is about.
* `printSymboles` runs them in source order on one and the same array.
* `manageFile` is the whole body of the loop of `manageELF`.
-/

namespace FtNm

open AccessLog

/-! ## The merge sort -/

/-- The comparison of `merge` between two entries. -/
def compareNames (m : MappedFile) (a b : TSymb) : ℤ := ftStrcmp (m.text a.name) (m.text b.name)

/-- In a file of less than `2 ^ 31` bytes no subscript of it leaves the range of `int`. -/
lemma ftStrcmpFrom_compareNames {m : MappedFile} (h : m.size < 2 ^ 31) (a b : TSymb) :
    ftStrcmpFrom 0 (m.text a.name) (m.text b.name) = some (compareNames m a b) := by
  have hlength := m.length_text_le a.name
  exact ftStrcmpFrom_eq (by omega)

/-- `while (i < size) array[k++] = src[i++];`, with the final `k`. -/
def copyLoop (src array : List TSymb) (i k : ℕ) : List TSymb × ℕ :=
  if h : i < src.length then copyLoop src (array.set k src[i]) (i + 1) (k + 1) else (array, k)
termination_by src.length - i

/-- The first loop of `merge`, with the final `i`, `j` and `k`. -/
def mergeLoop (m : MappedFile) (order : ℤ) (left right array : List TSymb) (i j k : ℕ) :
    List TSymb × ℕ × ℕ × ℕ :=
  if h : i < left.length ∧ j < right.length then
    if order * compareNames m left[i] right[j] ≤ 0 then
      mergeLoop m order left right (array.set k left[i]) (i + 1) j (k + 1)
    else mergeLoop m order left right (array.set k right[j]) i (j + 1) (k + 1)
  else (array, i, j, k)
termination_by (left.length - i) + (right.length - j)

/-- `merge`. -/
def merge (m : MappedFile) (order : ℤ) (array left right : List TSymb) : List TSymb :=
  let (array, i, j, k) := mergeLoop m order left right array 0 0 0
  let (array, k) := copyLoop left array i k
  (copyLoop right array j k).1

/-- `mergeSort`, on the first `size` entries of the array. -/
def mergeSort (m : MappedFile) (order : ℤ) (array : List TSymb) (size : ℕ) : List TSymb :=
  if size ≤ 1 then array
  else
    let mid := size / 2
    let left := mergeSort m order (array.take mid) mid
    let right := mergeSort m order ((array.drop mid).take (size - mid)) (size - mid)
    merge m order array left right
termination_by size

/-- `mergeSort(file->syms.symb, file->syms.n_syms_count, order)`; a count that is negative as
an `int` sorts nothing. -/
def sortSymb (file : TFile) (order : ℤ) : TFile :=
  { file with
    syms :=
      { file.syms with
        symb := mergeSort file.data order file.syms.symb (toInt file.syms.nSymsCount).toNat } }

/-! ## The listings -/

/-- A printed line and the entry it is printed for. -/
structure Line where
  entry : TSymb
  text : List UInt8
  deriving DecidableEq, Repr

/-- The call of `ft_printf` for a symbol without an address. -/
def blankVars (is64 : Bool) (type : UInt8) (name : List UInt8) : TVars :=
  let args := [.word ' '.toNat, .word type.toNat, .str name]
  if is64 then ftPrintf "%16c %c %s\n" args else ftPrintf "%8c %c %s\n" args

/-- The line of a symbol without an address. -/
def blankLine (is64 : Bool) (type : UInt8) (name : List UInt8) : List UInt8 :=
  (blankVars is64 type name).out

/-- The call of `ft_printf` in `output`. -/
def outputVars (file : TFile) (value : ℕ) (type : UInt8) (name shndx : ℕ) : TVars :=
  let name := file.data.text name
  if shndx = SHN_UNDEF then blankVars file.is64 type name
  else
    let args := [.word value, .word type.toNat, .str name]
    if file.is64 then ftPrintf "%016lx %c %s\n" args else ftPrintf "%08x %c %s\n" args

/-- `output`. -/
def output (file : TFile) (value : ℕ) (type : UInt8) (name shndx : ℕ) : List UInt8 :=
  (outputVars file value type name shndx).out

/-- `output` on the fields of an entry, as the listings call it. -/
def outputLine (file : TFile) (s : TSymb) : Line :=
  ⟨s, output file s.value s.typeChar s.name s.sectionTabIndex⟩

/-- The entries that the loops of the listings go over. -/
def storedSymb (file : TFile) : List TSymb := file.syms.symb.take file.syms.nSymsCount

/-- `ft_strcmp(name, "") == 0`. -/
def emptyName (file : TFile) (s : TSymb) : Bool := ftStrcmp (file.data.text s.name) [] = 0

/-- `undifined_symbols_only`. -/
def undifinedSymbolsOnly (file : TFile) : TFile × List Line :=
  if file.option = .undefinedSymbolsOnly then
    let file := sortSymb file 1
    (file, (storedSymb file).filterMap fun s =>
      if s.sectionTabIndex = SHN_UNDEF ∧ !emptyName file s then
        some ⟨s, blankLine file.is64 s.typeChar (file.data.text s.name)⟩
      else none)
  else (file, [])

/-- `display_all`. -/
def displayAll (file : TFile) : TFile × List Line :=
  if file.option = .displayAll then
    let file := sortSymb file 1
    (file, (storedSymb file).filterMap fun s =>
      if s.sectionTabIndex = SHN_UNDEF ∧ emptyName file s then none else some (outputLine file s))
  else (file, [])

/-- The letters that `external_only` lets through. -/
def externalLetters : String := "RWwDBUTAVi"

/-- `external_only`. -/
def externalOnly (file : TFile) : TFile × List Line :=
  if file.option = .externalOnly then
    let file := sortSymb file 1
    (file, (storedSymb file).filterMap fun s =>
      let typeAsStr := [s.typeChar].takeWhile (· ≠ 0)
      if ftStrpbrk typeAsStr (cstr externalLetters) = none ∨ s.binding = STB_LOCAL then none
      else some (outputLine file s))
  else (file, [])

/-- `no_flag`. -/
def noFlag (file : TFile) : List Line :=
  if !isInRange file.option.toInt 0 2 then []
  else
    (storedSymb file).filterMap fun s =>
      if emptyName file s ∧ s.value = 0 then none
      else if (s.typeChar = 'a'.toUInt8 ∧ s.value = 0) ∨ s.shType ≠ SHT_SYMTAB then none
      else some (outputLine file s)

/-- What the listing of one file prints: the line with the path, then the symbols. -/
structure Output where
  header : List UInt8
  lines : List Line
  deriving DecidableEq, Repr

/-- `print_symboles`. -/
def printSymboles (file : TFile) (nFiles : ℕ) : Output :=
  let header := if nFiles > 1 then (ftPrintf "\n%s:\n" [.str file.path]).out else []
  let file :=
    match file.option with
    | .noSort => sortSymb file 0
    | .sortOrder => sortSymb file 1
    | .reverseSort => sortSymb file (-1)
    | _ => file
  let (file, undefinedLines) := undifinedSymbolsOnly file
  let (file, allLines) := displayAll file
  let (file, externalLines) := externalOnly file
  ⟨header, undefinedLines ++ allLines ++ externalLines ++ noFlag file⟩

/-- The body of `manageELF`. -/
def manageFile (malloc : ℕ → Bool) (nFiles : ℕ) (file : TFile) : Prog Output := do
  let file ← loadFile malloc file
  pure (printSymboles file nFiles)

end FtNm
