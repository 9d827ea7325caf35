import FtNm.Construction.SymbolesHandler

/-!
# Parsing a file

`srcs/ft_nm.c`, `srcs/manageELF32.c` and `srcs/manageELF64.c`: from the mapped bytes to the
symbol array.

* `parseEhdr` and `parseShdr` check the ELF header and set the class and the pointer to the
  section header table.
* `parseSymtab32` and `parseSymtab64` look for the first `SHT_SYMTAB` section and fill the
  symbol array from it.  The two C functions are the same text over different structs, so both
  are `parseSymtab` at their layout.
* `loadFile` is the part of the body of `manageELF` that comes before the printing, with the
  range check on `e_shoff` where the source has it: after the symbol table has been parsed.

`malloc` is a parameter: `malloc n` says whether the allocation of `n` bytes succeeds.
-/

namespace FtNm

open AccessLog

/-! ## The headers -/

/-- Compare the bytes from `p` on with `magic`, stopping at the first difference. -/
def checkMagic (m : MappedFile) : ℕ → List UInt8 → Prog Unit
  | _, [] => pure ()
  | p, c :: cs => do
    let b ← readByte m p
    Run.check (b = c) .invalidMagic
    checkMagic m (p + 1) cs

/-- The `e_type` values that `parse_ehdr` accepts. -/
def acceptedTypes : List ℕ := [ET_REL, ET_EXEC, ET_DYN, ET_CORE, ET_NONE]

/-- `parse_ehdr`. -/
def parseEhdr (file : TFile) : Prog TFile := do
  checkMagic file.data 0 ELFMAG
  let eiClass ← readByte file.data 4
  Run.check (eiClass = ELFCLASS32 ∨ eiClass = ELFCLASS64) .invalidClass
  let eiData ← readByte file.data 5
  Run.check (eiData = ELFDATA2LSB ∨ eiData = ELFDATA2MSB) .invalidData
  let type ← readField file.data 0 eType
  Run.check (type ∈ acceptedTypes) .invalidType
  let file := { file with is64 := decide (eiClass ≠ ELFCLASS32) }
  let shoff ← readField file.data 0 file.layout.eShoff
  Run.check (shoff ≠ 0) .noSectionTable
  pure file

/-- `parse_shdr`. -/
def parseShdr (file : TFile) : Prog TFile := do
  let shoff ← readField file.data 0 file.layout.eShoff
  let file := { file with shdr := shoff }
  let shnum ← readField file.data 0 file.layout.eShnum
  Run.check (shoff ≠ 0 ∧ shnum ≠ 0) .noSectionTable
  pure file

/-! ## The symbol table -/

/-- The byte count handed to `malloc` and `ft_memset`, computed in `size_t`. -/
def mallocBytes (nSyms : ℕ) : ℕ := nSyms * sizeofTSymb % 2 ^ 64

/-- The `uint32_t` value of `-1`. -/
def SECTION_NAME : ℕ := 0xffffffff

/-- The body of the loop over the symbol entries, up to the store of `symb[j]`. -/
def readSymb (L : Layout) (file : TFile) (stringTable strtab symtab j : ℕ) : Prog TSymb := do
  let base := symtab + L.symentsize * j
  let stName ← readField file.data base L.stName
  let stInfo ← readField file.data base L.stInfo
  let stOther ← readField file.data base L.stOther
  let stSize ← readField file.data base L.stSize
  let stValue ← readField file.data base L.stValue
  let stShndx ← readField file.data base L.stShndx
  let symb : TSymb :=
    { name := strtab + stName
      size := stSize
      value := stValue
      sectionTabIndex := stShndx
      type := stInfo &&& 0xf
      binding := stInfo >>> 4
      visibility := stOther &&& 0x3
      typeChar := 0
      shType := SHT_SYMTAB }
  -- `ft_strcmp("", name)`: one byte of the name is read, the sign is the opposite one
  let empty ← ftStrcmpLit file.data symb.name []
  let symb ← (if empty = 0 then do
      let shnum ← readField file.data 0 L.eShnum
      if stShndx < shnum then do
        let shName ← readShdr L file stShndx L.shName
        pure { symb with name := stringTable + shName, shType := SECTION_NAME }
      else pure symb
    else pure symb)
  let c ← determineSymb file symb
  pure { symb with typeChar := c }

/-- The loop over the symbol entries, with `k` of them left and `j` the next one.  Each entry
is stored at `symb[j]` and copied to `symb[n_syms_count++]`. -/
def symbLoop (L : Layout) (file : TFile) (stringTable : ℕ) : (k j : ℕ) → TSyms → Prog TSyms
  | 0, _, syms => pure syms
  | k + 1, j, syms => do
    let s ← readSymb L file stringTable syms.strtab syms.symtab j
    let symb := syms.symb.set j s
    symbLoop L file stringTable k (j + 1)
      { syms with
        symb := symb.set syms.nSymsCount (symb.getD j .zero)
        nSymsCount := syms.nSymsCount + 1 }

/-- The branch for the section header `i` of type `SHT_SYMTAB`. -/
def loadSymtab (L : Layout) (malloc : ℕ → Bool) (file : TFile) (stringTable i : ℕ) :
    Prog TSyms := do
  let shSize ← readShdr L file i L.shSize
  let nSyms := shSize / L.symentsize
  Run.check (malloc (mallocBytes nSyms) = true) .allocFailed
  let shLink ← readShdr L file i L.shLink
  let strtab ← readShdr L file shLink L.shOffset
  let strtabSize ← readShdr L file shLink L.shSize
  let symtab ← readShdr L file i L.shOffset
  symbLoop L file stringTable nSyms 0
    { nSyms := nSyms
      nSymsCount := 0
      symtab := symtab
      symtabSize := shSize
      strtab := strtab
      strtabSize := strtabSize
      symb := List.replicate nSyms .zero }

/-- The loop over the section headers, with `k` of them left and `i` the next one; it breaks
at the first symbol table. -/
def symtabLoop (L : Layout) (malloc : ℕ → Bool) (file : TFile) (stringTable : ℕ) :
    (k i : ℕ) → Prog TSyms
  | 0, _ => pure .zero
  | k + 1, i => do
    let shType ← readShdr L file i L.shType
    if shType = SHT_SYMTAB then loadSymtab L malloc file stringTable i
    else symtabLoop L malloc file stringTable k (i + 1)

/-- The common text of `parse_symtab32` and `parse_symtab64`.  The header is read-only, so
`e_shnum` is read once for the loop bound. -/
def parseSymtab (L : Layout) (malloc : ℕ → Bool) (file : TFile) : Prog TFile := do
  let shstrndx ← readField file.data 0 L.eShstrndx
  let stringTable ← readShdr L file shstrndx L.shOffset
  let shnum ← readField file.data 0 L.eShnum
  let syms ← symtabLoop L malloc file stringTable shnum 0
  pure { file with syms := syms }

/-- `parse_symtab32`. -/
def parseSymtab32 : (ℕ → Bool) → TFile → Prog TFile := parseSymtab elf32

/-- `parse_symtab64`. -/
def parseSymtab64 : (ℕ → Bool) → TFile → Prog TFile := parseSymtab elf64

/-! ## `manageELF` -/

/-- The parsing half of the body of `manageELF`. -/
def parseFile (malloc : ℕ → Bool) (file : TFile) : Prog TFile := do
  let file ← parseEhdr file
  let file ← parseShdr file
  if file.is64 then parseSymtab64 malloc file else parseSymtab32 malloc file

/-- The body of `manageELF` up to the printing: parse, then check the range of `e_shoff`. -/
def loadFile (malloc : ℕ → Bool) (file : TFile) : Prog TFile := do
  let file ← parseFile malloc file
  let shoff ← readField file.data 0 file.layout.eShoff
  Run.check (¬shoff > file.data.size) .invalidShoff
  pure file

end FtNm
