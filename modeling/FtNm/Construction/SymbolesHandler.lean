import FtNm.Construction.Elf

/-!
# The letter of a symbol

`srcs/symboles_handler.c` and `srcs/get_section_name.c`: how `determine_symb` gets the letter
it shows for a symbol.  Three stages can each set it, the later ones overwriting.

* `getSymbTypeAndVisibility` looks at the symbol's own attributes.
* `getSymbolSectionChar`, asked when the first stage answers `?`, looks at the type and the
  flags of the symbol's section.
* `getSymbBasedOnSection`, asked for a symbol that carries its section's name, looks the name
  up in the table of `get_section_name.c` (`sectionNameTable`).

`determineSymb` runs them and folds the result to lower case for a local symbol.

The names compared here are read from the mapping a byte at a time: `ftStrcmpLit` is the loop
of `ft_strcmp` against a string literal, and stops reading at the first difference.
-/

namespace FtNm

open AccessLog

/-! ## Comparing a mapped name with literals -/

/-- `ft_strcmp(name, lit)` for a name in the mapping and a literal. -/
def ftStrcmpLit (m : MappedFile) : ℕ → List UInt8 → Prog ℤ
  | p, [] => do
    let a ← readByte m p
    pure a.toNat
  | p, b :: bs => do
    let a ← readByte m p
    if a = b then ftStrcmpLit m (p + 1) bs else pure (a.toNat - b.toNat)

/-- `!ft_strcmp(name, lit₁) || !ft_strcmp(name, lit₂) || …`, left to right. -/
def matchesAny (m : MappedFile) (p : ℕ) : List String → Prog Bool
  | [] => pure false
  | lit :: lits => do
    let r ← ftStrcmpLit m p (cstr lit)
    if r = 0 then pure true else matchesAny m p lits

/-! ## `get_section_name` -/

/-- The returns of `get_section_name` that depend on the name only, in source order: the
literals of each condition and the number returned. -/
def sectionNameTable : List (List String × ℤ) := [
  -- A
  ([".symtab"], 0),
  ([".strtab"], 1),
  ([".shstrtab"], 2),
  -- B
  ([".bss"], 3),
  ([".tbss"], 4),
  ([".sbss"], 5),
  -- D
  ([".data"], 6),
  ([".data.rel.ro"], 7),
  ([".data.rel.ro.local"], 8),
  ([".idata"], 9),
  ([".sdata"], 10),
  ([".sdata2"], 11),
  ([".got.plt", ".got"], 12),
  ([".data"], 13),
  ([".debug_macro", ".dtors"], 19),
  ([".dynamic", ".ctors"], 20),
  ([".jcr"], 20),
  -- N
  ([".comment"], 21),
  ([".copyright"], 22),
  ([".gnu_debug", ".gnu.warning.pthread_attr_getstackaddr",
    ".gnu.warning.pthread_attr_setstackaddr"], 23),
  ([".ident", ".note.GNU-stack"], 24),
  ([".SUNW", ".SUNW_ctf", ".SUNW_signature"], 25),
  ([".debug_"], 26),
  ([".debug_abbrev"], 26),
  ([".debug_aranges"], 26),
  ([".debug_frame"], 26),
  ([".debug_info"], 26),
  ([".debug_line"], 26),
  ([".debug_loc"], 26),
  ([".debug_pubnames"], 26),
  ([".debug_ranges"], 26),
  ([".debug_str"], 26),
  ([".gnu_debuglink"], 27),
  -- R
  ([".dynstr", ".interp"], 28),
  ([".rela.plt", ".note.ABI-tag"], 29),
  ([".rel.plt", ".note.gnu.build-id"], 30),
  ([".rela.bss"], 31),
  ([".rela.got", ".rela.dyn"], 32),
  ([".gnu.version_r", ".gnu.version", ".gnu.version_d"], 33),
  ([".rodata"], 34),
  ([".gnu.hash", ".hash"], 35),
  ([".rdata", ".gcc_except_table"], 36),
  ([".reloc"], 37),
  ([".rsrc"], 38),
  ([".rel.dyn"], 39),
  ([".note.netbsd.ident", ".note.netbsd.pax"], 40),
  ([".dynsym"], 41),
  -- T
  ([".text"], 42),
  ([".text.startup"], 45),
  ([".ctors_array"], 46),
  ([".dtors_array"], 47),
  ([".init_array"], 48),
  ([".fini_array"], 49),
  ([".init"], 50),
  ([".plt"], 51),
  ([".plt.got"], 52),
  ([".fini"], 53)]

/-- The names of the last condition of `get_section_name`, whose answer depends on a flag. -/
def ehFrameNames : List String := [".eh_frame_hdr", ".eh_frame"]

/-- The chain of `if`s of `get_section_name` over a table of conditions. -/
def lookupSectionName (m : MappedFile) (p : ℕ) : List (List String × ℤ) → Prog (Option ℤ)
  | [] => pure none
  | (lits, code) :: rest => do
    let found ← matchesAny m p lits
    if found then pure (some code) else lookupSectionName m p rest

/-- `get_section_name`. -/
def getSectionName (m : MappedFile) (shFlag p : ℕ) : Prog ℤ := do
  let code ← lookupSectionName m p sectionNameTable
  match code with
  | some code => pure code
  | none => do
    let eh ← matchesAny m p ehFrameNames
    if eh then pure (if shFlag &&& SHF_WRITE ≠ 0 then 20 else 40) else pure (-1)

/-! ## The stages -/

/-- The switch of `get_symbol_section_char` on a section's type and its 32-bit flag word. -/
def sectionChar (shType shFlags : ℕ) : UInt8 :=
  let c :=
    if shType = SHT_NOBITS then
      if shFlags &&& (SHF_ALLOC ||| SHF_WRITE) ≠ 0 then 'B'.toUInt8 else '?'.toUInt8
    else if shType = SHT_PROGBITS then
      if shFlags &&& SHF_ALLOC ≠ 0 then
        if shFlags &&& SHF_WRITE ≠ 0 then 'D'.toUInt8
        else if shFlags &&& SHF_EXECINSTR ≠ 0 then 'T'.toUInt8
        else 'R'.toUInt8
      else '?'.toUInt8
    else if shType ∈ [SHT_RELA, SHT_REL, SHT_HASH, SHT_GNU_versym, SHT_GNU_verdef, SHT_STRTAB,
        SHT_DYNSYM, SHT_NOTE] then
      if shFlags &&& SHF_ALLOC ≠ 0 then 'R'.toUInt8 else '?'.toUInt8
    else if shType = SHT_DYNAMIC then 'D'.toUInt8
    else '?'.toUInt8
  -- the source compares the flag word with `SHT_NULL`
  if shFlags = SHT_NULL then 'N'.toUInt8 else c

/-- `get_symbol_section_char`: the flag word is stored in a `uint32_t` for both classes. -/
def getSymbolSectionChar (file : TFile) (sect : ℕ) : Prog UInt8 := do
  let shType ← readShdr file.layout file sect file.layout.shType
  let shFlags ← readShdr file.layout file sect file.layout.shFlags
  pure (sectionChar shType (shFlags % 2 ^ 32))

/-- `get_symb_type_and_visibility`. -/
def getSymbTypeAndVisibility (symb : TSymb) : UInt8 :=
  let shndx := symb.sectionTabIndex
  if symb.binding = STB_GNU_UNIQUE then 'u'.toUInt8
  else if symb.binding = STB_WEAK ∧ symb.type = STT_OBJECT then
    if shndx = SHN_UNDEF then 'v'.toUInt8 else 'V'.toUInt8
  else if symb.binding = STB_WEAK ∧ symb.visibility = STV_DEFAULT then
    if shndx = SHN_UNDEF then 'w'.toUInt8 else 'W'.toUInt8
  else if shndx = SHN_ABS then 'A'.toUInt8
  else if symb.type = STT_GNU_IFUNC then 'i'.toUInt8
  else if shndx = SHN_UNDEF then 'U'.toUInt8
  else if shndx = SHN_COMMON then 'C'.toUInt8
  else '?'.toUInt8

/-- The ranges of `get_symb_based_on_section`. -/
def codeChar (ret : ℤ) : UInt8 :=
  if isInRange ret 0 2 then 'A'.toUInt8
  else if isInRange ret 3 5 then 'B'.toUInt8
  else if isInRange ret 6 20 then 'D'.toUInt8
  else if isInRange ret 21 27 then 'N'.toUInt8
  else if isInRange ret 28 41 then 'R'.toUInt8
  else if isInRange ret 42 53 then 'T'.toUInt8
  else '?'.toUInt8

/-- `get_symb_based_on_section`. -/
def getSymbBasedOnSection (file : TFile) (sect name : ℕ) : Prog UInt8 := do
  let shFlag ← readShdr file.layout file sect file.layout.shFlags
  let ret ← getSectionName file.data (shFlag % 2 ^ 32) name
  pure (codeChar ret)

/-- The names of `isNameMatch`. -/
def debugNames : List String := [
  ".debug_abbrev", ".debug_aranges", ".debug_frame", ".debug_info", ".debug_line",
  ".debug_loc", ".debug_pubnames", ".debug_ranges", ".debug_str"]

/-- `isNameMatch`. -/
def isNameMatch (m : MappedFile) (name : ℕ) : Prog Bool := matchesAny m name debugNames

/-- `TO_LOWER`. -/
def toLower (c : UInt8) : UInt8 := c ||| ' '.toUInt8

/-- `determine_symb`. -/
def determineSymb (file : TFile) (symb : TSymb) : Prog UInt8 := do
  let c := getSymbTypeAndVisibility symb
  let c ← (if c = '?'.toUInt8 then getSymbolSectionChar file symb.sectionTabIndex else pure c)
  let first ← readByte file.data symb.name
  let c ← (if first = '.'.toUInt8 ∧ symb.shType ≠ SHT_SYMTAB then
      getSymbBasedOnSection file symb.sectionTabIndex symb.name
    else pure c)
  let c := if c = '?'.toUInt8 then 'T'.toUInt8 else c
  if symb.binding = STB_LOCAL then do
    let debug ← isNameMatch file.data symb.name
    pure (if debug then c else toLower c)
  else pure c

end FtNm
