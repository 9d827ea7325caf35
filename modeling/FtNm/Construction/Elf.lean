import FtNm.Framework.AccessLog
import FtNm.Construction.Libft

/-!
# The mapped file and the program's data

`ft_nm` maps the whole file and reads it through pointers to the C structs of `elf.h`.  This
module fixes what such a read is.

* `Layout` lists, for one ELF class, where the members that the program reads stand in
  `Elf_Ehdr`, `Elf_Shdr` and `Elf_Sym`.  `elf32` and `elf64` are the two layouts.
* `MappedFile` is the file content.  A pointer into the mapping is its distance from the
  start of the mapping; pointer arithmetic is done in a 64-bit address space, so a distance
  only matters modulo `2 ^ 64` (`wrap`).
* `readByte`, `readField` and `readShdr` are the reads.  They log every byte offset they
  touch, and `readShdr` also the subscript it puts on the section header table.  A byte
  outside the mapping reads as `0`, like the tail of a mapped page; the log says that it was
  touched.
* `TSymb`, `TSyms`, `TFile` are `t_symb`, `t_syms`, `t_file` of `inc/ft_nm.h`, with a `char *`
  into the mapping kept as such a distance.
* `Exit` lists the error exits of the parser with the texts they print.

The `size` and `value` of an entry, the offsets and the counts are `uint64_t` and smaller, and
come out of reads of at most eight bytes, so natural numbers hold them.
-/

namespace FtNm

open AccessLog

/-! ## `elf.h` -/

/-- A struct member: its offset in the struct and its size in bytes. -/
structure Field where
  off : ℕ
  width : ℕ
  deriving DecidableEq, Repr

/-- The members of the on-disk structs of one ELF class that the program reads. -/
structure Layout where
  eiClass : UInt8
  eShoff : Field
  eShnum : Field
  eShstrndx : Field
  shentsize : ℕ
  shName : Field
  shType : Field
  shFlags : Field
  shOffset : Field
  shSize : Field
  shLink : Field
  symentsize : ℕ
  stName : Field
  stInfo : Field
  stOther : Field
  stShndx : Field
  stValue : Field
  stSize : Field

def ELFCLASS32 : UInt8 := 1
def ELFCLASS64 : UInt8 := 2
def ELFDATA2LSB : UInt8 := 1
def ELFDATA2MSB : UInt8 := 2

/-- `Elf32_Ehdr`, `Elf32_Shdr`, `Elf32_Sym`. -/
def elf32 : Layout where
  eiClass := ELFCLASS32
  eShoff := ⟨32, 4⟩
  eShnum := ⟨48, 2⟩
  eShstrndx := ⟨50, 2⟩
  shentsize := 40
  shName := ⟨0, 4⟩
  shType := ⟨4, 4⟩
  shFlags := ⟨8, 4⟩
  shOffset := ⟨16, 4⟩
  shSize := ⟨20, 4⟩
  shLink := ⟨24, 4⟩
  symentsize := 16
  stName := ⟨0, 4⟩
  stValue := ⟨4, 4⟩
  stSize := ⟨8, 4⟩
  stInfo := ⟨12, 1⟩
  stOther := ⟨13, 1⟩
  stShndx := ⟨14, 2⟩

/-- `Elf64_Ehdr`, `Elf64_Shdr`, `Elf64_Sym`. -/
def elf64 : Layout where
  eiClass := ELFCLASS64
  eShoff := ⟨40, 8⟩
  eShnum := ⟨60, 2⟩
  eShstrndx := ⟨62, 2⟩
  shentsize := 64
  shName := ⟨0, 4⟩
  shType := ⟨4, 4⟩
  shFlags := ⟨8, 8⟩
  shOffset := ⟨24, 8⟩
  shSize := ⟨32, 8⟩
  shLink := ⟨40, 4⟩
  symentsize := 24
  stName := ⟨0, 4⟩
  stInfo := ⟨4, 1⟩
  stOther := ⟨5, 1⟩
  stShndx := ⟨6, 2⟩
  stValue := ⟨8, 8⟩
  stSize := ⟨16, 8⟩

/-- `e_type`, which stands at the same place in both classes. -/
def eType : Field := ⟨16, 2⟩

/-- `ELFMAG0` to `ELFMAG3`. -/
def ELFMAG : List UInt8 := 0x7f :: cstr "ELF"

def ET_NONE : ℕ := 0
def ET_REL : ℕ := 1
def ET_EXEC : ℕ := 2
def ET_DYN : ℕ := 3
def ET_CORE : ℕ := 4

def SHT_NULL : ℕ := 0
def SHT_PROGBITS : ℕ := 1
def SHT_SYMTAB : ℕ := 2
def SHT_STRTAB : ℕ := 3
def SHT_RELA : ℕ := 4
def SHT_HASH : ℕ := 5
def SHT_DYNAMIC : ℕ := 6
def SHT_NOTE : ℕ := 7
def SHT_NOBITS : ℕ := 8
def SHT_REL : ℕ := 9
def SHT_DYNSYM : ℕ := 11
def SHT_GNU_verdef : ℕ := 0x6ffffffd
def SHT_GNU_versym : ℕ := 0x6fffffff

def SHF_WRITE : ℕ := 1
def SHF_ALLOC : ℕ := 2
def SHF_EXECINSTR : ℕ := 4

def SHN_UNDEF : ℕ := 0
def SHN_ABS : ℕ := 0xfff1
def SHN_COMMON : ℕ := 0xfff2

@[simp] lemma indices_ne : SHN_ABS ≠ SHN_COMMON ∧ SHN_COMMON ≠ SHN_ABS ∧ SHN_ABS ≠ SHN_UNDEF ∧
    SHN_UNDEF ≠ SHN_ABS ∧ SHN_UNDEF ≠ SHN_COMMON ∧ SHN_COMMON ≠ SHN_UNDEF := by
  decide

def STB_LOCAL : ℕ := 0
def STB_WEAK : ℕ := 2
def STB_GNU_UNIQUE : ℕ := 10

@[simp] lemma bindings_ne : STB_LOCAL ≠ STB_WEAK ∧ STB_WEAK ≠ STB_LOCAL ∧
    STB_LOCAL ≠ STB_GNU_UNIQUE ∧ STB_GNU_UNIQUE ≠ STB_LOCAL ∧ STB_WEAK ≠ STB_GNU_UNIQUE ∧
    STB_GNU_UNIQUE ≠ STB_WEAK := by
  decide

def STT_OBJECT : ℕ := 1
def STT_SECTION : ℕ := 3
def STT_GNU_IFUNC : ℕ := 10

def STV_DEFAULT : ℕ := 0

/-! ## The mapping -/

/-- Address arithmetic: a distance from the start of the mapping, in 64 bits. -/
def wrap (p : ℕ) : ℕ := p % 2 ^ 64

lemma wrap_of_lt {p : ℕ} (h : p < 2 ^ 64) : wrap p = p := Nat.mod_eq_of_lt h

/-- The content of a mapped file.  `mmap` refuses length `0`, and `st_size` is an `off_t`. -/
structure MappedFile where
  bytes : List UInt8
  size_pos : 0 < bytes.length
  size_lt : bytes.length < 2 ^ 63

namespace MappedFile

/-- `st_size`. -/
def size (m : MappedFile) : ℕ := m.bytes.length

/-- The byte at distance `p`. -/
def byteAt (m : MappedFile) (p : ℕ) : UInt8 := m.bytes.getD (wrap p) 0

/-- The `w`-byte integer at distance `p`, in the byte order of the host. -/
def uintAt (m : MappedFile) : (w p : ℕ) → ℕ
  | 0, _ => 0
  | w + 1, p => (m.byteAt p).toNat + 256 * m.uintAt w (p + 1)

/-- The member `fld` of the struct at distance `base`. -/
def fieldAt (m : MappedFile) (base : ℕ) (fld : Field) : ℕ := m.uintAt fld.width (base + fld.off)

/-- The C string at distance `p`. -/
def text (m : MappedFile) (p : ℕ) : List UInt8 := (m.bytes.drop (wrap p)).takeWhile (· ≠ 0)

lemma length_text_le (m : MappedFile) (p : ℕ) : (m.text p).length ≤ m.size :=
  (List.takeWhile_prefix _).length_le.trans (List.drop_suffix _ _).length_le

end MappedFile

/-! ## Reads and exits -/

/-- What the parser touches: a byte of the mapping, or an entry of the section header table. -/
inductive Access
  | byte (off : ℕ)
  | shdr (index : ℕ)
  deriving DecidableEq, Repr

/-- The error exits of the parser. -/
inductive Exit
  | invalidMagic
  | invalidClass
  | invalidData
  | invalidType
  | noSectionTable
  | allocFailed
  | invalidShoff
  deriving DecidableEq, Repr

/-- The text printed at each exit. -/
def Exit.message : Exit → String
  | .invalidMagic => "Invalid ELF header/magic number\n"
  | .invalidClass => "Invalid ELF class/arch\n"
  | .invalidData => "Invalid ELF data encoding(LSB/MSB)\n"
  | .invalidType => "Invalid ELF type\n"
  | .noSectionTable => "The file has no section header table\n"
  | .allocFailed => "Failed to allocate memory for symbol table\n"
  | .invalidShoff => "Invalid ELF section header offset\n"

/-- A step of the parser. -/
abbrev Prog := Run Access Exit

/-- Read one byte. -/
def readByte (m : MappedFile) (p : ℕ) : Prog UInt8 :=
  .touch [.byte (wrap p)] (m.byteAt p)

/-- The accesses of a read of `w` bytes from `p` on. -/
def span (p w : ℕ) : List Access := (List.range w).map fun k => .byte (wrap (p + k))

/-- Read a struct member. -/
def readField (m : MappedFile) (base : ℕ) (fld : Field) : Prog ℕ :=
  .touch (span (base + fld.off) fld.width) (m.fieldAt base fld)

/-! ## The structs of `ft_nm.h` -/

/-- `t_symb`. -/
structure TSymb where
  name : ℕ
  size : ℕ
  value : ℕ
  sectionTabIndex : ℕ
  type : ℕ
  binding : ℕ
  visibility : ℕ
  typeChar : UInt8
  shType : ℕ
  deriving DecidableEq, Repr

/-- `sizeof(t_symb)`. -/
def sizeofTSymb : ℕ := 40

/-- An entry as `ft_memset` leaves it. -/
def TSymb.zero : TSymb := ⟨0, 0, 0, 0, 0, 0, 0, 0, 0⟩

/-- `t_syms`. -/
structure TSyms where
  nSyms : ℕ
  nSymsCount : ℕ
  symtab : ℕ
  symtabSize : ℕ
  strtab : ℕ
  strtabSize : ℕ
  symb : List TSymb
  deriving DecidableEq, Repr

def TSyms.zero : TSyms := ⟨0, 0, 0, 0, 0, 0, []⟩

/-- `e_option`, in the order of its values. -/
inductive EOption
  | noSort
  | sortOrder
  | reverseSort
  | displayAll
  | undefinedSymbolsOnly
  | externalOnly
  deriving DecidableEq, Repr

def EOption.toInt : EOption → ℤ
  | .noSort => 0
  | .sortOrder => 1
  | .reverseSort => 2
  | .displayAll => 3
  | .undefinedSymbolsOnly => 4
  | .externalOnly => 5

/-- `t_file`: `shdr` is the pointer to the section header table, `shdr32` or `shdr64`; the
ELF header is at distance `0`. -/
structure TFile where
  path : List UInt8
  data : MappedFile
  is64 : Bool
  shdr : ℕ
  syms : TSyms
  option : EOption

/-- A file as `get_data_and_size` leaves it. -/
def TFile.mapped (path : List UInt8) (data : MappedFile) (option : EOption) : TFile where
  path := path
  data := data
  is64 := false
  shdr := 0
  syms := .zero
  option := option

/-- The structs that `file->is64` selects. -/
def TFile.layout (file : TFile) : Layout := if file.is64 then elf64 else elf32

/-- Read `shdr[index].fld`. -/
def readShdr (L : Layout) (file : TFile) (index : ℕ) (fld : Field) : Prog ℕ :=
  .touch (.shdr index :: span (file.shdr + L.shentsize * index + fld.off) fld.width)
    (file.data.fieldAt (file.shdr + L.shentsize * index) fld)

end FtNm
