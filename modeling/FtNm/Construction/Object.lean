import FtNm.Framework.ByteOrder
import FtNm.Construction.ManageELF

/-!
# Objects and their images

What an ELF file is a serialisation of.  Nothing here is translated from the program: this is
the abstract side of the parser.

* `Obj` is an object: an `e_type`, sections and symbols, with the constraints that make it one.
* `Image L bo o p m` says that the file `m` is the object `o` serialised with the structs of
  `L`, in the byte order `bo`, at the places that `p` gives.  It asks for the members that
  matter to a reader of symbols only, and leaves the rest of the file free: tables and strings
  may stand anywhere, in any order, and overlap.  `Content` is the same without what the file
  declares its byte order to be.
* `ehdrBytes`, `shdrBytes` and `symBytes` write the structs down, for building actual files.
-/

namespace FtNm

/-! ## Objects -/

/-- A section: its name, type and flags. -/
structure Sec where
  name : CString
  type : ℕ
  flags : ℕ

/-- A symbol. -/
structure Sym where
  name : CString
  value : ℕ
  size : ℕ
  type : ℕ
  binding : ℕ
  visibility : ℕ
  shndx : ℕ
  type_lt : type < 16
  binding_lt : binding < 16
  visibility_lt : visibility < 4

/-- A section index that refers to a section of the object, or to none for one of the three
reasons the program knows. -/
def ShndxOk (nSections shndx : ℕ) : Prop :=
  shndx = SHN_UNDEF ∨ shndx = SHN_ABS ∨ shndx = SHN_COMMON ∨ shndx < nSections

instance (nSections shndx : ℕ) : Decidable (ShndxOk nSections shndx) :=
  inferInstanceAs (Decidable (_ ∨ _))

/-- An object with one symbol table. -/
structure Obj where
  eType : ℕ
  sections : List Sec
  symbols : List Sym
  sections_lt : sections.length < 0xff00
  one_symtab : sections.countP (fun s => s.type = SHT_SYMTAB) = 1
  shndx_ok : ∀ s ∈ symbols, ShndxOk sections.length s.shndx

namespace Obj

/-- The index of the symbol table. -/
def symtabIndex (o : Obj) : ℕ := o.sections.findIdx fun s => s.type = SHT_SYMTAB

end Obj

/-! ## Images -/

/-- Where the parts of an object stand in its image: the section header table, the sections
that hold the section names and the symbol names, the content of each section, and each name
in its string table. -/
structure Placement where
  shoff : ℕ
  shstrndx : ℕ
  strndx : ℕ
  offset : ℕ → ℕ
  size : ℕ → ℕ
  secName : ℕ → ℕ
  symName : ℕ → ℕ

/-- The struct at `base` has `v` in its member `fld`. -/
def Holds (bo : ByteOrder) (m : MappedFile) (base : ℕ) (fld : Field) (v : ℕ) : Prop :=
  v < 256 ^ fld.width ∧ bo.encode fld.width v <+: m.bytes.drop (base + fld.off)

/-- The C string at `p` is `s`. -/
def HoldsString (m : MappedFile) (p : ℕ) (s : List UInt8) : Prop :=
  s ++ [0] <+: m.bytes.drop p

/-- `e_ident[EI_DATA]` for a byte order. -/
def eiData : ByteOrder → UInt8
  | .little => ELFDATA2LSB
  | .big => ELFDATA2MSB

/-- The structs of an ELF class. -/
def classLayout (is64 : Bool) : Layout := if is64 then elf64 else elf32

section Image

variable (L : Layout) (bo : ByteOrder) (o : Obj) (p : Placement) (m : MappedFile)

/-- The section header at `base` is that of section `i`, which is `s`. -/
@[mk_iff]
structure SecImage (base i : ℕ) (s : Sec) : Prop where
  name : Holds bo m base L.shName (p.secName i)
  type : Holds bo m base L.shType s.type
  flags : Holds bo m base L.shFlags s.flags
  offset : Holds bo m base L.shOffset (p.offset i)
  size : Holds bo m base L.shSize (p.size i)
  string : HoldsString m (p.offset p.shstrndx + p.secName i) s.name.bytes

/-- The symbol entry at `base` is that of symbol `j`, which is `s`. -/
@[mk_iff]
structure SymImage (base j : ℕ) (s : Sym) : Prop where
  name : Holds bo m base L.stName (p.symName j)
  value : Holds bo m base L.stValue s.value
  size : Holds bo m base L.stSize s.size
  info : Holds bo m base L.stInfo (s.binding * 16 + s.type)
  other : Holds bo m base L.stOther s.visibility
  shndx : Holds bo m base L.stShndx s.shndx
  string : HoldsString m (p.offset p.strndx + p.symName j) s.name.bytes

/-- The file `m` holds the object `o`, with its parts where `p` says, in the byte order `bo`,
whatever it declares. -/
@[mk_iff]
structure Content : Prop where
  magic : ELFMAG <+: m.bytes
  eiClass : m.byteAt 4 = L.eiClass
  type : Holds bo m 0 eType o.eType
  shoff : Holds bo m 0 L.eShoff p.shoff
  shoff_ne : p.shoff ≠ 0
  shnum : Holds bo m 0 L.eShnum o.sections.length
  shstrndx : Holds bo m 0 L.eShstrndx p.shstrndx
  shstrndx_lt : p.shstrndx < o.sections.length
  sections : ∀ i s, o.sections[i]? = some s →
    SecImage L bo p m (p.shoff + L.shentsize * i) i s
  symtab_size : p.size o.symtabIndex = L.symentsize * o.symbols.length
  symtab_link : Holds bo m (p.shoff + L.shentsize * o.symtabIndex) L.shLink p.strndx
  strndx_lt : p.strndx < o.sections.length
  symbols : ∀ j s, o.symbols[j]? = some s →
    SymImage L bo p m (p.offset o.symtabIndex + L.symentsize * j) j s

/-- The file `m` is the object `o`, and declares the byte order it is in. -/
structure Image : Prop extends Content L bo o p m where
  eiData : m.byteAt 5 = eiData bo

/-! Whether a file is a given object can be decided. -/

instance (base : ℕ) (fld : Field) (v : ℕ) : Decidable (Holds bo m base fld v) :=
  inferInstanceAs (Decidable (_ ∧ _))

instance (pos : ℕ) (s : List UInt8) : Decidable (HoldsString m pos s) :=
  inferInstanceAs (Decidable (_ <+: _))

instance (base i : ℕ) (s : Sec) : Decidable (SecImage L bo p m base i s) :=
  decidable_of_iff _ (secImage_iff L bo p m base i s).symm

instance (base j : ℕ) (s : Sym) : Decidable (SymImage L bo p m base j s) :=
  decidable_of_iff _ (symImage_iff L bo p m base j s).symm

instance decidableForallGetElem {α : Type} (xs : List α) (q : ℕ → α → Prop)
    [∀ i a, Decidable (q i a)] : Decidable (∀ i a, xs[i]? = some a → q i a) :=
  decidable_of_iff (∀ i (hi : i < xs.length), q i xs[i])
    ⟨fun h i a ha => by
      obtain ⟨hi, rfl⟩ := List.getElem?_eq_some_iff.mp ha
      exact h i hi, fun h i hi => h i _ (List.getElem?_eq_getElem hi)⟩

instance : Decidable (Content L bo o p m) := decidable_of_iff _ (content_iff L bo o p m).symm

instance : Decidable (Image L bo o p m) :=
  decidable_of_iff (Content L bo o p m ∧ m.byteAt 5 = eiData bo)
    ⟨fun h => ⟨h.1, h.2⟩, fun h => ⟨h.1, h.2⟩⟩

end Image

/-! ## Writing the structs -/

/-- The bytes of a struct of `n` bytes with the given members, and zeros elsewhere. -/
def structBytes (bo : ByteOrder) (n : ℕ) : List (Field × ℕ) → List UInt8
  | [] => List.replicate n 0
  | (fld, v) :: rest =>
    let bytes := structBytes bo n rest
    bytes.take fld.off ++ bo.encode fld.width v ++ bytes.drop (fld.off + fld.width)

/-- The size of the ELF header, which ends with `e_shstrndx`. -/
def Layout.ehsize (L : Layout) : ℕ := L.eShstrndx.off + L.eShstrndx.width

/-- An ELF header. -/
def ehdrBytes (L : Layout) (bo : ByteOrder) (type shoff shnum shstrndx : ℕ) : List UInt8 :=
  ELFMAG ++ [L.eiClass, eiData bo, 1] ++ (structBytes bo L.ehsize [
    (eType, type), (⟨20, 4⟩, 1), (L.eShoff, shoff), (⟨L.eShnum.off - 8, 2⟩, L.ehsize),
    (⟨L.eShnum.off - 2, 2⟩, L.shentsize), (L.eShnum, shnum), (L.eShstrndx, shstrndx)]).drop 7

/-- A section header. -/
def shdrBytes (L : Layout) (bo : ByteOrder) (name type flags offset size link : ℕ) :
    List UInt8 :=
  structBytes bo L.shentsize [(L.shName, name), (L.shType, type), (L.shFlags, flags),
    (L.shOffset, offset), (L.shSize, size), (L.shLink, link)]

/-- A symbol entry. -/
def symBytes (L : Layout) (bo : ByteOrder) (name binding type visibility shndx value size : ℕ) :
    List UInt8 :=
  structBytes bo L.symentsize [(L.stName, name), (L.stInfo, binding * 16 + type),
    (L.stOther, visibility), (L.stShndx, shndx), (L.stValue, value), (L.stSize, size)]

/-- An ELF file with three sections: the empty one, a symbol table with the given entries, and
a string table that serves the symbol names and the section names alike. -/
def tableFile (L : Layout) (bo : ByteOrder) (type : ℕ) (symbols strings : List UInt8) :
    List UInt8 :=
  let strtab := L.ehsize + symbols.length
  ehdrBytes L bo type (strtab + strings.length) 3 2 ++ symbols ++ strings ++
    shdrBytes L bo 0 SHT_NULL 0 0 0 0 ++
    shdrBytes L bo 0 SHT_SYMTAB 0 L.ehsize symbols.length 2 ++
    shdrBytes L bo 0 SHT_STRTAB 0 strtab strings.length 0

/-- The same with a fourth section, of the given name, type and flags. -/
def sectionFile (L : Layout) (bo : ByteOrder) (type name shType shFlags : ℕ)
    (symbols strings : List UInt8) : List UInt8 :=
  let strtab := L.ehsize + symbols.length
  ehdrBytes L bo type (strtab + strings.length) 4 2 ++ symbols ++ strings ++
    shdrBytes L bo 0 SHT_NULL 0 0 0 0 ++
    shdrBytes L bo 0 SHT_SYMTAB 0 L.ehsize symbols.length 2 ++
    shdrBytes L bo 0 SHT_STRTAB 0 strtab strings.length 0 ++
    shdrBytes L bo name shType shFlags 0 0 0

/-- An object whose symbols cover the four kinds of section indices. -/
def sampleObj (type : ℕ) : Obj where
  eType := type
  sections := [⟨⟨[], by decide⟩, SHT_NULL, 0⟩, ⟨⟨cstr ".symtab", by decide⟩, SHT_SYMTAB, 0⟩,
    ⟨⟨cstr ".strtab", by decide⟩, SHT_STRTAB, 0⟩,
    ⟨⟨cstr ".text", by decide⟩, SHT_PROGBITS, SHF_ALLOC ||| SHF_EXECINSTR⟩]
  symbols := [
    ⟨⟨[], by decide⟩, 0, 0, 0, 0, 0, SHN_UNDEF, by decide, by decide, by decide⟩,
    ⟨⟨[], by decide⟩, 0, 0, STT_SECTION, STB_LOCAL, 0, 3, by decide, by decide, by decide⟩,
    ⟨⟨cstr "b", by decide⟩, 513, 4, STT_OBJECT, 1, 0, SHN_ABS, by decide, by decide, by decide⟩,
    ⟨⟨cstr "a", by decide⟩, 8, 2, 0, 1, 2, SHN_COMMON, by decide, by decide, by decide⟩]
  sections_lt := by decide
  one_symtab := by decide
  shndx_ok := by decide

/-- The content of the string table of `sampleObj`, for its symbols and its sections. -/
def sampleStrings : List UInt8 :=
  0 :: cstr "b" ++ 0 :: cstr "a" ++ 0 :: cstr ".symtab" ++ 0 :: cstr ".strtab" ++
    0 :: cstr ".text" ++ [0]

/-- Where the parts of `sampleFile` stand: the symbols behind the header, then the strings and the
section headers. -/
def samplePlacement (L : Layout) : Placement where
  shoff := L.ehsize + L.symentsize * 4 + sampleStrings.length
  shstrndx := 2
  strndx := 2
  offset := fun i => [0, L.ehsize, L.ehsize + L.symentsize * 4].getD i 0
  size := fun i => [0, L.symentsize * 4, sampleStrings.length].getD i 0
  secName := fun i => [0, 5, 13, 21].getD i 0
  symName := fun j => [0, 0, 1, 3].getD j 0

/-- `sampleObj`, written out. -/
def sampleFile (L : Layout) (bo : ByteOrder) (type : ℕ) : List UInt8 :=
  let p := samplePlacement L
  let symbols := (sampleObj type).symbols.zipIdx.flatMap fun (s, j) =>
    symBytes L bo (p.symName j) s.binding s.type s.visibility s.shndx s.value s.size
  let sections := (sampleObj type).sections.zipIdx.flatMap fun (s, i) =>
    shdrBytes L bo (p.secName i) s.type s.flags (p.offset i) (p.size i)
      (if s.type = SHT_SYMTAB then p.strndx else 0)
  ehdrBytes L bo type p.shoff 4 p.shstrndx ++ symbols ++ sampleStrings ++ sections

end FtNm
