import FtNm.Construction.Object
import FtNm.Properties.Support.Listing

/-!
# Reading an image back

What the parser's reads return on the image of an object.  `Holds.fieldAt` is the single read:
a member that was stored least significant byte first is read back as it is, one that was
stored the other way round is read `swapped`.

For a little-endian image the `Image` lemmas follow the parser from there: the members of the
header, of the section headers and of the symbol entries are the object's, the first symbol
table is its only one, and the two string tables give its names.
-/

namespace FtNm

open ByteOrder AccessLog

/-! ## Single reads -/

section Reads

variable {m : MappedFile}

lemma size_lt_two_pow (m : MappedFile) {p : ℕ} (h : p < m.size) : wrap p = p :=
  wrap_of_lt (h.trans (m.size_lt.trans (by decide)))

lemma lt_size_of_stored {b : UInt8} {bs : List UInt8} {p : ℕ} (h : b :: bs <+: m.bytes.drop p) :
    p < m.size := by
  have hlength := h.length_le
  rw [List.length_cons, List.length_drop] at hlength
  unfold MappedFile.size
  omega

lemma byteAt_of_stored {b : UInt8} {bs : List UInt8} {p : ℕ} (h : b :: bs <+: m.bytes.drop p) :
    m.byteAt p = b ∧ bs <+: m.bytes.drop (p + 1) := by
  have hp : p < m.bytes.length := lt_size_of_stored h
  rw [List.drop_eq_getElem_cons hp, List.cons_prefix_cons] at h
  refine ⟨?_, h.2⟩
  rw [MappedFile.byteAt, size_lt_two_pow m hp, List.getD_eq_getElem _ _ hp, h.1]

/-- Bytes that stand in the file are read as the number they make up. -/
lemma uintAt_of_stored {bs : List UInt8} {p : ℕ} (h : bs <+: m.bytes.drop p) :
    m.uintAt bs.length p = ofBytes bs := by
  induction bs generalizing p with
  | nil => rfl
  | cons b bs ih =>
    obtain ⟨hbyte, hrest⟩ := byteAt_of_stored h
    rw [List.length_cons, MappedFile.uintAt, hbyte, ih hrest, ofBytes]

/-- A string and its NUL that stand in the file are read as the string. -/
lemma HoldsString.text {p : ℕ} {s : CString} (h : HoldsString m p s.bytes) :
    m.text p = s.bytes := by
  obtain ⟨bytes, hnul⟩ := s
  unfold HoldsString at h
  dsimp only at h ⊢
  induction bytes generalizing p with
  | nil => exact m.text_of_byteAt_eq_zero (byteAt_of_stored h).1
  | cons b bs ih =>
    rw [List.mem_cons, not_or] at hnul
    obtain ⟨hbyte, hrest⟩ := byteAt_of_stored h
    rw [m.text_of_byteAt_ne_zero (hbyte ▸ Ne.symm hnul.1), hbyte, ih hnul.2 hrest]

/-- What a member that holds `v` is read as. -/
def readAs (bo : ByteOrder) (w v : ℕ) : ℕ :=
  match bo with
  | .little => v
  | .big => swapped w v

lemma readAs_eq_zero {bo : ByteOrder} {w v : ℕ} (h : v < 256 ^ w) :
    readAs bo w v = 0 ↔ v = 0 := by
  cases bo
  · rfl
  · exact swapped_eq_zero h

lemma Holds.fieldAt {bo : ByteOrder} {base v : ℕ} {fld : Field} (h : Holds bo m base fld v) :
    m.fieldAt base fld = readAs bo fld.width v := by
  have hread := uintAt_of_stored h.2
  rw [length_encode] at hread
  rw [MappedFile.fieldAt, hread]
  cases bo
  · exact ofBytes_encode_little h.1
  · rfl

/-- A member that is held lies inside the file. -/
lemma Holds.lt_size {bo : ByteOrder} {base v : ℕ} {fld : Field} (h : Holds bo m base fld v)
    (hwidth : 0 < fld.width) : base + fld.off < m.size := by
  have hlength := h.2.length_le
  rw [length_encode, List.length_drop] at hlength
  unfold MappedFile.size
  omega

lemma hasMagic_of_stored {magic : List UInt8} {p : ℕ} (h : magic <+: m.bytes.drop p) :
    HasMagic m p magic := by
  induction magic generalizing p with
  | nil => rfl
  | cons b bs ih =>
    obtain ⟨hbyte, hrest⟩ := byteAt_of_stored h
    exact (hasMagic_cons m p b bs).mpr ⟨hbyte, ih hrest⟩

end Reads

/-! ## The header -/

namespace Obj

variable (o : Obj)

lemma symtabIndex_lt : o.symtabIndex < o.sections.length := by
  have hpos : 0 < o.sections.countP fun s => s.type = SHT_SYMTAB := by
    rw [o.one_symtab]
    exact one_pos
  exact List.findIdx_lt_length.mpr (List.countP_pos_iff.mp hpos)

lemma symtab_section : ∃ s, o.sections[o.symtabIndex]? = some s :=
  ⟨_, List.getElem?_eq_getElem o.symtabIndex_lt⟩

lemma sections_pos : 0 < o.sections.length := (Nat.zero_le _).trans_lt o.symtabIndex_lt

end Obj

namespace Content

variable {is64 : Bool} {bo : ByteOrder} {o : Obj} {p : Placement} {m : MappedFile}

section Header

variable (h : Content (classLayout is64) bo o p m)

include h

lemma is64_eq : m.is64 = is64 := by
  rw [MappedFile.is64, h.eiClass]
  cases is64 <;> decide

lemma layout_eq : m.layout = classLayout is64 := by
  rw [MappedFile.layout, h.is64_eq]
  rfl

lemma shoff_eq : m.shoff = readAs bo (classLayout is64).eShoff.width p.shoff := by
  rw [MappedFile.shoff, h.layout_eq, h.shoff.fieldAt]

lemma shnum_eq : m.shnum = readAs bo (classLayout is64).eShnum.width o.sections.length := by
  rw [MappedFile.shnum, h.layout_eq, h.shnum.fieldAt]

/-- Of the header checks an image can fail only those of the encoding and of the type. -/
lemma headerExit_eq :
    m.headerExit =
      if m.DataOk then
        if readAs bo eType.width o.eType ∈ acceptedTypes then none else some .invalidType
      else some .invalidData := by
  have hmagic : HasMagic m 0 ELFMAG := hasMagic_of_stored h.magic
  have hclass : m.ClassOk := by
    unfold MappedFile.ClassOk
    rw [h.eiClass]
    cases is64 <;> decide
  have hshoff : m.shoff ≠ 0 := by
    rw [h.shoff_eq, ne_eq, readAs_eq_zero h.shoff.1]
    exact h.shoff_ne
  have hshnum : m.shnum ≠ 0 := by
    rw [h.shnum_eq, ne_eq, readAs_eq_zero h.shnum.1]
    exact o.sections_pos.ne'
  have htype : m.TypeOk ↔ readAs bo eType.width o.eType ∈ acceptedTypes := by
    rw [MappedFile.TypeOk, h.type.fieldAt]
  unfold MappedFile.headerExit MappedFile.ehdrExit
  rw [if_neg (not_not.mpr hmagic), if_neg (not_not.mpr hclass), if_neg hshoff, if_neg hshnum,
    if_congr (not_congr htype) rfl rfl]
  split_ifs <;> rfl

lemma headerOk_iff : HeaderOk m ↔ m.DataOk ∧ readAs bo eType.width o.eType ∈ acceptedTypes := by
  rw [HeaderOk, h.headerExit_eq]
  split_ifs <;> simp [*]

lemma shoff_lt_size : p.shoff < m.size := by
  have hfirst := h.sections 0 _ (List.getElem?_eq_getElem o.sections_pos)
  have hlt := hfirst.type.lt_size (by cases is64 <;> decide)
  omega

end Header

/-! ## The tables -/

section Tables

variable (h : Content (classLayout is64) .little o p m)

include h

/-- A member of a section header is read as it was stored. -/
lemma shdr_eq {i v : ℕ} {fld : Layout → Field}
    (hv : Holds .little m (p.shoff + (classLayout is64).shentsize * i)
      (fld (classLayout is64)) v) : m.shdr i fld = v := by
  have hshoff : m.shoff = p.shoff := h.shoff_eq
  rw [MappedFile.shdr, h.layout_eq, hshoff, hv.fieldAt]
  rfl

/-- The first symbol table that the parser meets is the one of the object. -/
lemma symtabIndex_eq : m.symtabIndex = some o.symtabIndex := by
  have hshnum : m.shnum = o.sections.length := h.shnum_eq
  have htype : ∀ i (hi : i < o.sections.length), m.shdr i Layout.shType = o.sections[i].type :=
    fun i hi => h.shdr_eq (h.sections i _ (List.getElem?_eq_getElem hi)).type
  rw [MappedFile.symtabIndex, hshnum, List.find?_range'_eq_some]
  refine ⟨?_, ?_, ?_⟩
  · rw [htype _ o.symtabIndex_lt]
    exact List.findIdx_getElem (p := fun s : Sec => s.type = SHT_SYMTAB)
  · simpa using o.symtabIndex_lt
  · intro i _ hi
    rw [htype i (hi.trans o.symtabIndex_lt), List.not_of_lt_findIdx hi]
    rfl

lemma symtabOffset_eq : m.shdr o.symtabIndex Layout.shOffset = p.offset o.symtabIndex := by
  obtain ⟨s, hs⟩ := o.symtab_section
  exact h.shdr_eq (h.sections _ _ hs).offset

lemma nSyms_eq : m.nSyms o.symtabIndex = o.symbols.length := by
  obtain ⟨s, hs⟩ := o.symtab_section
  have hpos : 0 < (classLayout is64).symentsize := by cases is64 <;> decide
  rw [MappedFile.nSyms, h.shdr_eq (h.sections _ _ hs).size, h.layout_eq, h.symtab_size,
    Nat.mul_div_cancel_left _ hpos]

lemma strtab_eq : m.strtab o.symtabIndex = p.offset p.strndx := by
  rw [MappedFile.strtab, h.shdr_eq h.symtab_link]
  exact h.shdr_eq (h.sections _ _ (List.getElem?_eq_getElem h.strndx_lt)).offset

lemma stringTable_eq : m.stringTable = p.offset p.shstrndx := by
  have hshstrndx : m.shstrndx = p.shstrndx := by
    rw [MappedFile.shstrndx, h.layout_eq, h.shstrndx.fieldAt]
    rfl
  rw [MappedFile.stringTable, hshstrndx]
  exact h.shdr_eq (h.sections _ _ (List.getElem?_eq_getElem h.shstrndx_lt)).offset

/-- A member of a symbol entry is read as it was stored. -/
lemma sym_eq {j v : ℕ} {fld : Layout → Field}
    (hv : Holds .little m (p.offset o.symtabIndex + (classLayout is64).symentsize * j)
      (fld (classLayout is64)) v) : m.sym o.symtabIndex j fld = v := by
  rw [MappedFile.sym, h.layout_eq, h.symtabOffset_eq, hv.fieldAt]
  rfl

lemma allocOk_iff {malloc : ℕ → Bool} :
    AllocOk malloc m ↔ malloc (mallocBytes o.symbols.length) = true := by
  rw [AllocOk, h.symtabIndex_eq, ← h.nSyms_eq]
  exact ⟨fun ha => ha _ rfl, fun ha i hi => Option.some.inj hi ▸ ha⟩

/-- The image is listed when its type is one that the program knows and the symbol array can be
allocated. -/
lemma listed_iff {malloc : ℕ → Bool} :
    Listed malloc m ↔ m.DataOk ∧ o.eType ∈ acceptedTypes ∧
      malloc (mallocBytes o.symbols.length) = true := by
  have hshoff : m.shoff = p.shoff := h.shoff_eq
  rw [Listed, h.headerOk_iff, h.allocOk_iff, hshoff, and_iff_left h.shoff_lt_size.le, and_assoc]
  rfl

/-- The outcome of loading an image. -/
lemma out_loadFile (hdata : m.DataOk) (malloc : ℕ → Bool) (path : List UInt8)
    (option : EOption) :
    (loadFile malloc (TFile.mapped path m option)).out =
      if o.eType ∈ acceptedTypes then
        if malloc (mallocBytes o.symbols.length) then .ok (TFile.parsed path m option)
        else .error .allocFailed
      else .error .invalidType := by
  have hexit : m.headerExit = if o.eType ∈ acceptedTypes then none else some .invalidType := by
    rw [h.headerExit_eq, if_pos hdata]
    rfl
  have hparse := out_parseFile m path option malloc
  by_cases htype : o.eType ∈ acceptedTypes
  · by_cases hmalloc : malloc (mallocBytes o.symbols.length) = true
    · rw [if_pos htype, if_pos hmalloc]
      exact (out_loadFile_listed m path option).mpr
        ⟨h.listed_iff.mpr ⟨hdata, htype, hmalloc⟩, rfl⟩
    · rw [hexit, if_pos htype, h.symtabIndex_eq] at hparse
      dsimp only at hparse
      rw [h.nSyms_eq, if_neg hmalloc] at hparse
      rw [if_pos htype, if_neg hmalloc]
      exact Run.out_bind_of_error hparse _
  · rw [hexit, if_neg htype] at hparse
    rw [if_neg htype]
    exact Run.out_bind_of_error hparse _

end Tables

end Content

end FtNm
