import FtNm.Construction.Object
import FtNm.Properties.Support.ParseAccess

/-!
# Reading inside the file

The parser follows offsets, counts and indices that come out of the file itself.  `FileBounds`
says that it never leaves the file doing so, and that a section header table that starts past
the end of the file is turned down before it is used.

The source checks neither: the one range check there is, on `e_shoff`, stands after the symbol
table has been parsed, and nothing bounds the rest.  `ReadsInside` collects what the program
takes on trust, stage by stage in the terms of the file, and `fileBounds_iff` says that it is
exactly what is missing.
-/

namespace FtNm

open AccessLog

namespace MappedFile

variable (m : MappedFile)

/-- The struct member `fld` at `base` lies inside the file. -/
def FieldInside (base : ℕ) (fld : Field) : Prop :=
  ∀ k < fld.width, wrap (base + fld.off + k) < m.size

/-- The member `fld` of section header `i` lies inside the file. -/
def ShdrInside (i : ℕ) (fld : Layout → Field) : Prop :=
  m.FieldInside (m.shoff + m.layout.shentsize * i) (fld m.layout)

/-- The file reaches as far as the header checks look. -/
structure HeadersInside : Prop where
  magic : ¬(m.bytes <+: ELFMAG ∧ m.size < ELFMAG.length)
  eiClass : HasMagic m 0 ELFMAG → 4 < m.size
  eiData : HasMagic m 0 ELFMAG → m.ClassOk → 5 < m.size
  type : HasMagic m 0 ELFMAG → m.ClassOk → m.DataOk → m.FieldInside 0 eType
  shoff : HasMagic m 0 ELFMAG → m.ClassOk → m.DataOk → m.TypeOk →
    m.FieldInside 0 m.layout.eShoff
  shnum : HasMagic m 0 ELFMAG → m.ClassOk → m.DataOk → m.TypeOk → m.shoff ≠ 0 →
    m.FieldInside 0 m.layout.eShnum

/-- What the parser follows for entry `j` of the symbol table `i` leads inside the file: the
entry and the first byte of its name; for an unnamed symbol the name of its section; for a
letter that depends on the section the section's header; for a name that is compared with
literals each comparison. -/
structure SymbInside (i j : ℕ) : Prop where
  fields : ∀ fld ∈ symFields, m.FieldInside (m.symBase i j) (fld m.layout)
  ownName : wrap (m.ownName i j) < m.size
  shName : m.Unnamed i j → m.ShdrInside (m.sym i j Layout.stShndx) Layout.shName
  sect : getSymbTypeAndVisibility (m.rawSymb i j) = '?'.toUInt8 →
    m.ShdrInside (m.sym i j Layout.stShndx) Layout.shType ∧
      m.ShdrInside (m.sym i j Layout.stShndx) Layout.shFlags
  name : wrap (m.rawSymb i j).name < m.size
  dotted : DottedSection m (m.rawSymb i j) →
    m.ShdrInside (m.sym i j Layout.stShndx) Layout.shFlags ∧
      ∀ lit ∈ sectionNames, ScanInside m (m.rawSymb i j).name (cstr lit)
  debug : (m.rawSymb i j).binding = STB_LOCAL →
    ∀ lit ∈ debugNames, ScanInside m (m.rawSymb i j).name (cstr lit)

/-- What the parser follows for the symbol table `i` leads inside the file. -/
structure TableInside (malloc : ℕ → Bool) (i : ℕ) : Prop where
  size : m.ShdrInside i Layout.shSize
  link : malloc (mallocBytes (m.nSyms i)) = true → m.ShdrInside i Layout.shLink
  strtab : malloc (mallocBytes (m.nSyms i)) = true →
    m.ShdrInside (m.shdr i Layout.shLink) Layout.shOffset
  strtabSize : malloc (mallocBytes (m.nSyms i)) = true →
    m.ShdrInside (m.shdr i Layout.shLink) Layout.shSize
  symtab : malloc (mallocBytes (m.nSyms i)) = true → m.ShdrInside i Layout.shOffset
  symb : malloc (mallocBytes (m.nSyms i)) = true → ∀ j < m.nSyms i, m.SymbInside i j

/-- What the parser follows after the header checks leads inside the file. -/
structure BodyInside (malloc : ℕ → Bool) : Prop where
  shoff_le : m.shoff ≤ m.size
  shstrndx : m.FieldInside 0 m.layout.eShstrndx
  stringTable : m.ShdrInside m.shstrndx Layout.shOffset
  types : ∀ i, m.Scanned i → m.ShdrInside i Layout.shType
  table : ∀ i, m.symtabIndex = some i → m.TableInside malloc i

/-- Everything the parser takes on trust about where the file leads. -/
structure ReadsInside (malloc : ℕ → Bool) : Prop where
  headers : m.HeadersInside
  body : HeaderOk m → m.BodyInside malloc

end MappedFile

/-- **File bounds.**  Up to where it stops, the parse reads the file at offsets below its size
only; and a file that passes the header checks with a section header table past its end is
rejected for that, with no section header read. -/
structure FileBounds (malloc : ℕ → Bool) (m : MappedFile) (path : List UInt8)
    (option : EOption) : Prop where
  inside : (parseFile malloc (TFile.mapped path m option)).All (InFile m)
  shoff : HeaderOk m → m.shoff > m.size →
    (loadFile malloc (TFile.mapped path m option)).out = .error .invalidShoff ∧
      ∀ i, .shdr i ∉ (loadFile malloc (TFile.mapped path m option)).log

/-! ## The stages -/

section Stages

variable (m : MappedFile) (path : List UInt8) (option : EOption)

/-- Comparing the start of the file with the magic number leaves the file exactly when the
file ends before the comparison is decided. -/
lemma magicOk_inFile {p : ℕ} (hp : p ≤ m.size) (magic : List UInt8) :
    MagicOk (InFile m) m p magic ↔
      ¬(m.bytes.drop p <+: magic ∧ m.size - p < magic.length) := by
  induction magic generalizing p with
  | nil => simp [MagicOk]
  | cons c cs ih =>
    have hwrap : wrap p = p := wrap_of_lt (hp.trans_lt (m.size_lt.trans (by decide)))
    rw [MagicOk, InFile, hwrap]
    rcases Nat.eq_or_lt_of_le hp with rfl | hlt
    · simp [MappedFile.size]
    · have hlength : p < m.bytes.length := hlt
      have hbyte : m.byteAt p = m.bytes[p] := by
        rw [MappedFile.byteAt, hwrap, List.getD_eq_getElem _ _ hlength]
      rw [ih hlt, List.drop_eq_getElem_cons hlength, List.cons_prefix_cons, hbyte, List.length_cons]
      have hlen : m.size - (p + 1) < cs.length ↔ m.size - p < cs.length + 1 := by omega
      rw [hlen]
      tauto

lemma headersOk_inFile : HeadersOk (InFile m) m ↔ m.HeadersInside := by
  have hmagic := magicOk_inFile m (Nat.zero_le _) ELFMAG
  rw [List.drop_zero, Nat.sub_zero] at hmagic
  exact ⟨fun h => ⟨hmagic.mp h.magic, h.eiClass, h.eiData, h.type, h.shoff, h.shnum⟩,
    fun h => ⟨hmagic.mpr h.magic, h.eiClass, h.eiData, h.type, h.shoff, h.shnum⟩⟩

lemma shdrOk_inFile (i : ℕ) (fld : Layout → Field) :
    ShdrOk (InFile m) m i fld ↔ m.ShdrInside i fld :=
  and_iff_right trivial

lemma symbOk_inFile (hshnum : m.FieldInside 0 m.layout.eShnum) (i j : ℕ) :
    SymbOk (InFile m) m path option i j ↔ m.SymbInside i j := by
  have hdebug : (isNameMatch m (m.rawSymb i j).name).All (InFile m) ↔
      ∀ lit ∈ debugNames, ScanInside m (m.rawSymb i j).name (cstr lit) :=
    all_matchesAny_inside m _ _ nulFree_debugNames
  unfold SymbOk
  rw [all_determineSymb, hdebug, all_getSectionName_inside]
  simp only [shdrOk_inFile, MappedFile.rawSymb_sectionTabIndex]
  constructor
  · rintro ⟨hfields, hown, -, hname, hsect, hfirst, hdotted, hlocal⟩
    exact ⟨hfields, hown, hname, hsect, hfirst, hdotted, hlocal⟩
  · rintro ⟨hfields, hown, hname, hsect, hfirst, hdotted, hlocal⟩
    exact ⟨hfields, hown, fun _ => hshnum, hname, hsect, hfirst, hdotted, hlocal⟩

lemma tableOk_inFile (hshnum : m.FieldInside 0 m.layout.eShnum) (malloc : ℕ → Bool) (i : ℕ) :
    TableOk (InFile m) m path option malloc i ↔ m.TableInside malloc i := by
  unfold TableOk
  simp only [shdrOk_inFile, symbOk_inFile m path option hshnum]
  constructor
  · rintro ⟨hsize, hrest⟩
    exact ⟨hsize, fun h => (hrest h).1, fun h => (hrest h).2.1, fun h => (hrest h).2.2.1,
      fun h => (hrest h).2.2.2.1, fun h => (hrest h).2.2.2.2⟩
  · rintro ⟨hsize, hlink, hstrtab, hstrtabSize, hsymtab, hsymb⟩
    exact ⟨hsize, fun h => ⟨hlink h, hstrtab h, hstrtabSize h, hsymtab h, hsymb h⟩⟩

/-- A file that passes the header checks has a section header read. -/
lemma shdr_mem_log {malloc : ℕ → Bool} (hheader : HeaderOk m) :
    .shdr m.shstrndx ∈ (loadFile malloc (TFile.mapped path m option)).log := by
  by_contra hnot
  have hall : (loadFile malloc (TFile.mapped path m option)).All (· ≠ .shdr m.shstrndx) :=
    fun a ha h => hnot (h ▸ ha)
  unfold loadFile at hall
  rw [Run.all_bind] at hall
  have hbody := ((all_parseFile _ m path option malloc).mp hall.1).2 hheader
  exact hbody.2.1.1 rfl

end Stages

/-! ## The condition -/

/-- **When the parser stays inside the file.** -/
theorem fileBounds_iff (malloc : ℕ → Bool) (m : MappedFile) (path : List UInt8)
    (option : EOption) : FileBounds malloc m path option ↔ m.ReadsInside malloc := by
  constructor
  · rintro ⟨hinside, hshoff⟩
    obtain ⟨hheaders, hbody⟩ := (all_parseFile _ m path option malloc).mp hinside
    refine ⟨(headersOk_inFile m).mp hheaders, ?_⟩
    intro hok
    obtain ⟨hshstrndx, hstring, hshnum, htypes, htable⟩ := hbody hok
    refine ⟨?_, hshstrndx, hstring.2, fun i hi => (htypes i hi).2,
      fun i hi => (tableOk_inFile m path option hshnum malloc i).mp (htable i hi)⟩
    by_contra hgt
    exact (hshoff hok (Nat.lt_of_not_le hgt)).2 _ (shdr_mem_log m path option hok)
  · rintro ⟨hheaders, hbody⟩
    constructor
    · refine (all_parseFile _ m path option malloc).mpr
        ⟨(headersOk_inFile m).mpr hheaders, ?_⟩
      intro hok
      obtain ⟨hmagic, hclass, hdata, htype, hshoff, hshnum⟩ := (headerOk_iff m).mp hok
      have hshnumInside := hheaders.shnum hmagic hclass hdata htype hshoff
      have hb := hbody hok
      exact ⟨hb.shstrndx, ⟨trivial, hb.stringTable⟩, hshnumInside,
        fun i hi => ⟨trivial, hb.types i hi⟩,
        fun i hi => (tableOk_inFile m path option hshnumInside malloc i).mpr (hb.table i hi)⟩
    · intro hok hgt
      exact absurd (hbody hok).shoff_le (Nat.not_le_of_lt hgt)

/-- An ELF header that puts the section header table where the file ends. -/
def headerOnly : MappedFile := ⟨ehdrBytes elf64 .little ET_DYN 64 1 0, by decide, by decide⟩

/-- A file that is listed, and read past its end. -/
theorem not_fileBounds_headerOnly :
    (∃ file, (loadFile (fun _ => true) (TFile.mapped [] headerOnly .sortOrder)).out = .ok file) ∧
      headerOnly.size = 64 ∧
      .byte 68 ∈ (parseFile (fun _ => true) (TFile.mapped [] headerOnly .sortOrder)).log ∧
      ¬FileBounds (fun _ => true) headerOnly [] .sortOrder := by
  refine ⟨⟨_, rfl⟩, by decide, by decide, ?_⟩
  intro h
  have hread : 68 < headerOnly.size := h.inside (.byte 68) (by decide)
  exact absurd hread (by decide)

end FtNm
