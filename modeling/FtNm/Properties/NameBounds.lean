import FtNm.Construction.Object
import FtNm.Properties.Support.Listing

/-!
# Names inside their string tables

A name is an offset into a string table, and the table has a size.  `NamesInside` says that
every stored name is a string of its table: it starts in it, and its terminator is a byte of
the file that still belongs to it.  `NamesChecked` asks this of every listed file, and that a
file with a string table that is not terminated is not listed.

The parser adds the offset to the start of the table and records the size of the symbol string
table, `strtab_size`, but nothing reads it again.  So the names of a listed file are in order
exactly when they were to begin with: `namesChecked_iff`.
-/

namespace FtNm

/-- The string at offset `off` of the table of `size` bytes at `table` ends inside it. -/
def NameOk (m : MappedFile) (table size off : ℕ) : Prop :=
  ∃ k, off + k < size ∧ wrap (table + off + k) < m.size ∧ m.byteAt (table + off + k) = 0

lemma nameOk_iff (m : MappedFile) (table size off : ℕ) :
    NameOk m table size off ↔ ∃ k < size - off, wrap (table + off + k) < m.size ∧
      m.byteAt (table + off + k) = 0 := by
  have hlt : ∀ k, off + k < size ↔ k < size - off := by omega
  simp only [NameOk, hlt]

instance (m : MappedFile) (table size off : ℕ) : Decidable (NameOk m table size off) :=
  decidable_of_iff' _ (nameOk_iff m table size off)

/-- The string at `p` belongs to the table of `size` bytes at `table`. -/
def InTable (m : MappedFile) (table size p : ℕ) : Prop :=
  ∃ off, p = table + off ∧ NameOk m table size off

/-- Every stored name is a string of the table it comes from: the one that `sh_link` designates
for a symbol's own name, the one that `e_shstrndx` designates for a section's. -/
def NamesInside (file : TFile) : Prop :=
  ∀ s ∈ storedSymb file,
    (s.shType = SHT_SYMTAB → InTable file.data file.syms.strtab file.syms.strtabSize s.name) ∧
    (s.shType ≠ SHT_SYMTAB → InTable file.data file.data.stringTable
      (file.data.shdr file.data.shstrndx Layout.shSize) s.name)

/-- The last byte of the table of `size` bytes at `table` is a NUL, if it has one. -/
def Terminated (m : MappedFile) (table size : ℕ) : Prop :=
  0 < size → wrap (table + (size - 1)) < m.size ∧ m.byteAt (table + (size - 1)) = 0

/-- The two string tables that names are taken from with the symbol table `i` are terminated. -/
structure MappedFile.TablesTerminated (m : MappedFile) (i : ℕ) : Prop where
  strtab : Terminated m (m.strtab i) (m.shdr (m.shdr i Layout.shLink) Layout.shSize)
  stringTable : Terminated m m.stringTable (m.shdr m.shstrndx Layout.shSize)

/-- **Names are checked.**  The names of a listed file are inside their tables, and a file with
a table that is not terminated is rejected. -/
structure NamesChecked (malloc : ℕ → Bool) (m : MappedFile) (path : List UInt8)
    (option : EOption) : Prop where
  names : ∀ file, (loadFile malloc (TFile.mapped path m option)).out = .ok file →
    NamesInside file
  rejected : ∀ i, m.symtabIndex = some i → ¬m.TablesTerminated i →
    ∀ file, (loadFile malloc (TFile.mapped path m option)).out ≠ .ok file

/-- The name offsets of entry `j` of the symbol table `i` are right as they stand in the file. -/
def MappedFile.NameOffsetOk (m : MappedFile) (i j : ℕ) : Prop :=
  if m.Unnamed i j then
    NameOk m m.stringTable (m.shdr m.shstrndx Layout.shSize)
      (m.shdr (m.sym i j Layout.stShndx) Layout.shName)
  else
    NameOk m (m.strtab i) (m.shdr (m.shdr i Layout.shLink) Layout.shSize)
      (m.sym i j Layout.stName)

instance (m : MappedFile) (i j : ℕ) : Decidable (m.NameOffsetOk i j) :=
  inferInstanceAs (Decidable (if m.Unnamed i j then NameOk m _ _ _ else NameOk m _ _ _))

lemma inTable_add (m : MappedFile) (table size off : ℕ) :
    InTable m table size (table + off) ↔ NameOk m table size off := by
  constructor
  · rintro ⟨off', hoff, hname⟩
    rwa [Nat.add_left_cancel hoff]
  · exact fun hname => ⟨off, rfl, hname⟩

section Stored

variable (m : MappedFile) (path : List UInt8) (option : EOption)

lemma storedSymb_parsed :
    storedSymb (TFile.parsed path m option) = m.syms.symb :=
  List.take_of_length_le m.length_symb.le

lemma namesInside_parsed :
    NamesInside (TFile.parsed path m option) ↔
      ∀ i, m.symtabIndex = some i → ∀ j < m.nSyms i, m.NameOffsetOk i j := by
  unfold NamesInside
  rw [storedSymb_parsed]
  simp only [TFile.parsed_data, TFile.parsed_syms]
  unfold MappedFile.syms
  cases m.symtabIndex with
  | none => simp [TSyms.zero]
  | some i =>
    have hsymb : ∀ j, ((m.symbAt i j).shType = SHT_SYMTAB →
        InTable m (m.strtab i) (m.shdr (m.shdr i Layout.shLink) Layout.shSize)
          (m.symbAt i j).name) ∧ ((m.symbAt i j).shType ≠ SHT_SYMTAB → InTable m m.stringTable
            (m.shdr m.shstrndx Layout.shSize) (m.symbAt i j).name) ↔ m.NameOffsetOk i j := by
      intro j
      unfold MappedFile.NameOffsetOk MappedFile.symbAt MappedFile.rawSymb
      split_ifs with hun
      · have hne : SECTION_NAME ≠ SHT_SYMTAB := by decide
        simp only [hne, ne_eq, not_false_eq_true, false_imp_iff, true_and, forall_const,
          inTable_add]
      · simp only [MappedFile.namedSymb, MappedFile.ownName, ne_eq, not_true_eq_false,
          false_imp_iff, and_true, forall_const, inTable_add]
    simp only [MappedFile.symsOf, List.forall_mem_map, List.mem_range'_1, Nat.zero_le, true_and,
      Nat.zero_add, hsymb, Option.some.injEq, forall_eq']

end Stored

/-- **When the names of a file are checked.** -/
theorem namesChecked_iff (malloc : ℕ → Bool) (m : MappedFile) (path : List UInt8)
    (option : EOption) :
    NamesChecked malloc m path option ↔
      (Listed malloc m → ∀ i, m.symtabIndex = some i →
        m.TablesTerminated i ∧ ∀ j < m.nSyms i, m.NameOffsetOk i j) := by
  constructor
  · rintro ⟨hnames, hrejected⟩ hlisted i hi
    have hload := (out_loadFile_listed m path option).mpr ⟨hlisted, rfl⟩
    refine ⟨?_, (namesInside_parsed m path option).mp (hnames _ hload) i hi⟩
    by_contra hnot
    exact hrejected i hi hnot _ hload
  · intro h
    constructor
    · intro file hload
      obtain ⟨hlisted, rfl⟩ := (out_loadFile_listed m path option).mp hload
      exact (namesInside_parsed m path option).mpr fun i hi => (h hlisted i hi).2
    · intro i hi hnot file hload
      exact hnot (h ((out_loadFile_listed m path option).mp hload).1 i hi).1

/-- A string table whose last string is not terminated. -/
def unterminatedString : MappedFile where
  bytes := tableFile elf64 .little ET_REL (symBytes elf64 .little 1 1 0 0 0 0 0)
    (0 :: cstr "foobars")
  size_pos := by decide +kernel
  size_lt := by decide +kernel

/-- The file is listed, with a name that does not end inside its string table. -/
theorem not_namesChecked_unterminatedString :
    Listed (fun _ => true) unterminatedString ∧ ¬unterminatedString.NameOffsetOk 1 0 ∧
      ¬NamesChecked (fun _ => true) unterminatedString [] .sortOrder := by
  have hlisted : Listed (fun _ => true) unterminatedString :=
    ⟨by decide +kernel, fun _ _ => rfl, by decide +kernel⟩
  have hname : ¬unterminatedString.NameOffsetOk 1 0 := by decide +kernel
  refine ⟨hlisted, hname, ?_⟩
  intro h
  have hload := (out_loadFile_listed unterminatedString [] .sortOrder).mpr ⟨hlisted, rfl⟩
  have hnames := (namesInside_parsed unterminatedString [] .sortOrder).mp (h.names _ hload)
  exact hname (hnames 1 (by decide) 0 (by decide))

end FtNm
