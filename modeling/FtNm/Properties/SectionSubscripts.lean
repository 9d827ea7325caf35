import FtNm.Construction.Object
import FtNm.Properties.Support.Letters
import FtNm.Properties.Support.ParseAccess

/-!
# Subscripts of the section header table

Three indices from the file reach the section header table: `e_shstrndx`, the `sh_link` of the
symbol table and the `st_shndx` of each symbol.  `SubscriptsInside` says that all of them are
below `e_shnum`.

Of the three only `st_shndx` meets a comparison with `e_shnum`, and only on the way to the name
of an unnamed symbol.  On the way to the letter, the cascade of `get_symb_type_and_visibility`
keeps some reserved indices off the table and lets the rest through.  `Intercepted` says which
symbols it keeps off, and `subscriptsInside_iff` what a file has to satisfy.
-/

namespace FtNm

open AccessLog

/-- The parse subscripts the section header table with indices below `e_shnum` only. -/
def SubscriptsInside (malloc : ℕ → Bool) (m : MappedFile) (path : List UInt8)
    (option : EOption) : Prop :=
  ∀ i, .shdr i ∈ (parseFile malloc (TFile.mapped path m option)).log → i < m.shnum

namespace MappedFile

variable (m : MappedFile)

/-- Entry `j` of the symbol table `i` keeps its section index off the table, or it is in range. -/
def ShndxInside (i j : ℕ) : Prop :=
  Intercepted (m.sym i j Layout.stInfo >>> 4) (m.sym i j Layout.stInfo &&& 0xf)
      (m.sym i j Layout.stOther &&& 0x3) (m.sym i j Layout.stShndx) ∨
    m.sym i j Layout.stShndx < m.shnum

/-- The indices in the file are in range, as far as they are used. -/
structure IndicesInside (malloc : ℕ → Bool) : Prop where
  shstrndx : m.shstrndx < m.shnum
  link : ∀ i, m.symtabIndex = some i → malloc (mallocBytes (m.nSyms i)) = true →
    m.shdr i Layout.shLink < m.shnum
  shndx : ∀ i, m.symtabIndex = some i → malloc (mallocBytes (m.nSyms i)) = true →
    ∀ j < m.nSyms i, m.ShndxInside i j

end MappedFile

/-! ## The stages -/

section Stages

variable (m : MappedFile) (path : List UInt8) (option : EOption)

/-- A byte access, or a subscript below `e_shnum`. -/
def SubscriptOk : Access → Prop
  | .byte _ => True
  | .shdr i => i < m.shnum

lemma subscriptsInside_iff_all (malloc : ℕ → Bool) :
    SubscriptsInside malloc m path option ↔
      (parseFile malloc (TFile.mapped path m option)).All (SubscriptOk m) := by
  constructor
  · rintro h (off | i) ha
    · trivial
    · exact h i ha
  · exact fun h i hi => h (.shdr i) hi

lemma fieldOk_subscript (base : ℕ) (fld : Field) : FieldOk (SubscriptOk m) base fld :=
  fun _ _ => trivial

lemma shdrOk_subscript (i : ℕ) (fld : Layout → Field) :
    ShdrOk (SubscriptOk m) m i fld ↔ i < m.shnum :=
  and_iff_left (fieldOk_subscript m _ _)

/-- The subscripts for one symbol: the name of its section, if it is looked up, is in range by
the test on that path, so what is left is the letter. -/
lemma symbOk_subscript (hshnum : 0 < m.shnum) (i j : ℕ) :
    SymbOk (SubscriptOk m) m path option i j ↔ m.ShndxInside i j := by
  have hbyte : ∀ off, SubscriptOk m (.byte off) := fun _ => trivial
  have hdotted : DottedSection m (m.rawSymb i j) → m.sym i j Layout.stShndx < m.shnum := by
    intro h
    by_contra hge
    refine h.2 ?_
    rw [MappedFile.rawSymb, if_neg fun hun => hge hun.2]
    rfl
  have hquestion : getSymbTypeAndVisibility (m.rawSymb i j) = '?'.toUInt8 ↔
      ¬Intercepted (m.sym i j Layout.stInfo >>> 4) (m.sym i j Layout.stInfo &&& 0xf)
        (m.sym i j Layout.stOther &&& 0x3) (m.sym i j Layout.stShndx) ∧
          m.sym i j Layout.stShndx ≠ SHN_UNDEF := by
    rw [getSymbTypeAndVisibility_eq_question]
    simp
  unfold SymbOk MappedFile.ShndxInside
  rw [all_determineSymb, hquestion]
  simp only [shdrOk_subscript, MappedFile.rawSymb_sectionTabIndex, fieldOk_subscript,
    implies_true, true_and, and_self]
  constructor
  · rintro ⟨-, -, hletter, -⟩
    by_cases hundef : m.sym i j Layout.stShndx = SHN_UNDEF
    · exact .inr (hundef ▸ hshnum)
    · rw [or_iff_not_imp_left]
      exact fun hnot => hletter ⟨hnot, hundef⟩
  · rintro hok
    refine ⟨hbyte _, fun hun => hun.2, ?_, hbyte _, ?_, ?_⟩
    · rintro ⟨hnot, -⟩
      exact hok.resolve_left hnot
    · intro hdot
      exact ⟨hdotted hdot, all_getSectionName_of_byte m hbyte _ _⟩
    · intro _
      exact all_matchesAny_of_byte m hbyte _ _

lemma tableOk_subscript (hshnum : 0 < m.shnum) (malloc : ℕ → Bool) (i : ℕ)
    (hi : i < m.shnum) :
    TableOk (SubscriptOk m) m path option malloc i ↔
      (malloc (mallocBytes (m.nSyms i)) = true → m.shdr i Layout.shLink < m.shnum ∧
        ∀ j < m.nSyms i, m.ShndxInside i j) := by
  unfold TableOk
  simp only [shdrOk_subscript, symbOk_subscript m path option hshnum, hi, true_and,
    and_self_left]

end Stages

/-! ## The condition -/

/-- **When the subscripts are in range.** -/
theorem subscriptsInside_iff (malloc : ℕ → Bool) (m : MappedFile) (path : List UInt8)
    (option : EOption) (file : TFile)
    (hfile : (parseEhdr (TFile.mapped path m option) >>= parseShdr).out = .ok file) :
    SubscriptsInside malloc m path option ↔ m.IndicesInside malloc := by
  have hheader : HeaderOk m := ((out_parseHeaders_eq_ok m path option).mp hfile).1
  have hshnum := hheader.shnum_pos
  have htable : ∀ i, m.symtabIndex = some i → i < m.shnum := fun i hi => by
    have hmem := List.mem_of_find?_eq_some hi
    rw [List.mem_range'_1] at hmem
    omega
  have hheaders : HeadersOk (SubscriptOk m) m :=
    ⟨by simp [ELFMAG, cstr, MagicOk, SubscriptOk], fun _ => trivial, fun _ _ => trivial,
      fun _ _ _ => fieldOk_subscript m _ _, fun _ _ _ _ => fieldOk_subscript m _ _,
      fun _ _ _ _ _ => fieldOk_subscript m _ _⟩
  rw [subscriptsInside_iff_all, all_parseFile]
  simp only [hheaders, hheader, shdrOk_subscript, fieldOk_subscript, true_and, forall_const]
  constructor
  · rintro ⟨hstring, -, hrest⟩
    have hindices := fun i hi => (tableOk_subscript m path option hshnum malloc i
      (htable i hi)).mp (hrest i hi)
    exact ⟨hstring, fun i hi hm => (hindices i hi hm).1, fun i hi hm => (hindices i hi hm).2⟩
  · rintro ⟨hstring, hlink, hshndx⟩
    refine ⟨hstring, fun i hi => hi.1, ?_⟩
    intro i hi
    exact (tableOk_subscript m path option hshnum malloc i (htable i hi)).mpr
      fun hm => ⟨hlink i hi hm, hshndx i hi hm⟩

/-- A symbol with the first reserved section index. -/
def reservedIndex : MappedFile where
  bytes := tableFile elf64 .little ET_REL
    (symBytes elf64 .little 0 0 0 0 0 0 0 ++ symBytes elf64 .little 1 1 0 0 0xff00 0 0)
    (0 :: cstr "f" ++ [0, 0, 0, 0, 0, 0])
  size_pos := by decide +kernel
  size_lt := by decide +kernel

theorem subscriptsInside_iff_reservedIndex :
    SubscriptsInside (fun _ => true) reservedIndex [] .sortOrder ↔
      reservedIndex.IndicesInside fun _ => true :=
  subscriptsInside_iff _ _ [] .sortOrder (TFile.headed [] reservedIndex .sortOrder) rfl

/-- The file passes the header checks, and its section header table of three entries is
subscripted with the reserved index. -/
theorem not_subscriptsInside_reservedIndex :
    HeaderOk reservedIndex ∧ ¬SubscriptsInside (fun _ => true) reservedIndex [] .sortOrder := by
  refine ⟨by decide, ?_⟩
  intro h
  exact absurd (h 0xff00 (by decide)) (by decide)

end FtNm
