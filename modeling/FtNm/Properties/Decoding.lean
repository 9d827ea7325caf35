import FtNm.Properties.Support.Entries

/-!
# Decoding undoes encoding

The parser, run on the image of an object, gives the object's symbols back: `Decodes` compares
the symbol array with the list of symbols, member by member, and `decodes_image` proves it for
both classes and any placement of the tables and of the strings.

The three levels of indirection, to the symbol table, from there to its string table and to the
table of section names, are followed by the lemmas of `Content`.
-/

namespace FtNm

/-- The entry `e` is what the symbol `s` of the object `o` is stored as. -/
structure DecodesSym (o : Obj) (m : MappedFile) (s : Sym) (e : TSymb) : Prop where
  value : e.value = s.value
  size : e.size = s.size
  type : e.type = s.type
  binding : e.binding = s.binding
  visibility : e.visibility = s.visibility
  sectionTabIndex : e.sectionTabIndex = s.shndx
  ownName : s.name.bytes ≠ [] ∨ o.sections.length ≤ s.shndx →
    m.text e.name = s.name.bytes ∧ e.shType = SHT_SYMTAB
  sectionName : ∀ t, s.name.bytes = [] → o.sections[s.shndx]? = some t →
    m.text e.name = t.name.bytes ∧ e.shType = SECTION_NAME

/-- The symbol array holds the symbols of the object `o`, in their order. -/
structure Decodes (o : Obj) (m : MappedFile) (syms : TSyms) : Prop where
  nSyms : syms.nSyms = o.symbols.length
  nSymsCount : syms.nSymsCount = o.symbols.length
  length : syms.symb.length = o.symbols.length
  symb : ∀ (j : ℕ) (s : Sym), o.symbols[j]? = some s →
    ∃ e, syms.symb[j]? = some e ∧ DecodesSym o m s e

/-- Whatever the name and the mark are, the other members of a symbol's entry are its own. -/
lemma decodesSym_of_entry {o : Obj} {m : MappedFile} {s : Sym} {e : TSymb} {name : CString}
    {shType sectType sectFlags : ℕ}
    (h : m.entryOf e = s.entry name shType sectType sectFlags)
    (hown : s.name.bytes ≠ [] ∨ o.sections.length ≤ s.shndx →
      name = s.name ∧ shType = SHT_SYMTAB)
    (hsect : ∀ t, s.name.bytes = [] → o.sections[s.shndx]? = some t →
      name = t.name ∧ shType = SECTION_NAME) : DecodesSym o m s e := by
  have hname : m.text e.name = name.bytes := congrArg (fun e => e.name.bytes) h
  have hshType : e.shType = shType := congrArg Entry.shType h
  constructor
  case ownName =>
    intro h'
    obtain ⟨rfl, rfl⟩ := hown h'
    exact ⟨hname, hshType⟩
  case sectionName =>
    intro t hnil ht
    obtain ⟨rfl, rfl⟩ := hsect t hnil ht
    exact ⟨hname, hshType⟩
  case value => exact congrArg Entry.value h
  case size => exact congrArg Entry.size h
  case type => exact congrArg Entry.type h
  case binding => exact congrArg Entry.binding h
  case visibility => exact congrArg Entry.visibility h
  case sectionTabIndex => exact congrArg Entry.sectionTabIndex h

/-- What the entry of a symbol says about the object. -/
lemma decodesSym_of_entryOf {o : Obj} {m : MappedFile} {s : Sym} {e : TSymb}
    (h : m.entryOf e = o.entry s) : DecodesSym o m s e := by
  unfold Obj.entry at h
  cases ht : o.sections[s.shndx]? with
  | none =>
    rw [ht] at h
    apply decodesSym_of_entry h
    · intro _
      exact ⟨rfl, rfl⟩
    intro t _ ht'
    rw [ht] at ht'
    cases ht'
  | some t =>
    have hlt : ¬o.sections.length ≤ s.shndx :=
      Nat.not_le.mpr (List.getElem?_eq_some_iff.mp ht).1
    rw [ht] at h
    dsimp only at h
    split_ifs at h with hempty
    · apply decodesSym_of_entry h
      · intro hown
        exact absurd hown (not_or.mpr ⟨not_not.mpr hempty, hlt⟩)
      · intro t' _ ht'
        rw [ht] at ht'
        cases ht'
        exact ⟨rfl, rfl⟩
    · exact decodesSym_of_entry h (fun _ => ⟨rfl, rfl⟩) fun _ hnil => absurd hnil hempty

/-- **Decoding undoes encoding.** -/
theorem decodes_image (malloc : ℕ → Bool) (is64 : Bool) (o : Obj) (p : Placement)
    (m : MappedFile) (path : List UInt8) (option : EOption)
    (himage : Image (classLayout is64) .little o p m) (htype : o.eType ∈ acceptedTypes)
    (hmalloc : malloc (mallocBytes o.symbols.length) = true) :
    ∃ file, (parseFile malloc (TFile.mapped path m option)).out = .ok file ∧
      Decodes o m file.syms := by
  have h := himage.toContent
  have hlisted : Listed malloc m := h.listed_iff.mpr ⟨.inl himage.eiData, htype, hmalloc⟩
  refine ⟨TFile.parsed path m option,
    (out_parseFile_eq_ok m path option).mpr ⟨hlisted.1, hlisted.2.1, rfl⟩, ?_⟩
  have hsyms : m.syms = m.symsOf o.symtabIndex := by rw [MappedFile.syms, h.symtabIndex_eq]
  have hlength : m.syms.symb.length = o.symbols.length := by
    rw [hsyms, MappedFile.symsOf, List.length_map, List.length_range', h.nSyms_eq]
  refine ⟨?_, ?_, hlength, ?_⟩
  · rw [TFile.parsed_syms, hsyms]
    exact h.nSyms_eq
  · rw [TFile.parsed_syms, hsyms]
    exact h.nSyms_eq
  · intro j s hs
    have hj : j < m.syms.symb.length := hlength ▸ (List.getElem?_eq_some_iff.mp hs).1
    refine ⟨m.syms.symb[j], List.getElem?_eq_getElem hj, decodesSym_of_entryOf ?_⟩
    have hentries := congrArg (·[j]?) h.entries_eq
    simpa [MappedFile.entries, hs, hj] using hentries

/-- The sample object as a file of its class. -/
def sampleImage (is64 : Bool) : MappedFile where
  bytes := sampleFile (classLayout is64) .little ET_REL
  size_pos := by revert is64; decide +kernel
  size_lt := by revert is64; decide +kernel

lemma image_sampleImage (is64 : Bool) : Image (classLayout is64) .little (sampleObj ET_REL)
    (samplePlacement (classLayout is64)) (sampleImage is64) := by
  revert is64
  decide +kernel

theorem decodes_sampleImage :
    ∃ file, (parseFile (fun _ => true) (TFile.mapped [] (sampleImage true) .sortOrder)).out =
      .ok file ∧ Decodes (sampleObj ET_REL) (sampleImage true) file.syms :=
  decodes_image _ true _ _ _ [] .sortOrder (image_sampleImage true) (by decide) rfl

end FtNm
