import FtNm.Construction.Object
import FtNm.Properties.AttributeLetters

/-!
# Letters and sections

What the letter of a symbol says about its section, and whether the two ways of getting it
agree.  A symbol under its own name gets it from the type and the flags of its section, the
section symbol from the section's name.

* `sectKind` is the kind of section that the switch over type and flags recognises, with text
  for all that it does not know.
* `faithfulSection_iff`: the letter means what it says, except for the sections that end as
  text without being executable, and for some read-only and dynamic ones.
* `classifiersAgree_iff`: the table of section names agrees with the switch for the sections
  whose name stands in the table under their kind.
-/

namespace FtNm

/-! ## Kinds of sections -/

/-- What a section is shown as. -/
inductive SectKind
  | note
  | bss
  | data
  | rodata
  | text
  deriving DecidableEq, Repr

def SectKind.letter : SectKind → UInt8
  | .note => 'N'.toUInt8
  | .bss => 'B'.toUInt8
  | .data => 'D'.toUInt8
  | .rodata => 'R'.toUInt8
  | .text => 'T'.toUInt8

lemma SectKind.letter_inj {k k' : SectKind} : k.letter = k'.letter ↔ k = k' := by
  constructor
  · cases k <;> cases k' <;> decide
  · exact congrArg letter

lemma SectKind.letter_ne_question (k : SectKind) : k.letter ≠ '?'.toUInt8 := by
  cases k <;> decide

/-- Whether a flag is set. -/
def HasFlag (shFlags mask : ℕ) : Prop := shFlags &&& mask ≠ 0

instance (shFlags mask : ℕ) : Decidable (HasFlag shFlags mask) :=
  inferInstanceAs (Decidable (_ ≠ _))

/-- The types that stand together in the switch. -/
def tableTypes : List ℕ := [SHT_RELA, SHT_REL, SHT_HASH, SHT_GNU_versym, SHT_GNU_verdef,
  SHT_STRTAB, SHT_DYNSYM, SHT_NOTE]

/-- The kind of a section, from its type and its 32-bit flag word. -/
def sectKind (shType shFlags : ℕ) : SectKind :=
  if shFlags = 0 then .note
  else if shType = SHT_NOBITS ∧ (HasFlag shFlags SHF_ALLOC ∨ HasFlag shFlags SHF_WRITE) then .bss
  else if shType = SHT_DYNAMIC ∨
      shType = SHT_PROGBITS ∧ HasFlag shFlags SHF_ALLOC ∧ HasFlag shFlags SHF_WRITE then .data
  else if HasFlag shFlags SHF_ALLOC ∧ (shType ∈ tableTypes ∨
      shType = SHT_PROGBITS ∧ ¬HasFlag shFlags SHF_WRITE ∧ ¬HasFlag shFlags SHF_EXECINSTR) then
    .rodata
  else .text

lemma hasFlag_or (shFlags mask mask' : ℕ) :
    HasFlag shFlags (mask ||| mask') ↔ HasFlag shFlags mask ∨ HasFlag shFlags mask' := by
  unfold HasFlag
  rw [Nat.and_or_distrib_left, Ne, Nat.or_eq_zero_iff, not_and_or]

lemma tableTypes_ne : SHT_NOBITS ∉ tableTypes ∧ SHT_PROGBITS ∉ tableTypes ∧
    SHT_DYNAMIC ∉ tableTypes ∧ SHT_PROGBITS ≠ SHT_NOBITS ∧ SHT_NOBITS ≠ SHT_DYNAMIC ∧
    SHT_PROGBITS ≠ SHT_DYNAMIC := by decide

/-- The switch on one of the types that stand together. -/
lemma sectionChar_of_mem_tableTypes {shType shFlags : ℕ} (h : shFlags ≠ 0)
    (htable : shType ∈ tableTypes) :
    sectionChar shType shFlags =
      if HasFlag shFlags SHF_ALLOC then 'R'.toUInt8 else '?'.toUInt8 := by
  obtain ⟨hnobits, hprogbits, -⟩ := tableTypes_ne
  have hnull : shFlags ≠ SHT_NULL := h
  unfold sectionChar
  dsimp only
  rw [if_neg hnull, if_neg (ne_of_mem_of_not_mem htable hnobits),
    if_neg (ne_of_mem_of_not_mem htable hprogbits)]
  exact if_pos htable

/-- The switch on any other type. -/
lemma sectionChar_of_not_mem_tableTypes {shType shFlags : ℕ} (h : shFlags ≠ 0)
    (htable : shType ∉ tableTypes) :
    sectionChar shType shFlags =
      if shType = SHT_NOBITS then
        if HasFlag shFlags SHF_ALLOC ∨ HasFlag shFlags SHF_WRITE then 'B'.toUInt8
        else '?'.toUInt8
      else if shType = SHT_PROGBITS then
        if HasFlag shFlags SHF_ALLOC then
          if HasFlag shFlags SHF_WRITE then 'D'.toUInt8
          else if HasFlag shFlags SHF_EXECINSTR then 'T'.toUInt8
          else 'R'.toUInt8
        else '?'.toUInt8
      else if shType = SHT_DYNAMIC then 'D'.toUInt8
      else '?'.toUInt8 := by
  have hnull : shFlags ≠ SHT_NULL := h
  have hnobits : (if shFlags &&& (SHF_ALLOC ||| SHF_WRITE) ≠ 0 then 'B'.toUInt8
      else '?'.toUInt8) = if HasFlag shFlags SHF_ALLOC ∨ HasFlag shFlags SHF_WRITE then
        'B'.toUInt8 else '?'.toUInt8 :=
    if_congr (hasFlag_or shFlags SHF_ALLOC SHF_WRITE) rfl rfl
  unfold sectionChar
  dsimp only
  rw [if_neg hnull, hnobits]
  show (if shType = SHT_NOBITS then _ else if shType = SHT_PROGBITS then _
    else if shType ∈ tableTypes then _ else _) = _
  rw [if_neg htable]
  rfl

/-- **The switch.**  With `T` for what it does not know, it gives the letter of the kind. -/
lemma sectionChar_eq (shType shFlags : ℕ) :
    (if sectionChar shType shFlags = '?'.toUInt8 then 'T'.toUInt8
      else sectionChar shType shFlags) = (sectKind shType shFlags).letter := by
  obtain ⟨hnobits, hprogbits, hdynamic, hpn, hnd, hpd⟩ := tableTypes_ne
  unfold sectKind
  by_cases hnull : shFlags = 0
  · rw [(sectionChar_eq_N shType shFlags).mpr hnull, if_neg (by simp), if_pos hnull]
    rfl
  · rw [if_neg hnull]
    by_cases htable : shType ∈ tableTypes
    · rw [sectionChar_of_mem_tableTypes hnull htable]
      have htypes : shType ≠ SHT_NOBITS ∧ shType ≠ SHT_PROGBITS ∧ shType ≠ SHT_DYNAMIC :=
        ⟨ne_of_mem_of_not_mem htable hnobits, ne_of_mem_of_not_mem htable hprogbits,
          ne_of_mem_of_not_mem htable hdynamic⟩
      by_cases halloc : HasFlag shFlags SHF_ALLOC <;>
        simp [halloc, htypes, htable, SectKind.letter]
    · rw [sectionChar_of_not_mem_tableTypes hnull htable]
      simp only [htable, false_or]
      clear htable
      split_ifs <;> simp_all [SectKind.letter]

/-! ## What the letters say -/

/-- What the letter `c`, in either case, says of a section holds of it. -/
structure FaithfulSection (c : UInt8) (shType shFlags : ℕ) : Prop where
  text : lowerCase c = 't'.toUInt8 → HasFlag shFlags SHF_EXECINSTR
  data : lowerCase c = 'd'.toUInt8 → HasFlag shFlags SHF_WRITE
  rodata : lowerCase c = 'r'.toUInt8 → HasFlag shFlags SHF_ALLOC ∧ ¬HasFlag shFlags SHF_WRITE
  bss : lowerCase c = 'b'.toUInt8 → shType = SHT_NOBITS
  note : lowerCase c = 'n'.toUInt8 → ¬HasFlag shFlags SHF_ALLOC

/-- The types and the flags of the sections whose letter means what it says. -/
def MeansItsLetter (shType shFlags : ℕ) : Prop :=
  shFlags = 0 ∨
    if shType = SHT_NOBITS then
      HasFlag shFlags SHF_ALLOC ∨ HasFlag shFlags SHF_WRITE ∨ HasFlag shFlags SHF_EXECINSTR
    else if shType = SHT_PROGBITS then
      HasFlag shFlags SHF_ALLOC ∨ HasFlag shFlags SHF_EXECINSTR
    else if shType ∈ tableTypes then
      if HasFlag shFlags SHF_ALLOC then ¬HasFlag shFlags SHF_WRITE
      else HasFlag shFlags SHF_EXECINSTR
    else if shType = SHT_DYNAMIC then HasFlag shFlags SHF_WRITE
    else HasFlag shFlags SHF_EXECINSTR

/-- The flags that the letters speak of are all in the low word. -/
lemma hasFlag_mod {mask : ℕ} (h : mask < 2 ^ 32) (shFlags : ℕ) :
    HasFlag (shFlags % 2 ^ 32) mask ↔ HasFlag shFlags mask := by
  have hmod : shFlags % 2 ^ 32 &&& mask = shFlags &&& mask := by
    have hle : shFlags &&& mask ≤ mask := Nat.and_le_right
    rw [← Nat.mod_eq_of_lt (hle.trans_lt h), Nat.and_mod_two_pow, Nat.mod_eq_of_lt h]
  unfold HasFlag
  rw [hmod]

lemma faithfulSection_mod (c : UInt8) (shType shFlags : ℕ) :
    FaithfulSection c shType (shFlags % 2 ^ 32) ↔ FaithfulSection c shType shFlags := by
  have halloc := hasFlag_mod (by decide : SHF_ALLOC < 2 ^ 32) shFlags
  have hwrite := hasFlag_mod (by decide : SHF_WRITE < 2 ^ 32) shFlags
  have hexec := hasFlag_mod (by decide : SHF_EXECINSTR < 2 ^ 32) shFlags
  constructor
  · rintro ⟨htext, hdata, hrodata, hbss, hnote⟩
    rw [halloc, hwrite] at hrodata
    exact ⟨fun h => hexec.mp (htext h), fun h => hwrite.mp (hdata h), hrodata, hbss,
      fun h => halloc.not.mp (hnote h)⟩
  · rintro ⟨htext, hdata, hrodata, hbss, hnote⟩
    rw [← halloc, ← hwrite] at hrodata
    exact ⟨fun h => hexec.mpr (htext h), fun h => hwrite.mpr (hdata h), hrodata, hbss,
      fun h => halloc.not.mpr (hnote h)⟩

/-- A letter speaks of the kind that has it only. -/
lemma lowerCase_letter (k : SectKind) :
    (lowerCase k.letter = 't'.toUInt8 ↔ k = .text) ∧
    (lowerCase k.letter = 'd'.toUInt8 ↔ k = .data) ∧
    (lowerCase k.letter = 'r'.toUInt8 ↔ k = .rodata) ∧
    (lowerCase k.letter = 'b'.toUInt8 ↔ k = .bss) ∧
    (lowerCase k.letter = 'n'.toUInt8 ↔ k = .note) := by
  cases k <;> decide

/-- What a letter says, kind by kind. -/
lemma faithfulSection_kind (k : SectKind) (shType shFlags : ℕ) :
    FaithfulSection k.letter shType shFlags ↔
      (k = .text → HasFlag shFlags SHF_EXECINSTR) ∧ (k = .data → HasFlag shFlags SHF_WRITE) ∧
      (k = .rodata → HasFlag shFlags SHF_ALLOC ∧ ¬HasFlag shFlags SHF_WRITE) ∧
      (k = .bss → shType = SHT_NOBITS) ∧ (k = .note → ¬HasFlag shFlags SHF_ALLOC) := by
  obtain ⟨htext, hdata, hrodata, hbss, hnote⟩ := lowerCase_letter k
  rw [← htext, ← hdata, ← hrodata, ← hbss, ← hnote]
  constructor
  · rintro ⟨h₁, h₂, h₃, h₄, h₅⟩
    exact ⟨h₁, h₂, h₃, h₄, h₅⟩
  · rintro ⟨h₁, h₂, h₃, h₄, h₅⟩
    exact ⟨h₁, h₂, h₃, h₄, h₅⟩

lemma faithfulSection_sectKind (shType shFlags : ℕ) :
    FaithfulSection (sectKind shType shFlags).letter shType shFlags ↔
      MeansItsLetter shType shFlags := by
  have hzero : ¬HasFlag 0 SHF_ALLOC := by decide
  obtain ⟨hnobits, hprogbits, hdynamic, hpn, hnd, hpd⟩ := tableTypes_ne
  rw [faithfulSection_kind]
  unfold sectKind MeansItsLetter
  by_cases hnull : shFlags = 0
  · subst hnull
    simp [hzero]
  · by_cases htable : shType ∈ tableTypes
    · have htypes : shType ≠ SHT_NOBITS ∧ shType ≠ SHT_PROGBITS ∧ shType ≠ SHT_DYNAMIC :=
        ⟨ne_of_mem_of_not_mem htable hnobits, ne_of_mem_of_not_mem htable hprogbits,
          ne_of_mem_of_not_mem htable hdynamic⟩
      by_cases halloc : HasFlag shFlags SHF_ALLOC <;> simp [hnull, htable, htypes, halloc]
    · simp only [hnull, htable, if_false, false_or, ← or_assoc]
      clear htable
      split_ifs <;> simp_all

/-- Folding changes nothing about what a letter says. -/
lemma lowerCase_toLower : ∀ c ∈ cstr "uvCVwWAiUBDTRN", lowerCase (toLower c) = lowerCase c :=
  forall_mem_of_all (by decide)

variable (m : MappedFile) (path : List UInt8) (option : EOption)

lemma lowerCase_letterOf (symb : TSymb) :
    lowerCase (m.letter symb) = lowerCase (stageLetter symb
      (m.shdr symb.sectionTabIndex Layout.shType) (m.shdr symb.sectionTabIndex Layout.shFlags)
      (m.text symb.name)) := by
  unfold MappedFile.letter letterOf
  dsimp only
  split_ifs
  · exact lowerCase_toLower _ (stageLetter_mem _ _ _ _)
  · rfl

lemma faithfulSection_congr {c d : UInt8} (h : lowerCase c = lowerCase d) (shType shFlags : ℕ) :
    FaithfulSection c shType shFlags ↔ FaithfulSection d shType shFlags := by
  constructor
  · rintro ⟨htext, hdata, hrodata, hbss, hnote⟩
    exact ⟨h ▸ htext, h ▸ hdata, h ▸ hrodata, h ▸ hbss, h ▸ hnote⟩
  · rintro ⟨htext, hdata, hrodata, hbss, hnote⟩
    exact ⟨h ▸ htext, h ▸ hdata, h ▸ hrodata, h ▸ hbss, h ▸ hnote⟩

/-- The letters of absolute and of common symbols say nothing. -/
lemma faithfulSection_index {c : UInt8} (hc : c ∈ cstr "AC") (shType shFlags : ℕ) :
    FaithfulSection c shType shFlags := by
  have hnone : ∀ c ∈ cstr "AC", lowerCase c ≠ 't'.toUInt8 ∧ lowerCase c ≠ 'd'.toUInt8 ∧
      lowerCase c ≠ 'r'.toUInt8 ∧ lowerCase c ≠ 'b'.toUInt8 ∧ lowerCase c ≠ 'n'.toUInt8 :=
    forall_mem_of_all (by decide)
  obtain ⟨ht, hd, hr, hb, hn⟩ := hnone c hc
  exact ⟨fun h => absurd h ht, fun h => absurd h hd, fun h => absurd h hr, fun h => absurd h hb,
    fun h => absurd h hn⟩

/-- A symbol that is defined in a section, and neither weak, unique nor an indirect function. -/
structure PlainDefined (symb : TSymb) : Prop where
  named : symb.shType = SHT_SYMTAB
  defined : symb.sectionTabIndex ≠ SHN_UNDEF
  strong : symb.binding ≠ STB_WEAK
  shared : symb.binding ≠ STB_GNU_UNIQUE
  direct : symb.type ≠ STT_GNU_IFUNC

/-- The attributes of such a symbol settle the letter for two section indices only. -/
lemma getSymbTypeAndVisibility_plain {symb : TSymb} (hundef : symb.sectionTabIndex ≠ SHN_UNDEF)
    (hweak : symb.binding ≠ STB_WEAK) (hunique : symb.binding ≠ STB_GNU_UNIQUE)
    (hifunc : symb.type ≠ STT_GNU_IFUNC) :
    getSymbTypeAndVisibility symb =
      if symb.sectionTabIndex = SHN_ABS then 'A'.toUInt8
      else if symb.sectionTabIndex = SHN_COMMON then 'C'.toUInt8
      else '?'.toUInt8 := by
  unfold getSymbTypeAndVisibility
  simp only [hundef, hweak, hunique, hifunc, false_and, if_false]

/-- **When a section letter means what it says.** -/
theorem faithfulSection_iff (symb : TSymb) (h : PlainDefined symb) :
    (∃ c, (determineSymb (TFile.headed path m option) symb).out = .ok c ∧
      FaithfulSection c (m.shdr symb.sectionTabIndex Layout.shType)
        (m.shdr symb.sectionTabIndex Layout.shFlags)) ↔
      symb.sectionTabIndex = SHN_ABS ∨ symb.sectionTabIndex = SHN_COMMON ∨
        MeansItsLetter (m.shdr symb.sectionTabIndex Layout.shType)
          (m.shdr symb.sectionTabIndex Layout.shFlags % 2 ^ 32) := by
  have hout : (∃ c, (determineSymb (TFile.headed path m option) symb).out = .ok c ∧
      FaithfulSection c (m.shdr symb.sectionTabIndex Layout.shType)
        (m.shdr symb.sectionTabIndex Layout.shFlags)) ↔
      FaithfulSection (m.letter symb) (m.shdr symb.sectionTabIndex Layout.shType)
        (m.shdr symb.sectionTabIndex Layout.shFlags) := by
    rw [out_determineSymb]
    simp
  have hdotted : ¬DottedSection m symb := fun hd => hd.2 h.named
  have hfirst := getSymbTypeAndVisibility_plain h.defined h.strong h.shared h.direct
  rw [hout, faithfulSection_congr (lowerCase_letterOf m symb)]
  by_cases habs : symb.sectionTabIndex = SHN_ABS
  · rw [if_pos habs] at hfirst
    rw [stageLetter_attributes _ _ hdotted (by simp [hfirst]), hfirst]
    exact iff_of_true (faithfulSection_index (by decide) _ _) (.inl habs)
  · rw [if_neg habs] at hfirst
    by_cases hcommon : symb.sectionTabIndex = SHN_COMMON
    · rw [if_pos hcommon] at hfirst
      rw [stageLetter_attributes _ _ hdotted (by simp [hfirst]), hfirst]
      exact iff_of_true (faithfulSection_index (by decide) _ _) (.inr (.inl hcommon))
    · rw [if_neg hcommon] at hfirst
      rw [stageLetter_section _ _ hdotted hfirst, sectionChar_eq, ← faithfulSection_mod,
        faithfulSection_sectKind]
      simp [habs, hcommon]

/-- A global object `s` in `.comment`, whose strings may be merged. -/
def commentObject : MappedFile where
  bytes := sectionFile elf64 .little ET_REL 3 SHT_PROGBITS 0x30
    (symBytes elf64 .little 0 0 0 0 0 0 0 ++ symBytes elf64 .little 1 1 STT_OBJECT 0 3 0 0)
    (0 :: cstr "s" ++ [0] ++ cstr ".comment" ++ [0])
  size_pos := by decide +kernel
  size_lt := by decide +kernel

lemma plainDefined_commentObject : PlainDefined (commentObject.rawSymb 1 1) :=
  ⟨by decide, by decide, by decide, by decide, by decide⟩

theorem faithfulSection_iff_commentObject :
    (∃ c, (determineSymb (TFile.headed [] commentObject .sortOrder)
        (commentObject.rawSymb 1 1)).out = .ok c ∧
      FaithfulSection c
        (commentObject.shdr (commentObject.rawSymb 1 1).sectionTabIndex Layout.shType)
        (commentObject.shdr (commentObject.rawSymb 1 1).sectionTabIndex Layout.shFlags)) ↔
      (commentObject.rawSymb 1 1).sectionTabIndex = SHN_ABS ∨
      (commentObject.rawSymb 1 1).sectionTabIndex = SHN_COMMON ∨
        MeansItsLetter
          (commentObject.shdr (commentObject.rawSymb 1 1).sectionTabIndex Layout.shType)
          (commentObject.shdr (commentObject.rawSymb 1 1).sectionTabIndex Layout.shFlags %
            2 ^ 32) :=
  faithfulSection_iff commentObject [] .sortOrder (commentObject.rawSymb 1 1)
    plainDefined_commentObject

/-- The object is shown as text, in a section of the file that is not executable. -/
theorem not_faithfulSection_commentObject :
    Listed (fun _ => true) commentObject ∧ PlainDefined (commentObject.rawSymb 1 1) ∧
    (commentObject.rawSymb 1 1).sectionTabIndex < commentObject.shnum ∧
    (commentObject.symbAt 1 1).typeChar = 'T'.toUInt8 ∧
    ¬∃ c, (determineSymb (TFile.headed [] commentObject .sortOrder)
        (commentObject.rawSymb 1 1)).out = .ok c ∧
      FaithfulSection c
        (commentObject.shdr (commentObject.rawSymb 1 1).sectionTabIndex Layout.shType)
        (commentObject.shdr (commentObject.rawSymb 1 1).sectionTabIndex Layout.shFlags) := by
  have hletter : commentObject.letter (commentObject.rawSymb 1 1) = 'T'.toUInt8 := by
    decide
  have hexec : ¬HasFlag
      (commentObject.shdr (commentObject.rawSymb 1 1).sectionTabIndex Layout.shFlags)
      SHF_EXECINSTR := by decide
  refine ⟨⟨by decide +kernel, fun _ _ => rfl, by decide +kernel⟩, plainDefined_commentObject,
    by decide, hletter, ?_⟩
  rintro ⟨c, hout, hfaithful⟩
  rw [out_determineSymb, hletter] at hout
  obtain rfl := Except.ok.inj hout
  exact hexec (hfaithful.text (by decide))

/-! ## The two classifiers -/

/-- The section symbol of section `i`, and a symbol with the same binding that is defined there
under its own name. -/
structure SectionPair (i : ℕ) (sect named : TSymb) : Prop where
  plain : PlainDefined named
  ordinary : i ≠ SHN_ABS ∧ i ≠ SHN_COMMON
  index : sect.sectionTabIndex = i ∧ named.sectionTabIndex = i
  binding : sect.binding = named.binding
  type : sect.type = STT_SECTION
  name : sect.name = m.stringTable + m.shdr i Layout.shName
  mark : sect.shType = SECTION_NAME

/-- Both get the same letter, up to case when one of the names keeps its upper case. -/
def ClassifiersAgree (sect named : TSymb) : Prop :=
  ∃ c d, (determineSymb (TFile.headed path m option) sect).out = .ok c ∧
    (determineSymb (TFile.headed path m option) named).out = .ok d ∧
    if m.text sect.name ∈ debugNames.map cstr ∨ m.text named.name ∈ debugNames.map cstr then
      lowerCase c = lowerCase d
    else c = d

/-- The name of a section stands in the table of `get_section_name` under the kind `k`.  The two
names whose answer depends on a flag come after the table, and the kind of any other is text. -/
def ListedUnder (name : List UInt8) (shFlags : ℕ) (k : SectKind) : Prop :=
  if InNameTable name then name ∈ (namesWithLetter k.letter).map cstr
  else if name ∈ ehFrameNames.map cstr then
    k = if HasFlag shFlags SHF_WRITE then .data else .rodata
  else k = .text

/-- Every name of the table has a letter. -/
lemma codeChar_ne_question : ∀ entry ∈ sectionNameTable, codeChar entry.2 ≠ '?'.toUInt8 := by
  decide

/-- The letter of a name in the table is that of the kind it is listed under. -/
lemma nameLetter_eq_iff (name : List UInt8) (shFlags : ℕ) (k : SectKind) :
    (if codeChar (sectionCode shFlags name) = '?'.toUInt8 then 'T'.toUInt8
      else codeChar (sectionCode shFlags name)) = k.letter ↔ ListedUnder name shFlags k := by
  unfold ListedUnder
  by_cases h : InNameTable name
  · rw [if_pos h]
    obtain ⟨entry, hentry, hname⟩ := h
    rw [codeChar_sectionCode_of_mem shFlags hentry hname, if_neg (codeChar_ne_question _ hentry),
      mem_namesWithLetter]
    constructor
    · intro hletter
      exact ⟨entry, hentry, hletter, hname⟩
    · rintro ⟨entry', hentry', hletter, hname'⟩
      exact (codeChar_eq_of_mem hentry hname hentry' hname').trans hletter
  · rw [if_neg h, codeChar_sectionCode_of_not_inNameTable shFlags h]
    have hdata : 'D'.toUInt8 = SectKind.data.letter := rfl
    have hrodata : 'R'.toUInt8 = SectKind.rodata.letter := rfl
    have htext : 'T'.toUInt8 = SectKind.text.letter := rfl
    by_cases heh : name ∈ ehFrameNames.map cstr
    · rw [if_pos heh, if_pos heh]
      by_cases hwrite : HasFlag shFlags SHF_WRITE
      · have hwrite' : shFlags &&& SHF_WRITE ≠ 0 := hwrite
        rw [if_pos hwrite, if_pos hwrite', hdata, if_neg (SectKind.letter_ne_question _),
          SectKind.letter_inj, eq_comm]
      · have hwrite' : ¬shFlags &&& SHF_WRITE ≠ 0 := hwrite
        rw [if_neg hwrite, if_neg hwrite', hrodata, if_neg (SectKind.letter_ne_question _),
          SectKind.letter_inj, eq_comm]
    · rw [if_neg heh, if_neg heh, if_pos rfl, htext, SectKind.letter_inj, eq_comm]

/-- The letters of sections differ in either case. -/
lemma sectionLetter_inj {c d : UInt8} (hc : c ∈ cstr "ABDNRT") (hd : d ∈ cstr "ABDNRT") :
    (toLower c = toLower d ↔ c = d) ∧ (lowerCase c = lowerCase d ↔ c = d) := by
  have hback : ∀ c ∈ cstr "ABDNRT", toLower c - 32 = c ∧ lowerCase c - 32 = c :=
    forall_mem_of_all (by decide)
  refine ⟨⟨fun h => ?_, congrArg _⟩, ⟨fun h => ?_, congrArg _⟩⟩
  · rw [← (hback c hc).1, h, (hback d hd).1]
  · rw [← (hback c hc).2, h, (hback d hd).2]

lemma mem_sectionLetters : ∀ c ∈ cstr "ABDNRT?",
    (if c = '?'.toUInt8 then 'T'.toUInt8 else c) ∈ cstr "ABDNRT" :=
  forall_mem_of_all (by decide)

/-- The letter that the stages give to an entry of the file. -/
def stageAt (symb : TSymb) : UInt8 :=
  stageLetter symb (m.shdr symb.sectionTabIndex Layout.shType)
    (m.shdr symb.sectionTabIndex Layout.shFlags) (m.text symb.name)

/-- Two symbols of one binding agree exactly when the stages give them the same letter. -/
lemma classifiersAgree_stageAt {sect named : TSymb} (hbinding : sect.binding = named.binding)
    (hsect : stageAt m sect ∈ cstr "ABDNRT") (hnamed : stageAt m named ∈ cstr "ABDNRT") :
    ClassifiersAgree m path option sect named ↔ stageAt m sect = stageAt m named := by
  obtain ⟨hfold, hlower⟩ := sectionLetter_inj hsect hnamed
  unfold ClassifiersAgree
  simp only [out_determineSymb, Except.ok.injEq, exists_and_left, exists_eq_left']
  by_cases hdebug : m.text sect.name ∈ debugNames.map cstr ∨ m.text named.name ∈ debugNames.map cstr
  · rw [if_pos hdebug, lowerCase_letterOf, lowerCase_letterOf]
    exact hlower
  · rw [if_neg hdebug]
    obtain ⟨hdsect, hdnamed⟩ := not_or.mp hdebug
    unfold MappedFile.letter letterOf
    dsimp only
    by_cases hlocal : named.binding = STB_LOCAL
    · rw [if_pos ⟨hbinding.trans hlocal, hdsect⟩, if_pos ⟨hlocal, hdnamed⟩]
      exact hfold
    · rw [if_neg fun h => hlocal (hbinding.symm.trans h.1), if_neg fun h => hlocal h.1]
      rfl

variable {m} {i : ℕ} {sect named : TSymb}

/-- A named symbol has the letter of the section's kind. -/
lemma SectionPair.stageAt_named (h : SectionPair m i sect named) :
    stageAt m named =
      (sectKind (m.shdr i Layout.shType) (m.shdr i Layout.shFlags % 2 ^ 32)).letter := by
  have hdotted : ¬DottedSection m named := fun hd => hd.2 h.plain.named
  have hfirst := getSymbTypeAndVisibility_plain h.plain.defined h.plain.strong h.plain.shared
    h.plain.direct
  rw [h.index.2, if_neg h.ordinary.1, if_neg h.ordinary.2] at hfirst
  rw [stageAt, stageLetter_section _ _ hdotted hfirst, sectionChar_eq, h.index.2]

/-- So has the section symbol, when its name does not start with a dot. -/
lemma SectionPair.stageAt_sect (h : SectionPair m i sect named)
    (hdotted : ¬DottedSection m sect) :
    stageAt m sect =
      (sectKind (m.shdr i Layout.shType) (m.shdr i Layout.shFlags % 2 ^ 32)).letter := by
  have hifunc : STT_SECTION ≠ STT_GNU_IFUNC := by decide
  have hdefined : sect.sectionTabIndex ≠ SHN_UNDEF := by
    rw [h.index.1, ← h.index.2]
    exact h.plain.defined
  have hfirst := getSymbTypeAndVisibility_plain hdefined
    (by rw [h.binding]; exact h.plain.strong) (by rw [h.binding]; exact h.plain.shared)
    (by rw [h.type]; exact hifunc)
  rw [h.index.1, if_neg h.ordinary.1, if_neg h.ordinary.2] at hfirst
  rw [stageAt, stageLetter_section _ _ hdotted hfirst, sectionChar_eq, h.index.1]

lemma SectKind.letter_mem (k : SectKind) : k.letter ∈ cstr "ABDNRT" := by
  cases k <;> decide

/-- **When the classifiers agree.** -/
theorem classifiersAgree_iff (h : SectionPair m i sect named) :
    ClassifiersAgree m path option sect named ↔
      ((m.text sect.name).head? = some '.'.toUInt8 →
        ListedUnder (m.text sect.name) (m.shdr i Layout.shFlags % 2 ^ 32)
          (sectKind (m.shdr i Layout.shType) (m.shdr i Layout.shFlags % 2 ^ 32))) := by
  have hnamed := h.stageAt_named
  have hmark : sect.shType ≠ SHT_SYMTAB := by
    rw [h.mark]
    decide
  by_cases hdot : (m.text sect.name).head? = some '.'.toUInt8
  · have hsect := stageLetter_dotted (m.shdr i Layout.shType) (m.shdr i Layout.shFlags)
      ⟨hdot, hmark⟩
    rw [← h.index.1] at hsect
    rw [classifiersAgree_stageAt m path option h.binding
      (by rw [stageAt, hsect]; exact mem_sectionLetters _ (codeChar_mem _))
      (by rw [hnamed]; exact SectKind.letter_mem _), hnamed, stageAt, hsect, h.index.1,
      nameLetter_eq_iff]
    exact ⟨fun hlisted _ => hlisted, fun hlisted => hlisted hdot⟩
  · have hsect := h.stageAt_sect fun hd => hdot hd.1
    rw [classifiersAgree_stageAt m path option h.binding
      (by rw [hsect]; exact SectKind.letter_mem _) (by rw [hnamed]; exact SectKind.letter_mem _),
      hsect, hnamed]
    exact iff_of_true rfl fun hd => absurd hd hdot

/-- A section of mergeable strings, its section symbol, and an object `s` in it. -/
def stringSection : MappedFile where
  bytes := sectionFile elf64 .little ET_REL 3 SHT_PROGBITS (SHF_ALLOC ||| 0x30)
    (symBytes elf64 .little 0 STB_LOCAL STT_SECTION 0 3 0 0 ++
      symBytes elf64 .little 1 STB_LOCAL STT_OBJECT 0 3 0 0)
    (0 :: cstr "s" ++ [0] ++ cstr ".rodata.str1.1" ++ [0])
  size_pos := by decide +kernel
  size_lt := by decide +kernel

lemma sectionPair_stringSection :
    SectionPair stringSection 3 (stringSection.rawSymb 1 0) (stringSection.rawSymb 1 1) where
  plain := ⟨by decide, by decide, by decide, by decide,
    by decide⟩
  ordinary := by decide
  index := by decide
  binding := by decide
  type := by decide
  name := by decide
  mark := by decide

theorem classifiersAgree_iff_stringSection :
    ClassifiersAgree stringSection [] .sortOrder (stringSection.rawSymb 1 0)
        (stringSection.rawSymb 1 1) ↔
      ((stringSection.text (stringSection.rawSymb 1 0).name).head? = some '.'.toUInt8 →
        ListedUnder (stringSection.text (stringSection.rawSymb 1 0).name)
          (stringSection.shdr 3 Layout.shFlags % 2 ^ 32)
          (sectKind (stringSection.shdr 3 Layout.shType)
            (stringSection.shdr 3 Layout.shFlags % 2 ^ 32))) :=
  classifiersAgree_iff [] .sortOrder sectionPair_stringSection

/-- The section symbol is shown as text, the object in the section as read-only data. -/
theorem not_classifiersAgree_stringSection :
    Listed (fun _ => true) stringSection ∧
    SectionPair stringSection 3 (stringSection.rawSymb 1 0) (stringSection.rawSymb 1 1) ∧
    (stringSection.symbAt 1 0).typeChar = 't'.toUInt8 ∧
    (stringSection.symbAt 1 1).typeChar = 'r'.toUInt8 ∧
    ¬ClassifiersAgree stringSection [] .sortOrder (stringSection.rawSymb 1 0)
      (stringSection.rawSymb 1 1) := by
  have hsect : stringSection.letter (stringSection.rawSymb 1 0) = 't'.toUInt8 := by
    decide
  have hnamed : stringSection.letter (stringSection.rawSymb 1 1) = 'r'.toUInt8 := by
    decide
  have hdebug : ¬(stringSection.text (stringSection.rawSymb 1 0).name ∈ debugNames.map cstr ∨
      stringSection.text (stringSection.rawSymb 1 1).name ∈ debugNames.map cstr) := by
    decide
  refine ⟨⟨by decide +kernel, fun _ _ => rfl, by decide +kernel⟩, sectionPair_stringSection,
    hsect, hnamed, ?_⟩
  rintro ⟨c, d, hc, hd, hagree⟩
  rw [out_determineSymb, hsect] at hc
  rw [out_determineSymb, hnamed] at hd
  rw [if_neg hdebug, ← Except.ok.inj hc, ← Except.ok.inj hd] at hagree
  exact absurd hagree (by decide)

end FtNm
