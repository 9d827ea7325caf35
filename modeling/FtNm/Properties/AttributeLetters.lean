import FtNm.Construction.Object
import FtNm.Properties.Support.Letters
import FtNm.Properties.Support.ImageParse

/-!
# Letters and symbol attributes

What the letter of a symbol says about its binding, its visibility and its being undefined.

* `letter_case`: the letter is one of the documented ones, never `?`, and its case shows whether
  the symbol is local.
* `faithfulUndefined_iff`: `u` and `U` stand for unique and for undefined symbols, except that a
  local undefined symbol is folded to `u`, and that a weak one with a visibility of its own
  falls through to `U`.
* `visibilityFree_iff`: only a weak symbol that is not an object is shown differently according
  to its visibility.
-/

namespace FtNm

variable (m : MappedFile) (path : List UInt8) (option : EOption)

/-! ## Case -/

/-- An upper-case letter. -/
def IsUpper (c : UInt8) : Prop := 'A'.toUInt8 ≤ c ∧ c ≤ 'Z'.toUInt8

/-- A lower-case letter. -/
def IsLower (c : UInt8) : Prop := 'a'.toUInt8 ≤ c ∧ c ≤ 'z'.toUInt8

instance (c : UInt8) : Decidable (IsUpper c) := inferInstanceAs (Decidable (_ ∧ _))

instance (c : UInt8) : Decidable (IsLower c) := inferInstanceAs (Decidable (_ ∧ _))

/-- The letter in lower case. -/
def lowerCase (c : UInt8) : UInt8 := if IsUpper c then c + 32 else c

/-- The letters that the listings use, up to case. -/
def symbolLetters : List UInt8 := cstr "ABCDNRTUVWiuvw"

/-- The letter of a stage is a documented one, and lower case only when it is one of four. -/
lemma stageLetter_case : ∀ c ∈ cstr "uvCVwWAiUBDTRN",
    c ∈ symbolLetters ∧ c ≠ '?'.toUInt8 ∧ (IsLower c → c ∈ cstr "iuvw") :=
  forall_mem_of_all (by decide)

/-- Setting the bit makes lower case out of each of them. -/
lemma toLower_case : ∀ c ∈ cstr "uvCVwWAiUBDTRN",
    toLower c = lowerCase c ∧ toLower c ≠ '?'.toUInt8 ∧ ¬IsUpper (toLower c) :=
  forall_mem_of_all (by decide)

/-- **The letter and its case.** -/
theorem letter_case (symb : TSymb) :
    ∃ c, (determineSymb (TFile.headed path m option) symb).out = .ok c ∧ c ≠ '?'.toUInt8 ∧
      (∃ d ∈ symbolLetters, c = d ∨ c = lowerCase d) ∧
      (IsUpper c → symb.binding ≠ STB_LOCAL ∨ m.text symb.name ∈ debugNames.map cstr) ∧
      (IsLower c → symb.binding = STB_LOCAL ∨ c ∈ cstr "iuvw") := by
  refine ⟨m.letter symb, out_determineSymb m path option symb, ?_⟩
  unfold MappedFile.letter letterOf
  have hmem := stageLetter_mem symb (m.shdr symb.sectionTabIndex Layout.shType)
    (m.shdr symb.sectionTabIndex Layout.shFlags) (m.text symb.name)
  generalize stageLetter symb (m.shdr symb.sectionTabIndex Layout.shType)
    (m.shdr symb.sectionTabIndex Layout.shFlags) (m.text symb.name) = c at hmem
  obtain ⟨hdoc, hquestion, hlower⟩ := stageLetter_case c hmem
  obtain ⟨hfold, hfoldQuestion, hfoldUpper⟩ := toLower_case c hmem
  dsimp only
  by_cases hlocal : symb.binding = STB_LOCAL ∧ m.text symb.name ∉ debugNames.map cstr
  · rw [if_pos hlocal]
    exact ⟨hfoldQuestion, ⟨c, hdoc, .inr hfold⟩, fun h => absurd h hfoldUpper,
      fun _ => .inl hlocal.1⟩
  · rw [if_neg hlocal]
    refine ⟨hquestion, ⟨c, hdoc, .inl rfl⟩, fun _ => ?_, fun h => .inr (hlower h)⟩
    rcases not_and_or.mp hlocal with hbinding | hdebug
    · exact .inl hbinding
    · exact .inr (not_not.mp hdebug)

/-! ## Undefined and unique symbols -/

/-- The letter `c` of the entry `symb` is `u` and `U` exactly when it should be. -/
structure FaithfulUndefined (symb : TSymb) (c : UInt8) : Prop where
  unique : c = 'u'.toUInt8 ↔ symb.binding = STB_GNU_UNIQUE
  undefined : c = 'U'.toUInt8 ↔ symb.sectionTabIndex = SHN_UNDEF ∧ symb.binding ≠ STB_WEAK ∧
    symb.binding ≠ STB_GNU_UNIQUE ∧ symb.type ≠ STT_GNU_IFUNC

/-- An undefined symbol whose letter is folded to that of a unique one, or which is weak and
gets past the branches for weak symbols. -/
def MistakenUndefined (symb : TSymb) (name : List UInt8) : Prop :=
  symb.sectionTabIndex = SHN_UNDEF ∧ symb.type ≠ STT_GNU_IFUNC ∧
    (symb.binding = STB_LOCAL ∧ name ∉ debugNames.map cstr ∨
      symb.binding = STB_WEAK ∧ symb.type ≠ STT_OBJECT ∧ symb.visibility ≠ STV_DEFAULT)

instance (symb : TSymb) (name : List UInt8) : Decidable (MistakenUndefined symb name) :=
  inferInstanceAs (Decidable (_ ∧ _))

lemma getSymbTypeAndVisibility_eq_u (symb : TSymb) :
    getSymbTypeAndVisibility symb = 'u'.toUInt8 ↔ symb.binding = STB_GNU_UNIQUE := by
  unfold getSymbTypeAndVisibility
  dsimp only
  split_ifs <;> simp_all

lemma getSymbTypeAndVisibility_eq_U (symb : TSymb) :
    getSymbTypeAndVisibility symb = 'U'.toUInt8 ↔
      symb.sectionTabIndex = SHN_UNDEF ∧ symb.type ≠ STT_GNU_IFUNC ∧
        symb.binding ≠ STB_GNU_UNIQUE ∧
        ¬(symb.binding = STB_WEAK ∧ (symb.type = STT_OBJECT ∨ symb.visibility = STV_DEFAULT)) := by
  unfold getSymbTypeAndVisibility
  dsimp only
  split_ifs <;> simp_all

/-- Of the letters, folding maps `u` and `U` to `u`, and none to `U`. -/
lemma toLower_undefined : ∀ c ∈ cstr "uvCVwWAiUBDTRN",
    (toLower c = 'u'.toUInt8 ↔ c = 'u'.toUInt8 ∨ c = 'U'.toUInt8) ∧ toLower c ≠ 'U'.toUInt8 :=
  forall_mem_of_all (by decide)

section Stage

variable {symb : TSymb} {c : UInt8} (hmem : c ∈ cstr "uvCVwWAiUBDTRN")
  (hu : c = 'u'.toUInt8 ↔ symb.binding = STB_GNU_UNIQUE)
  (hU : c = 'U'.toUInt8 ↔ symb.sectionTabIndex = SHN_UNDEF ∧ symb.type ≠ STT_GNU_IFUNC ∧
    symb.binding ≠ STB_GNU_UNIQUE ∧
    ¬(symb.binding = STB_WEAK ∧ (symb.type = STT_OBJECT ∨ symb.visibility = STV_DEFAULT)))

include hu hU

include hmem in
/-- Folded, the letter of an undefined local symbol is wrong, and that of any other is right. -/
lemma faithfulUndefined_toLower (hlocal : symb.binding = STB_LOCAL) :
    FaithfulUndefined symb (toLower c) ↔
      ¬(symb.sectionTabIndex = SHN_UNDEF ∧ symb.type ≠ STT_GNU_IFUNC) := by
  have hunique : symb.binding ≠ STB_GNU_UNIQUE := by simp [hlocal]
  have hweak : symb.binding ≠ STB_WEAK := by simp [hlocal]
  obtain ⟨hfoldu, hfoldU⟩ := toLower_undefined c hmem
  constructor
  · rintro ⟨hfaithful, -⟩ ⟨hundef, htype⟩
    rw [hfoldu, hu, hU] at hfaithful
    exact hunique (hfaithful.mp (.inr ⟨hundef, htype, hunique, fun h => hweak h.1⟩))
  · intro hnot
    refine ⟨?_, iff_of_false hfoldU fun h => hnot ⟨h.1, h.2.2.2⟩⟩
    rw [hfoldu, hu, hU]
    exact or_iff_left fun h => hnot ⟨h.1, h.2.1⟩

/-- Kept, the letter of an undefined weak symbol is wrong when no branch for weak symbols takes
it. -/
lemma faithfulUndefined_kept :
    FaithfulUndefined symb c ↔
      ¬(symb.sectionTabIndex = SHN_UNDEF ∧ symb.type ≠ STT_GNU_IFUNC ∧
        symb.binding = STB_WEAK ∧ symb.type ≠ STT_OBJECT ∧ symb.visibility ≠ STV_DEFAULT) := by
  constructor
  · rintro ⟨-, hfaithful⟩ ⟨hundef, htype, hweak, hobject, hvisibility⟩
    rw [hU] at hfaithful
    refine (hfaithful.mp ⟨hundef, htype, by simp [hweak], ?_⟩).2.1 hweak
    rintro ⟨-, hobj | hdefault⟩
    · exact hobject hobj
    · exact hvisibility hdefault
  · intro hnot
    refine ⟨hu, ?_⟩
    rw [hU]
    constructor
    · rintro ⟨hundef, htype, hbinding, hweak⟩
      refine ⟨hundef, fun h => hnot ⟨hundef, htype, h, ?_, ?_⟩, hbinding, htype⟩
      · exact fun hobject => hweak ⟨h, .inl hobject⟩
      · exact fun hdefault => hweak ⟨h, .inr hdefault⟩
    · rintro ⟨hundef, hweak, hbinding, htype⟩
      exact ⟨hundef, htype, hbinding, fun h => hweak h.1⟩

end Stage

lemma faithfulUndefined_letter {symb : TSymb} (h : symb.shType = SHT_SYMTAB) :
    FaithfulUndefined symb (m.letter symb) ↔
      ¬MistakenUndefined symb (m.text symb.name) := by
  have hmem := stageLetter_mem symb (m.shdr symb.sectionTabIndex Layout.shType)
    (m.shdr symb.sectionTabIndex Layout.shFlags) (m.text symb.name)
  have hu := stageLetter_named (c := 'u'.toUInt8) h (by decide)
    (m.shdr symb.sectionTabIndex Layout.shType) (m.shdr symb.sectionTabIndex Layout.shFlags)
    (m.text symb.name)
  have hU := stageLetter_named (c := 'U'.toUInt8) h (by decide)
    (m.shdr symb.sectionTabIndex Layout.shType) (m.shdr symb.sectionTabIndex Layout.shFlags)
    (m.text symb.name)
  rw [getSymbTypeAndVisibility_eq_u] at hu
  rw [getSymbTypeAndVisibility_eq_U] at hU
  unfold MappedFile.letter letterOf MistakenUndefined
  dsimp only
  by_cases hlocal : symb.binding = STB_LOCAL ∧ m.text symb.name ∉ debugNames.map cstr
  · rw [if_pos hlocal, faithfulUndefined_toLower hmem hu hU hlocal.1]
    simp [hlocal]
  · rw [if_neg hlocal, faithfulUndefined_kept hu hU, or_iff_right hlocal]

/-- **When `u` and `U` are faithful.** -/
theorem faithfulUndefined_iff (symb : TSymb) (h : symb.shType = SHT_SYMTAB) :
    (∃ c, (determineSymb (TFile.headed path m option) symb).out = .ok c ∧
      FaithfulUndefined symb c) ↔ ¬MistakenUndefined symb (m.text symb.name) := by
  rw [out_determineSymb, ← faithfulUndefined_letter m h]
  simp

/-- A local symbol `x` that is undefined. -/
def localUndefined : MappedFile where
  bytes := tableFile elf64 .little ET_REL
    (symBytes elf64 .little 0 0 0 0 0 0 0 ++ symBytes elf64 .little 1 STB_LOCAL 0 0 SHN_UNDEF 0 0)
    (0 :: cstr "x" ++ [0, 0, 0, 0, 0, 0])
  size_pos := by decide +kernel
  size_lt := by decide +kernel

theorem faithfulUndefined_iff_localUndefined :
    (∃ c, (determineSymb (TFile.headed [] localUndefined .sortOrder)
        (localUndefined.rawSymb 1 1)).out = .ok c ∧
      FaithfulUndefined (localUndefined.rawSymb 1 1) c) ↔
      ¬MistakenUndefined (localUndefined.rawSymb 1 1)
        (localUndefined.text (localUndefined.rawSymb 1 1).name) :=
  faithfulUndefined_iff localUndefined [] .sortOrder (localUndefined.rawSymb 1 1)
    (by decide)

/-- The symbol is shown with the letter of a unique global. -/
theorem not_faithfulUndefined_localUndefined :
    Listed (fun _ => true) localUndefined ∧
    localUndefined.text (localUndefined.ownName 1 1) = cstr "x" ∧
    (localUndefined.symbAt 1 1).typeChar = 'u'.toUInt8 ∧
    ¬∃ c, (determineSymb (TFile.headed [] localUndefined .sortOrder)
        (localUndefined.rawSymb 1 1)).out = .ok c ∧
      FaithfulUndefined (localUndefined.rawSymb 1 1) c := by
  have hletter : localUndefined.letter (localUndefined.rawSymb 1 1) = 'u'.toUInt8 := by
    decide
  have hbinding : (localUndefined.rawSymb 1 1).binding ≠ STB_GNU_UNIQUE := by decide
  refine ⟨⟨by decide +kernel, fun _ _ => rfl, by decide +kernel⟩, by decide +kernel, hletter, ?_⟩
  rintro ⟨c, hout, hfaithful⟩
  rw [out_determineSymb, hletter] at hout
  exact hbinding (hfaithful.unique.mp (Except.ok.inj hout).symm)

/-! ## Visibility -/

/-- The letter of a weak symbol. -/
def weakLetter (type shndx : ℕ) : UInt8 :=
  if type = STT_OBJECT then if shndx = SHN_UNDEF then 'v'.toUInt8 else 'V'.toUInt8
  else if shndx = SHN_UNDEF then 'w'.toUInt8 else 'W'.toUInt8

/-- The letter of an entry is the same whatever its visibility, and that of a weak one is always
a weak letter. -/
structure VisibilityFree (file : TFile) (symb : TSymb) : Prop where
  same : ∀ v < 4, ∀ v' < 4, (determineSymb file { symb with visibility := v }).out =
    (determineSymb file { symb with visibility := v' }).out
  weak : symb.binding = STB_WEAK → ∀ v < 4,
    (determineSymb file { symb with visibility := v }).out =
      .ok (weakLetter symb.type symb.sectionTabIndex)

/-- Visibility is looked at for weak symbols that are not objects only. -/
lemma getSymbTypeAndVisibility_visibility {symb : TSymb}
    (h : symb.binding ≠ STB_WEAK ∨ symb.type = STT_OBJECT) (v : ℕ) :
    getSymbTypeAndVisibility { symb with visibility := v } = getSymbTypeAndVisibility symb := by
  unfold getSymbTypeAndVisibility
  dsimp only
  rcases h with h | h
  · simp only [h, false_and]
  · by_cases hweak : symb.binding = STB_WEAK
    · simp only [h, hweak, and_self, if_true]
    · simp only [hweak, false_and]

lemma letter_visibility {symb : TSymb} (h : symb.binding ≠ STB_WEAK ∨ symb.type = STT_OBJECT)
    (v : ℕ) : m.letter { symb with visibility := v } = m.letter symb := by
  unfold MappedFile.letter letterOf stageLetter
  rw [getSymbTypeAndVisibility_visibility h]

/-- A weak object under its own name has a weak letter. -/
lemma letter_weak_object {symb : TSymb} (hbinding : symb.binding = STB_WEAK)
    (htype : symb.type = STT_OBJECT) (hdotted : ¬DottedSection m symb) :
    m.letter symb = weakLetter symb.type symb.sectionTabIndex := by
  have hlocal : symb.binding ≠ STB_LOCAL := by simp [hbinding]
  have hfirst : getSymbTypeAndVisibility symb = weakLetter symb.type symb.sectionTabIndex := by
    unfold getSymbTypeAndVisibility weakLetter
    simp [hbinding, htype]
  have hquestion : weakLetter symb.type symb.sectionTabIndex ≠ '?'.toUInt8 := by
    unfold weakLetter
    split_ifs <;> decide
  unfold MappedFile.letter letterOf
  dsimp only
  rw [if_neg fun h => hlocal h.1,
    stageLetter_attributes _ _ hdotted (hfirst ▸ hquestion), hfirst]

/-- The letters of the third stage are no weak letters. -/
lemma laterLetter_ne_weak : ∀ c ∈ cstr "ABDNRT?",
    (if c = '?'.toUInt8 then 'T'.toUInt8 else c) ∉ cstr "vVwW" :=
  forall_mem_of_all (by decide)

lemma weakLetter_mem (type shndx : ℕ) : weakLetter type shndx ∈ cstr "vVwW" := by
  unfold weakLetter
  split_ifs <;> decide

/-- The attributes of a weak symbol that is not an object, with a visibility of its own, give
no weak letter. -/
lemma getSymbTypeAndVisibility_hidden {symb : TSymb} (hbinding : symb.binding = STB_WEAK)
    (htype : symb.type ≠ STT_OBJECT) (hvisibility : symb.visibility ≠ STV_DEFAULT) :
    getSymbTypeAndVisibility symb ∉ cstr "vVwW" := by
  have hunique : symb.binding ≠ STB_GNU_UNIQUE := by simp [hbinding]
  unfold getSymbTypeAndVisibility
  simp only [hunique, htype, hvisibility, if_false, and_false]
  split_ifs <;> decide

lemma letter_ne_weak {symb : TSymb} (hbinding : symb.binding = STB_WEAK)
    (h : DottedSection m symb ∨ symb.type ≠ STT_OBJECT ∧ symb.visibility ≠ STV_DEFAULT) :
    m.letter symb ∉ cstr "vVwW" := by
  have hlocal : symb.binding ≠ STB_LOCAL := by simp [hbinding]
  unfold MappedFile.letter letterOf
  dsimp only
  rw [if_neg fun hl => hlocal hl.1]
  by_cases hdotted : DottedSection m symb
  · rw [stageLetter_dotted _ _ hdotted]
    exact laterLetter_ne_weak _ (codeChar_mem _)
  · obtain ⟨htype, hvisibility⟩ := h.resolve_left hdotted
    by_cases hc : getSymbTypeAndVisibility symb = '?'.toUInt8
    · rw [stageLetter_section _ _ hdotted hc]
      exact laterLetter_ne_weak _ (mem_laterLetters _ (sectionChar_mem _ _))
    · rw [stageLetter_attributes _ _ hdotted hc]
      exact getSymbTypeAndVisibility_hidden hbinding htype hvisibility

/-- **Which letters do not depend on the visibility.** -/
theorem visibilityFree_iff (symb : TSymb) :
    VisibilityFree (TFile.headed path m option) symb ↔
      symb.binding ≠ STB_WEAK ∨ symb.type = STT_OBJECT ∧ ¬DottedSection m symb := by
  constructor
  · rintro ⟨-, hweak⟩
    by_contra hnot
    obtain ⟨hbinding, hcase⟩ := not_or.mp hnot
    rw [not_not] at hbinding
    have hvisibility : 2 ≠ STV_DEFAULT := by decide
    -- some visibility takes the entry past the branches for weak symbols
    have hhidden := hweak hbinding 2 (by norm_num)
    rw [out_determineSymb] at hhidden
    have hbinding' : ({ symb with visibility := 2 } : TSymb).binding = STB_WEAK := hbinding
    refine letter_ne_weak m hbinding' ?_ (Except.ok.inj hhidden ▸ weakLetter_mem _ _)
    by_cases hdotted : DottedSection m symb
    · exact .inl hdotted
    · exact .inr ⟨fun htype => hcase ⟨htype, hdotted⟩, hvisibility⟩
  · intro h
    have hfree : symb.binding ≠ STB_WEAK ∨ symb.type = STT_OBJECT := h.imp_right And.left
    constructor
    · intro v _ v' _
      rw [out_determineSymb, out_determineSymb, letter_visibility m hfree v,
        letter_visibility m hfree v']
    · intro hbinding v _
      obtain ⟨htype, hdotted⟩ := h.resolve_left (not_not.mpr hbinding)
      rw [out_determineSymb, letter_visibility m hfree,
        letter_weak_object m hbinding htype hdotted]

/-- A function `f` in `.text` that is weak and hidden. -/
def hiddenWeak : MappedFile where
  bytes := sectionFile elf64 .little ET_REL 3 SHT_PROGBITS (SHF_ALLOC ||| SHF_EXECINSTR)
    (symBytes elf64 .little 0 0 0 0 0 0 0 ++ symBytes elf64 .little 1 STB_WEAK 2 2 3 0 0)
    (0 :: cstr "f" ++ [0] ++ cstr ".text" ++ [0])
  size_pos := by decide +kernel
  size_lt := by decide +kernel

/-- The function is shown as an ordinary one, and as a weak one if it were not hidden. -/
theorem not_visibilityFree_hiddenWeak :
    Listed (fun _ => true) hiddenWeak ∧
    hiddenWeak.text (hiddenWeak.ownName 1 1) = cstr "f" ∧
    (hiddenWeak.rawSymb 1 1).binding = STB_WEAK ∧
    (hiddenWeak.symbAt 1 1).typeChar = 'T'.toUInt8 ∧
    (determineSymb (TFile.headed [] hiddenWeak .sortOrder)
      { hiddenWeak.rawSymb 1 1 with visibility := STV_DEFAULT }).out = .ok 'W'.toUInt8 ∧
    ¬VisibilityFree (TFile.headed [] hiddenWeak .sortOrder) (hiddenWeak.rawSymb 1 1) := by
  have hhidden : hiddenWeak.letter (hiddenWeak.rawSymb 1 1) = 'T'.toUInt8 := by decide
  have hdefault : hiddenWeak.letter { hiddenWeak.rawSymb 1 1 with visibility := STV_DEFAULT } =
      'W'.toUInt8 := by decide
  have hvisibility : { hiddenWeak.rawSymb 1 1 with visibility := 2 } = hiddenWeak.rawSymb 1 1 := by
    decide
  refine ⟨⟨by decide +kernel, fun _ _ => rfl, by decide +kernel⟩, by decide +kernel,
    by decide, hhidden, by rw [out_determineSymb, hdefault], ?_⟩
  rintro ⟨hsame, -⟩
  have heq := hsame 2 (by norm_num) STV_DEFAULT (by decide)
  rw [hvisibility, out_determineSymb, out_determineSymb, hhidden, hdefault] at heq
  exact absurd (Except.ok.inj heq) (by decide)

end FtNm
