import FtNm.Construction.Printer
import FtNm.Properties.Support.ParseSpec

/-!
# Which letter a symbol gets

`determine_symb` read backwards: for the letters that the listings test, the condition on the
symbol and on its section under which they come out.

* `Intercepted` says that the first stage settles the letter without the section header.
* `UnlistedLetter` says that a symbol that is not local gets one of the letters `u`, `v`, `C`
  and `N`; `stageLetter_unlisted` that these are the letters that `externalLetters` lacks.
* `letterOf_eq_a` is the one way to the letter `a` under a symbol's own name.
-/

namespace FtNm

/-! ## The stages -/

/-- The first stage of `determine_symb` settles the letter of a symbol with this binding, type,
visibility and section index, so that its section header is not looked at. -/
def Intercepted (binding type visibility shndx : ℕ) : Prop :=
  binding = STB_GNU_UNIQUE ∨ binding = STB_WEAK ∧ type = STT_OBJECT ∨
  binding = STB_WEAK ∧ visibility = STV_DEFAULT ∨ type = STT_GNU_IFUNC ∨
  shndx = SHN_ABS ∨ shndx = SHN_COMMON

instance (binding type visibility shndx : ℕ) :
    Decidable (Intercepted binding type visibility shndx) :=
  inferInstanceAs (Decidable (_ ∨ _))

lemma getSymbTypeAndVisibility_eq_question (symb : TSymb) :
    getSymbTypeAndVisibility symb = '?'.toUInt8 ↔
      ¬Intercepted symb.binding symb.type symb.visibility symb.sectionTabIndex ∧
        symb.sectionTabIndex ≠ SHN_UNDEF := by
  unfold getSymbTypeAndVisibility Intercepted
  dsimp only
  split_ifs <;> simp_all

/-- The letters of the second stage. -/
lemma sectionChar_mem (shType shFlags : ℕ) :
    sectionChar shType shFlags ∈ cstr "BDTRN?" := by
  unfold sectionChar
  dsimp only
  split_ifs <;> decide

/-- The second stage answers `N` for a section without flags only. -/
lemma sectionChar_eq_N (shType shFlags : ℕ) :
    sectionChar shType shFlags = 'N'.toUInt8 ↔ shFlags = 0 := by
  unfold sectionChar SHT_NULL
  dsimp only
  split_ifs <;> simp_all

/-- The letters of the third stage. -/
lemma codeChar_mem (ret : ℤ) : codeChar ret ∈ cstr "ABDNRT?" := by
  unfold codeChar
  split_ifs <;> decide

/-! ## The table of section names -/

/-- The section names of the table with the letter `c`. -/
def namesWithLetter (c : UInt8) : List String :=
  (sectionNameTable.filter fun entry => codeChar entry.2 = c).flatMap Prod.fst

/-- The section names with the letter `N`. -/
def noteNames : List String :=
  (sectionNameTable.filter fun entry => codeChar entry.2 = 'N'.toUInt8).flatMap Prod.fst

/-- A section name is in the table. -/
def InNameTable (name : List UInt8) : Prop := ∃ entry ∈ sectionNameTable, name ∈ entry.1.map cstr

instance (name : List UInt8) : Decidable (InNameTable name) :=
  inferInstanceAs (Decidable (∃ entry ∈ sectionNameTable, name ∈ entry.1.map cstr))

/-- A name that occurs twice in the table has the same letter in both places. -/
lemma sectionNameTable_consistent :
    sectionNameTable.Pairwise fun entry entry' =>
      (∃ lit ∈ entry.1, ∃ lit' ∈ entry'.1, cstr lit = cstr lit') →
        codeChar entry.2 = codeChar entry'.2 := by
  decide +kernel

lemma codeChar_eq_of_mem {name : List UInt8} {entry entry' : List String × ℤ}
    (h : entry ∈ sectionNameTable) (hname : name ∈ entry.1.map cstr)
    (h' : entry' ∈ sectionNameTable) (hname' : name ∈ entry'.1.map cstr) :
    codeChar entry.2 = codeChar entry'.2 := by
  obtain ⟨lit, hlit, rfl⟩ := List.mem_map.mp hname
  obtain ⟨lit', hlit', heq⟩ := List.mem_map.mp hname'
  have hflip := sectionNameTable_consistent.imp fun {e e'} hee' =>
    show flip (fun e e' : List String × ℤ => (∃ lit ∈ e.1, ∃ lit' ∈ e'.1, cstr lit = cstr lit') →
      codeChar e.2 = codeChar e'.2) e e' from
    fun ⟨lit, hlit, lit', hlit', heq⟩ => (hee' ⟨lit', hlit', lit, hlit, heq.symm⟩).symm
  exact sectionNameTable_consistent.forall_of_forall_of_flip (fun _ _ _ => rfl) hflip h h'
    ⟨lit, hlit, lit', hlit', heq.symm⟩

lemma mem_namesWithLetter (c : UInt8) (name : List UInt8) :
    name ∈ (namesWithLetter c).map cstr ↔ ∃ entry ∈ sectionNameTable,
      codeChar entry.2 = c ∧ name ∈ entry.1.map cstr := by
  simp only [namesWithLetter, List.mem_map, List.mem_flatMap, List.mem_filter, decide_eq_true_iff]
  constructor
  · rintro ⟨lit, ⟨entry, ⟨hentry, hc⟩, hlit⟩, rfl⟩
    exact ⟨entry, hentry, hc, lit, hlit, rfl⟩
  · rintro ⟨entry, hentry, hc, lit, hlit, rfl⟩
    exact ⟨lit, ⟨entry, ⟨hentry, hc⟩, hlit⟩, rfl⟩

/-- The third stage on a name of the table. -/
lemma codeChar_sectionCode_of_mem {name : List UInt8} {entry : List String × ℤ} (shFlag : ℕ)
    (h : entry ∈ sectionNameTable) (hname : name ∈ entry.1.map cstr) :
    codeChar (sectionCode shFlag name) = codeChar entry.2 := by
  rw [sectionCode]
  unfold findCode
  cases hfind : sectionNameTable.find? fun entry => name ∈ entry.1.map cstr with
  | some found =>
    exact codeChar_eq_of_mem (List.mem_of_find?_eq_some hfind)
      (by simpa using List.find?_some hfind) h hname
  | none =>
    have hnone := List.find?_eq_none.mp hfind entry h
    exact absurd (decide_eq_true hname) hnone

/-- The third stage on any other name. -/
lemma codeChar_sectionCode_of_not_inNameTable {name : List UInt8} (shFlag : ℕ)
    (h : ¬InNameTable name) :
    codeChar (sectionCode shFlag name) =
      if name ∈ ehFrameNames.map cstr then
        if shFlag &&& SHF_WRITE ≠ 0 then 'D'.toUInt8 else 'R'.toUInt8
      else '?'.toUInt8 := by
  have hfind : (sectionNameTable.find? fun entry => name ∈ entry.1.map cstr) = none := by
    rw [List.find?_eq_none]
    intro entry hentry hname
    exact h ⟨entry, hentry, of_decide_eq_true hname⟩
  rw [sectionCode]
  unfold findCode
  rw [hfind, Option.map_none, Option.getD_none]
  split_ifs <;> decide

/-- The third stage answers `N` for the names of the table with that letter only. -/
lemma codeChar_sectionCode_eq_N (shFlag : ℕ) (name : List UInt8) :
    codeChar (sectionCode shFlag name) = 'N'.toUInt8 ↔ name ∈ noteNames.map cstr := by
  show _ ↔ name ∈ (namesWithLetter 'N'.toUInt8).map cstr
  rw [mem_namesWithLetter]
  by_cases h : InNameTable name
  · obtain ⟨entry, hentry, hname⟩ := h
    rw [codeChar_sectionCode_of_mem shFlag hentry hname]
    constructor
    · intro hN
      exact ⟨entry, hentry, hN, hname⟩
    · rintro ⟨entry', hentry', hN, hname'⟩
      exact (codeChar_eq_of_mem hentry hname hentry' hname').trans hN
  · rw [codeChar_sectionCode_of_not_inNameTable shFlag h]
    constructor
    · intro hN
      split_ifs at hN <;> exact absurd hN (by decide)
    · rintro ⟨entry, hentry, -, hname⟩
      exact absurd ⟨entry, hentry, hname⟩ h

/-! ## The stages together -/

section Stages

variable {symb : TSymb} {name : List UInt8} (shType shFlags : ℕ)

/-- A borrowed name that starts with a dot decides alone. -/
lemma stageLetter_dotted (h : name.head? = some '.'.toUInt8 ∧ symb.shType ≠ SHT_SYMTAB) :
    stageLetter symb shType shFlags name =
      if codeChar (sectionCode (shFlags % 2 ^ 32) name) = '?'.toUInt8 then 'T'.toUInt8
      else codeChar (sectionCode (shFlags % 2 ^ 32) name) := by
  unfold stageLetter
  dsimp only
  rw [if_pos h]

/-- Otherwise the attributes decide, when they give a letter. -/
lemma stageLetter_attributes (h : ¬(name.head? = some '.'.toUInt8 ∧ symb.shType ≠ SHT_SYMTAB))
    (hfirst : getSymbTypeAndVisibility symb ≠ '?'.toUInt8) :
    stageLetter symb shType shFlags name = getSymbTypeAndVisibility symb := by
  unfold stageLetter
  dsimp only
  rw [if_neg h, if_neg hfirst, if_neg hfirst]

/-- And the section when they do not. -/
lemma stageLetter_section (h : ¬(name.head? = some '.'.toUInt8 ∧ symb.shType ≠ SHT_SYMTAB))
    (hfirst : getSymbTypeAndVisibility symb = '?'.toUInt8) :
    stageLetter symb shType shFlags name =
      if sectionChar shType (shFlags % 2 ^ 32) = '?'.toUInt8 then 'T'.toUInt8
      else sectionChar shType (shFlags % 2 ^ 32) := by
  unfold stageLetter
  dsimp only
  rw [if_neg h, if_pos hfirst]

end Stages

/-! ## Letters that `-g` does not list -/

/-- The first stage answers `u`, `v` or `C`. -/
def UnlistedAttributes (binding type visibility shndx : ℕ) : Prop :=
  binding = STB_GNU_UNIQUE ∨
  binding = STB_WEAK ∧ type = STT_OBJECT ∧ shndx = SHN_UNDEF ∨
  shndx = SHN_COMMON ∧ binding ≠ STB_GNU_UNIQUE ∧ ¬(binding = STB_WEAK ∧ type = STT_OBJECT) ∧
    ¬(binding = STB_WEAK ∧ visibility = STV_DEFAULT) ∧ type ≠ STT_GNU_IFUNC

instance (binding type visibility shndx : ℕ) :
    Decidable (UnlistedAttributes binding type visibility shndx) :=
  inferInstanceAs (Decidable (_ ∨ _))

/-- The letters of the first stage that `-g` does not list. -/
lemma getSymbTypeAndVisibility_unlisted (symb : TSymb) :
    getSymbTypeAndVisibility symb ∈ cstr "uvC" ↔
      UnlistedAttributes symb.binding symb.type symb.visibility symb.sectionTabIndex := by
  unfold getSymbTypeAndVisibility UnlistedAttributes
  dsimp only
  split_ifs <;> simp_all [cstr]

lemma getSymbTypeAndVisibility_mem (symb : TSymb) :
    getSymbTypeAndVisibility symb ∈ cstr "uvCVwWAiU?" := by
  unfold getSymbTypeAndVisibility
  dsimp only
  split_ifs <;> decide

/-- The letters of the first stage but `?` are letters of a symbol, and `u`, `v` and `C` are
the ones that `-g` does not list. -/
lemma firstLetter : ∀ c ∈ cstr "uvCVwWAiU?", c ≠ '?'.toUInt8 →
    c ∈ cstr "uvCVwWAiUBDTRN" ∧ (c ∉ cstr externalLetters ↔ c ∈ cstr "uvC") :=
  forall_mem_of_all (by decide)

/-- So are those of the later stages, once `?` has become `T`, and `N` is the one that `-g` does
not list. -/
lemma laterLetter : ∀ c ∈ cstr "ABDNRT?",
    (if c = '?'.toUInt8 then 'T'.toUInt8 else c) ∈ cstr "uvCVwWAiUBDTRN" ∧
      ((if c = '?'.toUInt8 then 'T'.toUInt8 else c) ∉ cstr externalLetters ↔
        c = 'N'.toUInt8) :=
  forall_mem_of_all (by decide)

lemma mem_laterLetters : ∀ c ∈ cstr "BDTRN?", c ∈ cstr "ABDNRT?" :=
  forall_mem_of_all (by decide)

/-- Folding to lower case makes an `a` from `A` only. -/
lemma toLower_letter : ∀ c ∈ cstr "uvCVwWAiUBDTRN",
    (toLower c = 'a'.toUInt8 ↔ c = 'A'.toUInt8) ∧ c ≠ 'a'.toUInt8 :=
  forall_mem_of_all (by decide)

/-- The letter of a symbol that is not local is none of `externalLetters`: its attributes say
so, or the flags of the section that is asked, or the section name that is looked up. -/
def UnlistedLetter (symb : TSymb) (shFlags : ℕ) (name : List UInt8) : Prop :=
  if name.head? = some '.'.toUInt8 ∧ symb.shType ≠ SHT_SYMTAB then name ∈ noteNames.map cstr
  else
    UnlistedAttributes symb.binding symb.type symb.visibility symb.sectionTabIndex ∨
      ¬Intercepted symb.binding symb.type symb.visibility symb.sectionTabIndex ∧
        symb.sectionTabIndex ≠ SHN_UNDEF ∧ shFlags % 2 ^ 32 = 0

lemma stageLetter_unlisted (symb : TSymb) (shType shFlags : ℕ) (name : List UInt8) :
    stageLetter symb shType shFlags name ∉ cstr externalLetters ↔
      UnlistedLetter symb shFlags name := by
  have hquestion : '?'.toUInt8 ∉ cstr "uvC" := by decide
  unfold UnlistedLetter
  by_cases hdotted : name.head? = some '.'.toUInt8 ∧ symb.shType ≠ SHT_SYMTAB
  · rw [if_pos hdotted, stageLetter_dotted _ _ hdotted, (laterLetter _ (codeChar_mem _)).2,
      codeChar_sectionCode_eq_N]
  · rw [if_neg hdotted, ← and_assoc, ← getSymbTypeAndVisibility_eq_question,
      ← getSymbTypeAndVisibility_unlisted]
    by_cases hc : getSymbTypeAndVisibility symb = '?'.toUInt8
    · rw [stageLetter_section _ _ hdotted hc,
        (laterLetter _ (mem_laterLetters _ (sectionChar_mem _ _))).2, sectionChar_eq_N, hc]
      simp [hquestion]
    · rw [stageLetter_attributes _ _ hdotted hc,
        (firstLetter _ (getSymbTypeAndVisibility_mem symb) hc).2]
      simp [hc]

/-! ## The letter `a` -/

lemma stageLetter_mem (symb : TSymb) (shType shFlags : ℕ) (name : List UInt8) :
    stageLetter symb shType shFlags name ∈ cstr "uvCVwWAiUBDTRN" := by
  by_cases hdotted : name.head? = some '.'.toUInt8 ∧ symb.shType ≠ SHT_SYMTAB
  · rw [stageLetter_dotted _ _ hdotted]
    exact (laterLetter _ (codeChar_mem _)).1
  · by_cases hc : getSymbTypeAndVisibility symb = '?'.toUInt8
    · rw [stageLetter_section _ _ hdotted hc]
      exact (laterLetter _ (mem_laterLetters _ (sectionChar_mem _ _))).1
    · rw [stageLetter_attributes _ _ hdotted hc]
      exact (firstLetter _ (getSymbTypeAndVisibility_mem symb) hc).1

/-- Under its own name a symbol has a letter that no section has only from its attributes. -/
lemma stageLetter_named {symb : TSymb} {c : UInt8} (h : symb.shType = SHT_SYMTAB)
    (hc : c ∉ cstr "BDTRN?") (shType shFlags : ℕ) (name : List UInt8) :
    stageLetter symb shType shFlags name = c ↔ getSymbTypeAndVisibility symb = c := by
  have hsecond : ∀ d ∈ cstr "BDTRN?",
      (if d = '?'.toUInt8 then 'T'.toUInt8 else d) ∈ cstr "BDTRN?" :=
    forall_mem_of_all (by decide)
  have hquestion : '?'.toUInt8 ∈ cstr "BDTRN?" := by decide
  have hdotted : ¬(name.head? = some '.'.toUInt8 ∧ symb.shType ≠ SHT_SYMTAB) :=
    fun hd => hd.2 h
  by_cases hfirst : getSymbTypeAndVisibility symb = '?'.toUInt8
  · rw [stageLetter_section _ _ hdotted hfirst, hfirst]
    constructor
    · rintro rfl
      exact absurd (hsecond _ (sectionChar_mem _ _)) hc
    · rintro rfl
      exact absurd hquestion hc
  · rw [stageLetter_attributes _ _ hdotted hfirst]

/-- Only a local symbol has the letter `a`. -/
lemma letterOf_ne_a {symb : TSymb} (h : symb.binding ≠ STB_LOCAL) (shType shFlags : ℕ)
    (name : List UInt8) : letterOf symb shType shFlags name ≠ 'a'.toUInt8 := by
  have ha : 'a'.toUInt8 ∉ cstr "uvCVwWAiUBDTRN" := by decide
  rw [letterOf, if_neg fun hlocal => h hlocal.1]
  exact fun heq => ha (heq ▸ stageLetter_mem symb shType shFlags name)

/-- The first stage answers `A` for the absolute symbols that it has not settled before. -/
lemma getSymbTypeAndVisibility_eq_A {symb : TSymb} (h : symb.binding = STB_LOCAL) :
    getSymbTypeAndVisibility symb = 'A'.toUInt8 ↔ symb.sectionTabIndex = SHN_ABS := by
  unfold getSymbTypeAndVisibility
  dsimp only
  split_ifs <;> simp_all

/-- Under its own name a symbol has the letter `a` when it is local and absolute, unless the
name is one of those that keep their upper case. -/
lemma letterOf_eq_a {symb : TSymb} (h : symb.shType = SHT_SYMTAB) (shType shFlags : ℕ)
    (name : List UInt8) :
    letterOf symb shType shFlags name = 'a'.toUInt8 ↔
      symb.binding = STB_LOCAL ∧ symb.sectionTabIndex = SHN_ABS ∧
        name ∉ debugNames.map cstr := by
  have hstage : stageLetter symb shType shFlags name = 'A'.toUInt8 ↔
      getSymbTypeAndVisibility symb = 'A'.toUInt8 :=
    stageLetter_named h (by decide) shType shFlags name
  have hmem := stageLetter_mem symb shType shFlags name
  rw [letterOf]
  by_cases hlocal : symb.binding = STB_LOCAL
  · by_cases hdebug : name ∈ debugNames.map cstr
    · rw [if_neg fun hl => hl.2 hdebug]
      exact iff_of_false (toLower_letter _ hmem).2 fun hl => hl.2.2 hdebug
    · rw [if_pos ⟨hlocal, hdebug⟩, (toLower_letter _ hmem).1, hstage,
        getSymbTypeAndVisibility_eq_A hlocal]
      simp [hlocal, hdebug]
  · rw [if_neg fun hl => hlocal hl.1]
    exact iff_of_false (toLower_letter _ hmem).2 fun hl => hlocal hl.1

end FtNm
