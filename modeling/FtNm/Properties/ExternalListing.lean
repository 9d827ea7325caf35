import FtNm.Construction.Object
import FtNm.Properties.Support.Letters
import FtNm.Properties.Support.Listing

/-!
# `-g` and the external symbols

`-g` is meant to print the external symbols, that is those of the default listing that are not
local.  `external_only` tests the binding, but also the letter, against the set `RWwDBUTAVi`,
and it does not repeat the tests of the default listing.

Four letters of symbols that are not local are missing from the set: `u`, `v`, `C` and `N`.  So
`-g` drops unique symbols, undefined weak objects, common symbols and symbols of sections
without flags; and it adds section symbols and nameless ones whose letter is in the set.
`externalLines_iff` is the exact condition, entry by entry (`ExternalOk`).
-/

namespace FtNm

/-- The lines of `-g` are those of the default for the entries that are not local. -/
def ExternalLines (g d : List Line) : Prop :=
  g = d.filter fun l => l.entry.binding ≠ STB_LOCAL

namespace MappedFile

variable (m : MappedFile)

/-- If entry `j` of the symbol table `i` is not local, its letter is missing from the set
exactly when the default listing hides it: because it carries its section's name, or because it
has neither a name nor a value. -/
def ExternalOk (i j : ℕ) : Prop :=
  m.sym i j Layout.stInfo >>> 4 ≠ STB_LOCAL →
    (UnlistedLetter (m.rawSymb i j) (m.shdr (m.sym i j Layout.stShndx) Layout.shFlags)
        (m.text (m.rawSymb i j).name) ↔
      m.Unnamed i j ∨ m.text (m.ownName i j) = [] ∧ m.sym i j Layout.stValue = 0)

/-- What `-g` shows of an entry that is not local. -/
lemma shownExternal_symbAt {i j : ℕ} (h : m.sym i j Layout.stInfo >>> 4 ≠ STB_LOCAL) :
    ShownExternal (m.symbAt i j) ↔
      ¬UnlistedLetter (m.rawSymb i j) (m.shdr (m.sym i j Layout.stShndx) Layout.shFlags)
        (m.text (m.rawSymb i j).name) := by
  have hletter : m.letter (m.rawSymb i j) = stageLetter (m.rawSymb i j)
      (m.shdr (m.sym i j Layout.stShndx) Layout.shType)
      (m.shdr (m.sym i j Layout.stShndx) Layout.shFlags) (m.text (m.rawSymb i j).name) := by
    rw [letter, letterOf, if_neg, rawSymb_sectionTabIndex]
    rw [rawSymb_binding]
    exact fun hlocal => h hlocal.1
  rw [ShownExternal, symbAt_typeChar, symbAt_binding, hletter, ← stageLetter_unlisted, not_not]
  exact and_iff_left h

/-- What the default listing shows of an entry that is not local. -/
lemma shownByDefault_symbAt {i j : ℕ} (h : m.sym i j Layout.stInfo >>> 4 ≠ STB_LOCAL) :
    ShownByDefault m (m.symbAt i j) ↔
      ¬(m.Unnamed i j ∨ m.text (m.ownName i j) = [] ∧ m.sym i j Layout.stValue = 0) := by
  have hletter : m.letter (m.rawSymb i j) ≠ 'a'.toUInt8 :=
    letterOf_ne_a (by rwa [rawSymb_binding]) _ _ _
  rw [ShownByDefault, symbAt_typeChar, symbAt_shType, rawSymb_shType_eq, symbAt_name,
    symbAt_value]
  by_cases hun : m.Unnamed i j
  · simp [hun]
  · have hname := m.rawSymb_name_of_not_unnamed hun
    simp [hun, hletter, hname]

/-- One entry is treated alike by `-g` and by the default listing. -/
lemma externalOk_iff (i j : ℕ) :
    m.ExternalOk i j ↔ (ShownExternal (m.symbAt i j) ↔
      (m.symbAt i j).binding ≠ STB_LOCAL ∧ ShownByDefault m (m.symbAt i j)) := by
  unfold ExternalOk
  rw [symbAt_binding]
  by_cases h : m.sym i j Layout.stInfo >>> 4 = STB_LOCAL
  · have hhidden : ¬ShownExternal (m.symbAt i j) :=
      fun hshown => hshown.2 ((m.symbAt_binding i j).trans h)
    simp [h, hhidden]
  · rw [m.shownExternal_symbAt h, m.shownByDefault_symbAt h, and_iff_right h, not_iff_not]
    exact forall_prop_of_true h

end MappedFile

/-- Two filters of a list agree exactly when their tests agree on its elements. -/
lemma filter_eq_filter_iff {α : Type} (p q : α → Bool) (xs : List α) :
    xs.filter p = xs.filter q ↔ ∀ a ∈ xs, (p a = true ↔ q a = true) := by
  constructor
  · intro h a ha
    have hmem : a ∈ xs.filter p ↔ a ∈ xs.filter q := by rw [h]
    simpa [ha] using hmem
  · intro h
    exact List.filter_congr fun a ha => Bool.eq_iff_iff.mpr (h a ha)

/-- **When `-g` lists exactly the external symbols.** -/
theorem externalLines_iff (malloc : ℕ → Bool) (m : MappedFile) (path : List UInt8)
    (option : EOption) (nFiles : ℕ) (file : TFile)
    (hfile : (loadFile malloc (TFile.mapped path m option)).out = .ok file) :
    (∃ g d,
      (manageFile malloc nFiles (TFile.mapped path m .externalOnly)).out = .ok g ∧
      (manageFile malloc nFiles (TFile.mapped path m .sortOrder)).out = .ok d ∧
      ExternalLines g.lines d.lines) ↔
    ∀ i, m.symtabIndex = some i → ∀ j < m.nSyms i, m.ExternalOk i j := by
  obtain ⟨hlisted, -⟩ := (out_loadFile_listed m path option).mp hfile
  have hlines : (∃ g d,
      (manageFile malloc nFiles (TFile.mapped path m .externalOnly)).out = .ok g ∧
      (manageFile malloc nFiles (TFile.mapped path m .sortOrder)).out = .ok d ∧
      ExternalLines g.lines d.lines) ↔
      (m.listing .externalOnly).map m.line =
        ((m.listing .sortOrder).map m.line).filter fun l => l.entry.binding ≠ STB_LOCAL := by
    rw [← lines_parsed m path .externalOnly nFiles, ← lines_parsed m path .sortOrder nFiles]
    simp only [out_manageFile, hlisted, true_and]
    exact ⟨fun ⟨g, d, hg, hd, h⟩ => hg ▸ hd ▸ h, fun h => ⟨_, _, rfl, rfl, h⟩⟩
  have hinj : Function.Injective m.line := fun s t h => congrArg Line.entry h
  have hmem : ∀ s, s ∈ m.sorted 1 ↔ s ∈ m.syms.symb := fun s => (m.sorted_perm 1).mem_iff
  rw [hlines, List.filter_map, hinj.list_map.eq_iff]
  unfold MappedFile.listing
  rw [List.filter_filter]
  refine (filter_eq_filter_iff _ _ (m.sorted 1)).trans ?_
  simp only [hmem, m.mem_symb, forall_exists_index, and_imp, m.externalOk_iff, Function.comp,
    Bool.and_eq_true, decide_eq_true_iff]
  constructor
  · exact fun h i hi j hj => h _ i hi j hj rfl
  · rintro h s i hi j hj rfl
    exact h i hi j hj

/-- A common symbol of eight bytes. -/
def commonSymbol : MappedFile where
  bytes := tableFile elf64 .little ET_REL
    (symBytes elf64 .little 0 0 0 0 0 0 0 ++
      symBytes elf64 .little 1 1 STT_OBJECT 0 SHN_COMMON 8 8)
    (0 :: cstr "c" ++ [0, 0, 0, 0, 0, 0])
  size_pos := by decide +kernel
  size_lt := by decide +kernel

lemma listed_commonSymbol : Listed (fun _ => true) commonSymbol :=
  ⟨by decide +kernel, fun _ _ => rfl, by decide +kernel⟩

theorem externalLines_iff_commonSymbol :
    (∃ g d,
      (manageFile (fun _ => true) 1 (TFile.mapped [] commonSymbol .externalOnly)).out = .ok g ∧
      (manageFile (fun _ => true) 1 (TFile.mapped [] commonSymbol .sortOrder)).out = .ok d ∧
      ExternalLines g.lines d.lines) ↔
    ∀ i, commonSymbol.symtabIndex = some i → ∀ j < commonSymbol.nSyms i,
      commonSymbol.ExternalOk i j :=
  externalLines_iff _ commonSymbol [] .sortOrder 1 (TFile.parsed [] commonSymbol .sortOrder)
    ((out_loadFile_listed _ _ _).mpr ⟨listed_commonSymbol, rfl⟩)

/-- The default listing shows the common symbol, and `-g` does not. -/
theorem not_externalLines_commonSymbol :
    ¬∃ g d,
      (manageFile (fun _ => true) 1 (TFile.mapped [] commonSymbol .externalOnly)).out = .ok g ∧
      (manageFile (fun _ => true) 1 (TFile.mapped [] commonSymbol .sortOrder)).out = .ok d ∧
      ExternalLines g.lines d.lines := by
  rintro ⟨g, d, hg, hd, h⟩
  obtain ⟨-, rfl⟩ := (out_manageFile _ _ _).mp hg
  obtain ⟨-, rfl⟩ := (out_manageFile _ _ _).mp hd
  rw [lines_parsed, lines_parsed] at h
  have hlengths := congrArg List.length h
  revert hlengths
  decide +kernel

end FtNm
