import FtNm.Construction.Object
import FtNm.Properties.Support.Listing

/-!
# `-a`, `-u` and the default listing

The three listings are written separately and test different fields.  `ConsistentViews` says
how they fit together: `-a` shows everything but the undefined entries without a name, `-u` is
the undefined part of it, and the default listing a part of it too.

The last of these is not visible in the tests: the default listing does not look at the section
index at all.  It holds by an invariant of the parser (`shType_of_undef`): an undefined entry
without a name carries the name of section `0`, and with it the mark that hides it.
-/

namespace FtNm

/-- The lines of `-a`, of `-u` and of the default for the symbol array `symb`. -/
structure ConsistentViews (m : MappedFile) (symb : List TSymb) (a u d : List Line) : Prop where
  all_entries : (a.map Line.entry).Perm
    (symb.filter fun s => ¬(s.sectionTabIndex = SHN_UNDEF ∧ m.text s.name = []))
  undefined_lines : u = a.filter fun l => l.entry.sectionTabIndex = SHN_UNDEF
  default_sublist : d.Sublist a

namespace MappedFile

variable (m : MappedFile)

/-- **Parser invariant.**  An undefined entry that ends up without a name has been given the
name of a section. -/
lemma shType_of_undef (hshnum : 0 < m.shnum) {s : TSymb} (hs : s ∈ m.syms.symb)
    (hundef : s.sectionTabIndex = SHN_UNDEF) (hname : m.text s.name = []) :
    s.shType ≠ SHT_SYMTAB := by
  obtain ⟨i, -, j, -, rfl⟩ := m.mem_symb.mp hs
  rw [symbAt_shType, ne_eq, rawSymb_shType_eq, not_not]
  by_contra hnamed
  rw [symbAt_name, m.rawSymb_name_of_not_unnamed hnamed] at hname
  rw [symbAt_sectionTabIndex] at hundef
  exact hnamed ⟨hname, hundef ▸ hshnum⟩

end MappedFile

/-- A test that implies another on a list selects a part of what the other selects. -/
lemma filter_sublist_filter {α : Type} {p q : α → Bool} {xs : List α}
    (h : ∀ a ∈ xs, p a = true → q a = true) : (xs.filter p).Sublist (xs.filter q) := by
  have hsub : xs.filter p = (xs.filter q).filter p := by
    rw [List.filter_filter]
    apply List.filter_congr
    intro a ha
    have hpq := h a ha
    cases hp : p a <;> simp_all
  rw [hsub]
  exact List.filter_sublist

/-- **`-a`, `-u` and the default listing are consistent.** -/
theorem consistentViews_listings (malloc : ℕ → Bool) (m : MappedFile) (path : List UInt8)
    (option : EOption) (nFiles : ℕ) (file : TFile)
    (hfile : (loadFile malloc (TFile.mapped path m option)).out = .ok file) :
    ∃ a u d,
      (manageFile malloc nFiles (TFile.mapped path m .displayAll)).out = .ok a ∧
      (manageFile malloc nFiles (TFile.mapped path m .undefinedSymbolsOnly)).out = .ok u ∧
      (manageFile malloc nFiles (TFile.mapped path m .sortOrder)).out = .ok d ∧
      ConsistentViews m file.syms.symb a.lines u.lines d.lines := by
  obtain ⟨hlisted, rfl⟩ := (out_loadFile_listed m path option).mp hfile
  refine ⟨_, _, _, (out_manageFile m path _).mpr ⟨hlisted, rfl⟩,
    (out_manageFile m path _).mpr ⟨hlisted, rfl⟩, (out_manageFile m path _).mpr ⟨hlisted, rfl⟩, ?_⟩
  rw [lines_parsed, lines_parsed, lines_parsed]
  constructor
  · rw [map_entry_line]
    exact (m.sorted_perm 1).filter _
  · rw [List.filter_map]
    congr 1
    unfold MappedFile.listing
    rw [List.filter_filter]
    apply List.filter_congr
    intro s _
    rw [Bool.eq_iff_iff]
    simp only [Function.comp, Bool.and_eq_true, decide_eq_true_iff]
    constructor
    · rintro ⟨hundef, hname⟩
      exact ⟨hundef, fun hnil => hname hnil.2⟩
    · rintro ⟨hundef, hshown⟩
      exact ⟨hundef, fun hnil => hshown ⟨hundef, hnil⟩⟩
  · apply List.Sublist.map
    apply filter_sublist_filter
    intro s hs hshown
    have hmem : s ∈ m.syms.symb := (m.sorted_perm 1).mem_iff.mp hs
    rw [decide_eq_true_iff] at hshown ⊢
    rintro ⟨hundef, hname⟩
    exact m.shType_of_undef hlisted.1.shnum_pos hmem hundef hname hshown.2.2

/-- The null symbol, a named undefined symbol and a defined one. -/
def threeSymbols : MappedFile where
  bytes := tableFile elf32 .little ET_REL
    (symBytes elf32 .little 0 0 0 0 SHN_UNDEF 0 0 ++ symBytes elf32 .little 1 1 0 0 SHN_UNDEF 0 0 ++
      symBytes elf32 .little 3 1 0 0 SHN_ABS 1 0)
    (0 :: cstr "b" ++ 0 :: cstr "a" ++ [0, 0, 0, 0])
  size_pos := by decide +kernel
  size_lt := by decide +kernel

theorem consistentViews_threeSymbols :
    ∃ a u d,
      (manageFile (fun _ => true) 1 (TFile.mapped [] threeSymbols .displayAll)).out = .ok a ∧
      (manageFile (fun _ => true) 1
        (TFile.mapped [] threeSymbols .undefinedSymbolsOnly)).out = .ok u ∧
      (manageFile (fun _ => true) 1 (TFile.mapped [] threeSymbols .sortOrder)).out = .ok d ∧
      ConsistentViews threeSymbols threeSymbols.syms.symb a.lines u.lines d.lines :=
  consistentViews_listings _ threeSymbols [] .sortOrder 1 (TFile.parsed [] threeSymbols .sortOrder)
    ((out_loadFile_listed _ _ _).mpr
      ⟨⟨by decide +kernel, fun _ _ => rfl, by decide +kernel⟩, rfl⟩)

end FtNm
