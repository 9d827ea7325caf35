import FtNm.Construction.Object
import FtNm.Properties.Support.Letters
import FtNm.Properties.Support.Listing

/-!
# Ordinary symbols in the default listing

The default listing hides file and section symbols.  It does not look at the symbol's type for
that: it recognises section symbols by the mark of a borrowed name, and file symbols by the
letter `a` and the value `0`.  A local absolute symbol of value `0` looks the same, whatever
its type, and is hidden too, unless it has one of the names whose letter stays in upper case.
`printedOnce_iff` says that no other symbol with a name of its own is lost.
-/

namespace FtNm

/-- The listing under each of the three sorting options has as many lines for the entry `s` as
the symbol array has copies of it: one line for each. -/
def PrintedOnce (malloc : ℕ → Bool) (m : MappedFile) (path : List UInt8) (nFiles : ℕ)
    (s : TSymb) : Prop :=
  ∀ option ∈ [EOption.noSort, .sortOrder, .reverseSort], ∃ output,
    (manageFile malloc nFiles (TFile.mapped path m option)).out = .ok output ∧
      (output.lines.map Line.entry).count s = m.syms.symb.count s

variable (m : MappedFile)

lemma map_entry_lines (path : List UInt8) (option : EOption) (nFiles : ℕ) :
    (printSymboles (TFile.parsed path m option) nFiles).lines.map Line.entry =
      m.listing option := by
  rw [lines_parsed, map_entry_line]

/-- An entry of the array has all of its lines when it is shown, and none when it is not. -/
lemma count_listing (option : EOption) {s : TSymb} (hs : s ∈ m.syms.symb) :
    (m.listing option).count s = m.syms.symb.count s ↔ Shown m option s := by
  have hcount : (m.sorted (sortOrder option)).count s = m.syms.symb.count s :=
    (m.sorted_perm _).count_eq s
  have hpos : 0 < m.syms.symb.count s := List.count_pos_iff.mpr hs
  unfold MappedFile.listing
  by_cases hshown : Shown m option s
  · rw [List.count_filter (by simpa using hshown)]
    exact iff_of_true hcount hshown
  · have hzero : ((m.sorted (sortOrder option)).filter fun s => Shown m option s).count s = 0 :=
      List.count_eq_zero.mpr fun hmem => hshown (by simpa using (List.mem_filter.mp hmem).2)
    rw [hzero]
    exact iff_of_false hpos.ne hshown

/-- What the default listing shows of an entry with a name of its own. -/
lemma shownByDefault_named {i j : ℕ} (hname : m.text (m.ownName i j) ≠ []) :
    ShownByDefault m (m.symbAt i j) ↔
      ¬(m.sym i j Layout.stInfo >>> 4 = STB_LOCAL ∧ m.sym i j Layout.stShndx = SHN_ABS ∧
        m.text (m.ownName i j) ∉ debugNames.map cstr ∧ m.sym i j Layout.stValue = 0) := by
  have hnamed : ¬m.Unnamed i j := fun h => hname h.1
  have hown := m.rawSymb_name_of_not_unnamed hnamed
  rw [ShownByDefault, m.symbAt_typeChar, MappedFile.letter,
    letterOf_eq_a ((m.rawSymb_shType_eq i j).mpr hnamed)]
  simp [hown, hname, hnamed, m.rawSymb_shType_eq, and_assoc]

/-- **Which symbols with a name of their own the default listing prints.**  The type of the
symbol does not enter, so ordinary symbols are treated like `STT_FILE` ones. -/
theorem printedOnce_iff (malloc : ℕ → Bool) (m : MappedFile) (path : List UInt8)
    (option : EOption) (nFiles : ℕ) (file : TFile)
    (hfile : (loadFile malloc (TFile.mapped path m option)).out = .ok file) (i j : ℕ)
    (hi : m.symtabIndex = some i) (hj : j < m.nSyms i) (hname : m.text (m.ownName i j) ≠ []) :
    PrintedOnce malloc m path nFiles (m.symbAt i j) ↔
      ¬(m.sym i j Layout.stInfo >>> 4 = STB_LOCAL ∧ m.sym i j Layout.stShndx = SHN_ABS ∧
        m.text (m.ownName i j) ∉ debugNames.map cstr ∧ m.sym i j Layout.stValue = 0) := by
  obtain ⟨hlisted, -⟩ := (out_loadFile_listed m path option).mp hfile
  have hs : m.symbAt i j ∈ m.syms.symb := m.mem_symb.mpr ⟨i, hi, j, hj, rfl⟩
  rw [← shownByDefault_named m hname]
  unfold PrintedOnce
  simp only [out_manageFile, hlisted, true_and, exists_eq_left, map_entry_lines,
    count_listing m _ hs, List.forall_mem_cons, List.not_mem_nil, false_imp_iff, implies_true,
    and_true]
  exact and_iff_left_of_imp fun h => ⟨h, h⟩

/-- A local absolute symbol without a type, of value `0`. -/
def absoluteZero : MappedFile where
  bytes := tableFile elf64 .little ET_REL
    (symBytes elf64 .little 0 0 0 0 0 0 0 ++ symBytes elf64 .little 1 0 0 0 SHN_ABS 0 0)
    (0 :: cstr "z" ++ [0, 0, 0, 0, 0, 0])
  size_pos := by decide +kernel
  size_lt := by decide +kernel

lemma listed_absoluteZero : Listed (fun _ => true) absoluteZero :=
  ⟨by decide +kernel, fun _ _ => rfl, by decide +kernel⟩

theorem printedOnce_iff_absoluteZero :
    PrintedOnce (fun _ => true) absoluteZero [] 1 (absoluteZero.symbAt 1 1) ↔
      ¬(absoluteZero.sym 1 1 Layout.stInfo >>> 4 = STB_LOCAL ∧
        absoluteZero.sym 1 1 Layout.stShndx = SHN_ABS ∧
        absoluteZero.text (absoluteZero.ownName 1 1) ∉ debugNames.map cstr ∧
        absoluteZero.sym 1 1 Layout.stValue = 0) :=
  printedOnce_iff _ absoluteZero [] .sortOrder 1 (TFile.parsed [] absoluteZero .sortOrder)
    ((out_loadFile_listed _ _ _).mpr ⟨listed_absoluteZero, rfl⟩) 1 1 (by decide)
    (by decide) (by decide)

/-- The symbol has a name of its own and neither of the two types, and it is not printed. -/
theorem not_printedOnce_absoluteZero :
    Listed (fun _ => true) absoluteZero ∧
    absoluteZero.text (absoluteZero.ownName 1 1) = cstr "z" ∧
    absoluteZero.sym 1 1 Layout.stInfo &&& 0xf = 0 ∧
    ¬PrintedOnce (fun _ => true) absoluteZero [] 1 (absoluteZero.symbAt 1 1) := by
  refine ⟨listed_absoluteZero, by decide, by decide, ?_⟩
  intro h
  obtain ⟨output, hout, hcount⟩ := h .sortOrder (by decide)
  obtain ⟨-, rfl⟩ := (out_manageFile _ _ _).mp hout
  have hmem : absoluteZero.symbAt 1 1 ∈ absoluteZero.syms.symb := by decide
  rw [map_entry_lines, count_listing _ _ hmem] at hcount
  revert hcount
  decide

end FtNm
