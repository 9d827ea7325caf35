import FtNm.Properties.Support.Sorting

/-!
# What a listing consists of

The six options differ in two things only: how the array is sorted first (`sortOrder`), and
which entries get a line (`Shown`).  `lines_printSymboles` says so: the printed lines are the
shown entries of the sorted array, each with the line that `output` makes of it.

For a parsed file the pieces depend on the mapped bytes alone.  `m.sorted order` is the sorted
array, `m.listing option` the entries that get a line and `m.line s` the line, so that
`manageFile` is `(m.listing option).map m.line` on every file that is listed at all
(`out_manageFile`).
-/

namespace FtNm

open StableMerge AccessLog

/-! ## The options -/

/-- The multiplier that an option sorts with. -/
def sortOrder : EOption → ℤ
  | .noSort => 0
  | .reverseSort => -1
  | .sortOrder | .displayAll | .undefinedSymbolsOnly | .externalOnly => 1

/-- The test of `no_flag`. -/
def ShownByDefault (m : MappedFile) (s : TSymb) : Prop :=
  ¬(m.text s.name = [] ∧ s.value = 0) ∧ ¬(s.typeChar = 'a'.toUInt8 ∧ s.value = 0) ∧
    s.shType = SHT_SYMTAB

/-- The test of `display_all`. -/
def ShownByAll (m : MappedFile) (s : TSymb) : Prop :=
  ¬(s.sectionTabIndex = SHN_UNDEF ∧ m.text s.name = [])

/-- The test of `undifined_symbols_only`. -/
def ShownUndefined (m : MappedFile) (s : TSymb) : Prop :=
  s.sectionTabIndex = SHN_UNDEF ∧ m.text s.name ≠ []

/-- The test of `external_only`. -/
def ShownExternal (s : TSymb) : Prop :=
  s.typeChar ∈ cstr externalLetters ∧ s.binding ≠ STB_LOCAL

/-- The entries that get a line. -/
def Shown (m : MappedFile) : EOption → TSymb → Prop
  | .displayAll => ShownByAll m
  | .undefinedSymbolsOnly => ShownUndefined m
  | .externalOnly => ShownExternal
  | .noSort | .sortOrder | .reverseSort => ShownByDefault m

instance (m : MappedFile) : DecidablePred (ShownByDefault m) := fun _ =>
  inferInstanceAs (Decidable (_ ∧ _))

instance (m : MappedFile) : DecidablePred (ShownByAll m) := fun _ =>
  inferInstanceAs (Decidable (¬_))

instance (m : MappedFile) : DecidablePred (ShownUndefined m) := fun _ =>
  inferInstanceAs (Decidable (_ ∧ _))

instance : DecidablePred ShownExternal := fun _ =>
  inferInstanceAs (Decidable (_ ∧ _))

instance (m : MappedFile) (option : EOption) : DecidablePred (Shown m option) :=
  match option with
  | .displayAll => inferInstanceAs (DecidablePred (ShownByAll m))
  | .undefinedSymbolsOnly => inferInstanceAs (DecidablePred (ShownUndefined m))
  | .externalOnly => inferInstanceAs (DecidablePred ShownExternal)
  | .noSort | .sortOrder | .reverseSort => inferInstanceAs (DecidablePred (ShownByDefault m))

/-! ## The tests -/

/-- Keeping entries under a test and dropping the others. -/
lemma filterMap_ite {α β : Type} (p : α → Prop) [DecidablePred p] (f : α → β) (xs : List α) :
    (xs.filterMap fun a => if p a then some (f a) else none) =
      (xs.filter fun a => p a).map f := by
  induction xs with
  | nil => rfl
  | cons a xs ih =>
    rw [List.filterMap_cons, List.filter_cons, ih]
    by_cases h : p a <;> simp [h]

lemma emptyName_iff (file : TFile) (s : TSymb) :
    emptyName file s = true ↔ file.data.text s.name = [] := by
  rw [emptyName, decide_eq_true_iff]
  exact ftStrcmp_eq_zero (file.data.zero_notMem_text _) List.not_mem_nil

/-- `ft_strpbrk` on the one-letter string of `external_only`. -/
lemma ftStrpbrk_letter (c : UInt8) :
    ftStrpbrk ([c].takeWhile (· ≠ 0)) (cstr externalLetters) = none ↔
      c ∉ cstr externalLetters := by
  have hzero : (0 : UInt8) ∉ cstr externalLetters := by decide
  by_cases h : c = 0
  · simp [h, hzero, ftStrpbrk]
  · by_cases hmem : c ∈ cstr externalLetters <;> simp [h, hmem, ftStrpbrk]

/-- The line of an undefined symbol is the same from every listing. -/
lemma outputLine_of_undef {file : TFile} {s : TSymb} (h : s.sectionTabIndex = SHN_UNDEF) :
    outputLine file s = ⟨s, blankLine file.is64 s.typeChar (file.data.text s.name)⟩ := by
  simp [outputLine, output, outputVars, blankLine, h]

section Tests

variable (file : TFile) (xs : List TSymb)

lemma filterMap_undefined :
    (xs.filterMap fun s =>
      if s.sectionTabIndex = SHN_UNDEF ∧ !emptyName file s then
        some (⟨s, blankLine file.is64 s.typeChar (file.data.text s.name)⟩ : Line)
      else none) =
    (xs.filter fun s => ShownUndefined file.data s).map (outputLine file) := by
  rw [← filterMap_ite]
  apply List.filterMap_congr
  intro s _
  have hiff : (s.sectionTabIndex = SHN_UNDEF ∧ (!emptyName file s) = true) ↔
      ShownUndefined file.data s := by
    simp [ShownUndefined, ← emptyName_iff]
  rw [if_congr hiff rfl rfl]
  by_cases h : ShownUndefined file.data s
  · rw [if_pos h, if_pos h, outputLine_of_undef h.1]
  · rw [if_neg h, if_neg h]

lemma filterMap_all :
    (xs.filterMap fun s =>
      if s.sectionTabIndex = SHN_UNDEF ∧ emptyName file s then none
      else some (outputLine file s)) =
    (xs.filter fun s => ShownByAll file.data s).map (outputLine file) := by
  rw [← filterMap_ite]
  apply List.filterMap_congr
  intro s _
  simp only [ShownByAll, ← emptyName_iff, ite_not]

lemma filterMap_external :
    (xs.filterMap fun s =>
      if ftStrpbrk ([s.typeChar].takeWhile (· ≠ 0)) (cstr externalLetters) = none ∨
          s.binding = STB_LOCAL then none
      else some (outputLine file s)) =
    (xs.filter fun s => ShownExternal s).map (outputLine file) := by
  rw [← filterMap_ite]
  apply List.filterMap_congr
  intro s _
  simp only [ftStrpbrk_letter, ShownExternal, ne_eq]
  by_cases h : s.typeChar ∈ cstr externalLetters <;> by_cases hb : s.binding = STB_LOCAL <;>
    simp [h, hb]

lemma filterMap_default :
    (xs.filterMap fun s =>
      if emptyName file s ∧ s.value = 0 then none
      else if (s.typeChar = 'a'.toUInt8 ∧ s.value = 0) ∨ s.shType ≠ SHT_SYMTAB then none
      else some (outputLine file s)) =
    (xs.filter fun s => ShownByDefault file.data s).map (outputLine file) := by
  rw [← filterMap_ite]
  apply List.filterMap_congr
  intro s _
  simp only [ShownByDefault, ← emptyName_iff]
  split_ifs <;> simp_all

end Tests

/-! ## The listing of a file -/

@[simp] lemma sortSymb_option (file : TFile) (order : ℤ) :
    (sortSymb file order).option = file.option := rfl

@[simp] lemma sortSymb_data (file : TFile) (order : ℤ) :
    (sortSymb file order).data = file.data := rfl

@[simp] lemma outputLine_sortSymb (file : TFile) (order : ℤ) :
    outputLine (sortSymb file order) = outputLine file := rfl

lemma undifinedSymbolsOnly_eq (file : TFile) :
    undifinedSymbolsOnly file =
      if file.option = .undefinedSymbolsOnly then
        (sortSymb file 1, ((storedSymb (sortSymb file 1)).filter fun s =>
          ShownUndefined file.data s).map (outputLine file))
      else (file, []) := by
  unfold undifinedSymbolsOnly
  dsimp only
  rw [filterMap_undefined, sortSymb_data, outputLine_sortSymb]

lemma displayAll_eq (file : TFile) :
    displayAll file =
      if file.option = .displayAll then
        (sortSymb file 1, ((storedSymb (sortSymb file 1)).filter fun s =>
          ShownByAll file.data s).map (outputLine file))
      else (file, []) := by
  unfold displayAll
  dsimp only
  rw [filterMap_all, sortSymb_data, outputLine_sortSymb]

lemma externalOnly_eq (file : TFile) :
    externalOnly file =
      if file.option = .externalOnly then
        (sortSymb file 1, ((storedSymb (sortSymb file 1)).filter fun s =>
          ShownExternal s).map (outputLine file))
      else (file, []) := by
  unfold externalOnly
  dsimp only
  rw [filterMap_external, outputLine_sortSymb]

lemma noFlag_eq (file : TFile) :
    noFlag file =
      if isInRange file.option.toInt 0 2 then
        ((storedSymb file).filter fun s => ShownByDefault file.data s).map (outputLine file)
      else [] := by
  unfold noFlag
  rw [filterMap_default]
  cases isInRange file.option.toInt 0 2 <;> rfl

/-- **The listing.**  The shown entries of the sorted array, a line each. -/
lemma lines_printSymboles (file : TFile) (nFiles : ℕ) :
    (printSymboles file nFiles).lines =
      ((storedSymb (sortSymb file (sortOrder file.option))).filter fun s =>
        Shown file.data file.option s).map (outputLine file) := by
  unfold printSymboles
  cases hoption : file.option <;>
    simp [undifinedSymbolsOnly_eq, displayAll_eq, externalOnly_eq, noFlag_eq, hoption,
      isInRange, EOption.toInt, sortOrder, Shown] <;> rfl

namespace MappedFile

variable (m : MappedFile)

/-- The line of an entry. -/
def line (s : TSymb) : Line := outputLine (TFile.parsed [] m .noSort) s

/-- The symbol array as `print_symboles` sorts it. -/
def sorted (order : ℤ) : List TSymb :=
  mergeSort m order m.syms.symb (toInt m.syms.nSymsCount).toNat

/-- The entries that get a line under an option, in the order of their lines. -/
def listing (option : EOption) : List TSymb :=
  (m.sorted (sortOrder option)).filter fun s => Shown m option s

/-- Every stored entry comes from an entry of the symbol table. -/
lemma mem_symb {s : TSymb} :
    s ∈ m.syms.symb ↔ ∃ i, m.symtabIndex = some i ∧ ∃ j < m.nSyms i, s = m.symbAt i j := by
  unfold syms
  cases m.symtabIndex with
  | none => simp [TSyms.zero]
  | some i => simp [symsOf, eq_comm]

lemma length_symb : m.syms.symb.length = m.syms.nSymsCount := by
  unfold syms
  cases m.symtabIndex <;> simp [symsOf, TSyms.zero]

lemma toNat_count_le : (toInt m.syms.nSymsCount).toNat ≤ m.syms.symb.length := by
  have hle := toInt_le m.syms.nSymsCount
  rw [length_symb]
  omega

lemma sorted_perm (order : ℤ) : (m.sorted order).Perm m.syms.symb :=
  mergeSort_perm m order _ _ m.toNat_count_le

/-- Below `2 ^ 31` symbols the count survives its conversion to `int`, and the whole array is
sorted. -/
lemma sorted_stable (order : ℤ) (h : m.syms.nSymsCount < 2 ^ 31) :
    StableSortOf (nameLe m order) m.syms.symb (m.sorted order) := by
  have hcount : (toInt m.syms.nSymsCount).toNat = m.syms.symb.length := by
    rw [toInt_of_lt h, length_symb, Int.toNat_natCast]
  rw [sorted, hcount]
  exact mergeSort_stable m order _

end MappedFile

/-- The file gets as far as the printing. -/
def Listed (malloc : ℕ → Bool) (m : MappedFile) : Prop :=
  HeaderOk m ∧ AllocOk malloc m ∧ m.shoff ≤ m.size

variable (m : MappedFile) (path : List UInt8) (option : EOption)

@[simp] lemma entry_line (s : TSymb) : (m.line s).entry = s := rfl

lemma map_entry_line (xs : List TSymb) : (xs.map m.line).map Line.entry = xs := by
  rw [List.map_map]
  exact List.map_id xs

lemma out_loadFile_listed {malloc : ℕ → Bool} {file : TFile} :
    (loadFile malloc (TFile.mapped path m option)).out = .ok file ↔
      Listed malloc m ∧ file = TFile.parsed path m option := by
  rw [out_loadFile_eq_ok, Listed, and_assoc, and_assoc]

lemma lines_parsed (nFiles : ℕ) :
    (printSymboles (TFile.parsed path m option) nFiles).lines =
      (m.listing option).map m.line := by
  have hstored : storedSymb (sortSymb (TFile.parsed path m option) (sortOrder option)) =
      m.sorted (sortOrder option) := by
    have hlength : (m.sorted (sortOrder option)).length = m.syms.nSymsCount := by
      rw [(m.sorted_perm _).length_eq, m.length_symb]
    exact List.take_of_length_le hlength.le
  rw [lines_printSymboles, TFile.parsed_option, TFile.parsed_data, hstored]
  rfl

lemma out_manageFile {malloc : ℕ → Bool} {nFiles : ℕ} {output : Output} :
    (manageFile malloc nFiles (TFile.mapped path m option)).out = .ok output ↔
      Listed malloc m ∧ output = printSymboles (TFile.parsed path m option) nFiles := by
  rw [manageFile, Run.out_bind_eq_ok]
  simp only [out_loadFile_listed, Run.out_pure, Except.ok.injEq]
  constructor
  · rintro ⟨file, ⟨hlisted, rfl⟩, rfl⟩
    exact ⟨hlisted, rfl⟩
  · rintro ⟨hlisted, rfl⟩
    exact ⟨_, ⟨hlisted, rfl⟩, rfl⟩

end FtNm
