import FtNm.Properties.Support.ParseSpec

/-!
# What the parser touches

The access half of the parser's specification.  `P` is any predicate on accesses; each function
of the parser gets one lemma that says when all of its accesses satisfy `P`, with the values
it branches on already in the terms of `Properties/Support/ParseSpec.lean`.  Bounds on byte
offsets and bounds on subscripts are both instances.

* `FieldOk P m base fld` and `ShdrOk P m i fld` are the leaves: a struct member and a member of
  a section header.
* `m.Scanned i` says that the loop over the section headers gets to `i`.
* `all_parseSymtab` and `all_parseHeaders` are the two halves of a parse, `all_parseFile` puts
  them together.
-/

namespace FtNm

open AccessLog

variable (P : Access → Prop) (m : MappedFile) (path : List UInt8) (option : EOption)

/-! ## Leaves -/

/-- Every byte of a struct member satisfies `P`. -/
def FieldOk (base : ℕ) (fld : Field) : Prop :=
  ∀ k < fld.width, P (.byte (wrap (base + fld.off + k)))

/-- Subscripting the section header table with `i` and reading a member satisfies `P`. -/
def ShdrOk (i : ℕ) (fld : Layout → Field) : Prop :=
  P (.shdr i) ∧ FieldOk P (m.shoff + m.layout.shentsize * i) (fld m.layout)

lemma forall_span (base : ℕ) (fld : Field) :
    (∀ a ∈ span (base + fld.off) fld.width, P a) ↔ FieldOk P base fld := by
  simp [span, FieldOk]

lemma all_readShdr (i : ℕ) (fld : Layout → Field) :
    (readShdr m.layout (TFile.headed path m option) i (fld m.layout)).All P ↔
      ShdrOk P m i fld := by
  unfold readShdr ShdrOk
  rw [Run.all_touch, List.forall_mem_cons, TFile.headed_shdr, forall_span]

/-- Sequencing after a struct member. -/
lemma all_readField_bind {α : Type} (base : ℕ) (fld : Field) (f : ℕ → Prog α) :
    (readField m base fld >>= f).All P ↔
      FieldOk P base fld ∧ (f (m.fieldAt base fld)).All P := by
  rw [readField, Run.all_touch_bind, forall_span]

/-- Sequencing after a member of a section header. -/
lemma all_readShdr_bind {α : Type} (i : ℕ) (fld : Layout → Field) (f : ℕ → Prog α) :
    (readShdr m.layout (TFile.headed path m option) i (fld m.layout) >>= f).All P ↔
      ShdrOk P m i fld ∧ (f (m.shdr i fld)).All P := by
  rw [Run.all_bind_of_ok P (out_readShdr m path option i fld), all_readShdr]

/-! ## One symbol -/

/-- The accesses of `get_symbol_section_char`. -/
lemma all_getSymbolSectionChar (sect : ℕ) :
    (getSymbolSectionChar (TFile.headed path m option) sect).All P ↔
      ShdrOk P m sect Layout.shType ∧ ShdrOk P m sect Layout.shFlags := by
  rw [getSymbolSectionChar, TFile.headed_layout,
    all_readShdr_bind P m path option sect Layout.shType,
    all_readShdr_bind P m path option sect Layout.shFlags]
  simp

/-- The accesses of `get_symb_based_on_section`. -/
lemma all_getSymbBasedOnSection (sect name : ℕ) :
    (getSymbBasedOnSection (TFile.headed path m option) sect name).All P ↔
      ShdrOk P m sect Layout.shFlags ∧
        (getSectionName m (m.shdr sect Layout.shFlags % 2 ^ 32) name).All P := by
  rw [getSymbBasedOnSection, TFile.headed_layout,
    all_readShdr_bind P m path option sect Layout.shFlags, TFile.headed_data,
    Run.all_bind_of_ok P (out_getSectionName m _ name)]
  simp

/-- The accesses of `determine_symb`: the first stage only looks at the entry, each of the
others has its own condition. -/
lemma all_determineSymb (symb : TSymb) :
    (determineSymb (TFile.headed path m option) symb).All P ↔
      (getSymbTypeAndVisibility symb = '?'.toUInt8 →
        ShdrOk P m symb.sectionTabIndex Layout.shType ∧
          ShdrOk P m symb.sectionTabIndex Layout.shFlags) ∧
      P (.byte (wrap symb.name)) ∧
      (DottedSection m symb → ShdrOk P m symb.sectionTabIndex Layout.shFlags ∧
        (getSectionName m (m.shdr symb.sectionTabIndex Layout.shFlags % 2 ^ 32)
          symb.name).All P) ∧
      (symb.binding = STB_LOCAL → (isNameMatch m symb.name).All P) := by
  rw [determineSymb, Run.all_bind_of_ok P (out_sectionStage m path option _ _), readByte,
    Run.all_touch_bind, Run.all_bind_of_ok P (out_nameStage m path option _ symb), Run.all_ite,
    all_getSymbolSectionChar, Run.all_ite, all_getSymbBasedOnSection, Run.all_ite,
    dottedSection_iff, TFile.headed_data, Run.all_bind_of_ok P (out_isNameMatch m symb.name)]
  simp

/-- The members of a symbol entry that the loop body reads, in its order. -/
def symFields : List (Layout → Field) :=
  [Layout.stName, Layout.stInfo, Layout.stOther, Layout.stSize, Layout.stValue, Layout.stShndx]

/-- Where entry `j` of the symbol table `i` starts. -/
def MappedFile.symBase (i j : ℕ) : ℕ := m.shdr i Layout.shOffset + m.layout.symentsize * j

/-- The accesses that fill in entry `j` of the symbol table `i`. -/
def SymbOk (i j : ℕ) : Prop :=
  (∀ fld ∈ symFields, FieldOk P (m.symBase i j) (fld m.layout)) ∧
  P (.byte (wrap (m.ownName i j))) ∧
  (m.text (m.ownName i j) = [] → FieldOk P 0 m.layout.eShnum) ∧
  (m.Unnamed i j → ShdrOk P m (m.sym i j Layout.stShndx) Layout.shName) ∧
  (determineSymb (TFile.headed path m option) (m.rawSymb i j)).All P

lemma all_nameSymb (i j : ℕ) :
    (nameSymb m (TFile.headed path m option) i j).All P ↔
      (m.text (m.ownName i j) = [] → FieldOk P 0 m.layout.eShnum) ∧
        (m.Unnamed i j → ShdrOk P m (m.sym i j Layout.stShndx) Layout.shName) := by
  rw [nameSymb, Run.all_ite, byteAt_toNat_eq_zero, TFile.headed_data, all_readField_bind,
    Run.all_ite, all_readShdr_bind P m path option _ Layout.shName]
  unfold MappedFile.Unnamed MappedFile.shnum
  simp only [Run.all_pure, and_true, implies_true]
  tauto

lemma all_readSymb (i j : ℕ) :
    (readSymb m.layout (TFile.headed path m option) m.stringTable (m.strtab i)
      (m.shdr i Layout.shOffset) j).All P ↔ SymbOk P m path option i j := by
  have hempty : (ftStrcmpLit m (m.ownName i j) []).out = .ok (m.byteAt (m.ownName i j)).toNat :=
    rfl
  have hread : (ftStrcmpLit m (m.ownName i j) []).All P ↔ P (.byte (wrap (m.ownName i j))) := by
    simp [ftStrcmpLit, readByte]
  unfold SymbOk symFields
  simp only [readSymb, TFile.headed_data, all_readField_bind, List.forall_mem_cons,
    List.not_mem_nil, false_imp_iff, implies_true, and_true, and_assoc]
  refine and_congr_right fun _ => and_congr_right fun _ => and_congr_right fun _ =>
    and_congr_right fun _ => and_congr_right fun _ => and_congr_right fun _ => ?_
  refine (Run.all_bind_of_ok P hempty _).trans (and_congr hread ?_)
  refine (Run.all_bind_of_ok P (out_nameSymb m path option i j) _).trans ?_
  rw [all_nameSymb, and_assoc, Run.all_bind_of_ok P (out_determineSymb m path option _)]
  simp

/-! ## The loops -/

/-- The loop over the symbol entries touches what its bodies touch. -/
lemma all_symbLoop {L : Layout} {file : TFile} {stringTable : ℕ} {f : ℕ → TSymb} (k j : ℕ)
    (syms : TSyms)
    (hread : ∀ j, (readSymb L file stringTable syms.strtab syms.symtab j).out = .ok (f j)) :
    (symbLoop L file stringTable k j syms).All P ↔
      ∀ j' ∈ List.range' j k,
        (readSymb L file stringTable syms.strtab syms.symtab j').All P := by
  induction k generalizing j syms with
  | zero => simp [symbLoop]
  | succ k ih =>
    rw [symbLoop, Run.all_bind_of_ok P (hread j), List.range'_succ, List.forall_mem_cons]
    exact and_congr_right fun _ => ih (j + 1) { syms with symb := _, nSymsCount := _ } hread

/-- The accesses for the symbol table `i`. -/
def TableOk (malloc : ℕ → Bool) (i : ℕ) : Prop :=
  ShdrOk P m i Layout.shSize ∧
  (malloc (mallocBytes (m.nSyms i)) = true →
    ShdrOk P m i Layout.shLink ∧
    ShdrOk P m (m.shdr i Layout.shLink) Layout.shOffset ∧
    ShdrOk P m (m.shdr i Layout.shLink) Layout.shSize ∧
    ShdrOk P m i Layout.shOffset ∧
    ∀ j < m.nSyms i, SymbOk P m path option i j)

lemma all_loadSymtab (malloc : ℕ → Bool) (i : ℕ) :
    (loadSymtab m.layout malloc (TFile.headed path m option) m.stringTable i).All P ↔
      TableOk P m path option malloc i := by
  let start : TSyms := { m.symsOf i with nSymsCount := 0, symb := .replicate (m.nSyms i) .zero }
  have hloop : (symbLoop m.layout (TFile.headed path m option) m.stringTable (m.nSyms i) 0
      start).All P ↔ ∀ j < m.nSyms i, SymbOk P m path option i j := by
    refine (all_symbLoop P (m.nSyms i) 0 start (out_readSymb m path option i)).trans ?_
    simp only [List.mem_range'_1, Nat.zero_le, true_and, Nat.zero_add]
    exact forall₂_congr fun j _ => all_readSymb P m path option i j
  unfold loadSymtab TableOk
  refine (all_readShdr_bind P m path option i Layout.shSize _).trans
    (and_congr_right fun _ => ?_)
  refine (Run.all_check_bind P _ _ _).trans (imp_congr_right fun _ => ?_)
  refine (all_readShdr_bind P m path option i Layout.shLink _).trans
    (and_congr_right fun _ => ?_)
  refine (all_readShdr_bind P m path option _ Layout.shOffset _).trans
    (and_congr_right fun _ => ?_)
  refine (all_readShdr_bind P m path option _ Layout.shSize _).trans
    (and_congr_right fun _ => ?_)
  exact (all_readShdr_bind P m path option i Layout.shOffset _).trans
    (and_congr_right fun _ => hloop)

/-- The loop over the section headers gets to `i`. -/
def MappedFile.Scanned (i : ℕ) : Prop :=
  i < m.shnum ∧ ∀ i' < i, m.shdr i' Layout.shType ≠ SHT_SYMTAB

/-- The loop over the section headers: it reads types up to the first symbol table, and then
does what that one takes. -/
lemma all_symtabLoop (malloc : ℕ → Bool) (k i : ℕ) :
    (symtabLoop m.layout malloc (TFile.headed path m option) m.stringTable k i).All P ↔
      (∀ i' < i + k, i ≤ i' → (∀ i'' < i', i ≤ i'' → m.shdr i'' Layout.shType ≠ SHT_SYMTAB) →
        ShdrOk P m i' Layout.shType) ∧
      ∀ i', ((List.range' i k).find? fun i => m.shdr i Layout.shType = SHT_SYMTAB) = some i' →
        TableOk P m path option malloc i' := by
  induction k generalizing i with
  | zero =>
    simp only [symtabLoop, Run.all_pure, List.range'_zero, List.find?_nil, reduceCtorEq,
      false_imp_iff, implies_true, and_true, true_iff]
    omega
  | succ k ih =>
    rw [symtabLoop, all_readShdr_bind P m path option i Layout.shType, Run.all_ite,
      all_loadSymtab, ih, List.range'_succ]
    by_cases h : m.shdr i Layout.shType = SHT_SYMTAB
    · rw [List.find?_cons_of_pos (by simpa using h)]
      constructor
      · rintro ⟨htype, htable, -⟩
        refine ⟨?_, fun i' hi' => Option.some.inj hi' ▸ htable h⟩
        intro i' _ hle hscan
        rcases Nat.eq_or_lt_of_le hle with rfl | hlt
        · exact htype
        · exact absurd h (hscan i hlt (Nat.le_refl i))
      · rintro ⟨htypes, htable⟩
        exact ⟨htypes i (by omega) (Nat.le_refl i) (by omega), fun _ => htable i rfl,
          fun hne => absurd h hne⟩
    · rw [List.find?_cons_of_neg (by simpa using h)]
      constructor
      · rintro ⟨htype, -, hrest⟩
        obtain ⟨htypes, htable⟩ := hrest h
        refine ⟨?_, htable⟩
        intro i' hlt hle hscan
        rcases Nat.eq_or_lt_of_le hle with rfl | hlt'
        · exact htype
        · exact htypes i' (by omega) hlt' fun i'' h'' hle'' => hscan i'' h'' (by omega)
      · rintro ⟨htypes, htable⟩
        refine ⟨htypes i (by omega) (Nat.le_refl i) (by omega), fun h' => absurd h' h,
          fun _ => ⟨fun i' hlt hle hscan => htypes i' (by omega) (by omega) ?_, htable⟩⟩
        intro i'' h'' hle''
        rcases Nat.eq_or_lt_of_le hle'' with rfl | hlt''
        · exact h
        · exact hscan i'' h'' hlt''

lemma all_parseSymtab (malloc : ℕ → Bool) :
    (parseSymtab m.layout malloc (TFile.headed path m option)).All P ↔
      FieldOk P 0 m.layout.eShstrndx ∧ ShdrOk P m m.shstrndx Layout.shOffset ∧
      FieldOk P 0 m.layout.eShnum ∧ (∀ i, m.Scanned i → ShdrOk P m i Layout.shType) ∧
      ∀ i, m.symtabIndex = some i → TableOk P m path option malloc i := by
  have hloop : (symtabLoop m.layout malloc (TFile.headed path m option) m.stringTable m.shnum
      0).All P ↔ (∀ i, m.Scanned i → ShdrOk P m i Layout.shType) ∧
        ∀ i, m.symtabIndex = some i → TableOk P m path option malloc i := by
    rw [all_symtabLoop]
    simp [MappedFile.Scanned, MappedFile.symtabIndex]
  unfold parseSymtab
  refine (all_readField_bind P m 0 m.layout.eShstrndx _).trans (and_congr_right fun _ => ?_)
  refine (all_readShdr_bind P m path option m.shstrndx Layout.shOffset _).trans
    (and_congr_right fun _ => ?_)
  refine (all_readField_bind P m 0 m.layout.eShnum _).trans (and_congr_right fun _ => ?_)
  rw [← hloop, Run.all_bind]
  simp only [Run.all_pure, implies_true, and_true]
  rfl

/-! ## The headers -/

/-- The accesses of the comparison of the bytes from `p` on with `magic`. -/
def MagicOk : ℕ → List UInt8 → Prop
  | _, [] => True
  | p, c :: cs => P (.byte (wrap p)) ∧ (m.byteAt p = c → MagicOk (p + 1) cs)

lemma all_checkMagic (p : ℕ) (magic : List UInt8) :
    (checkMagic m p magic).All P ↔ MagicOk P m p magic := by
  induction magic generalizing p with
  | nil => simp [checkMagic, MagicOk]
  | cons c cs ih =>
    rw [checkMagic, readByte, Run.all_touch_bind, Run.all_check_bind, ih, MagicOk]
    simp

/-- The accesses of `parse_ehdr` and `parse_shdr`, check after check. -/
structure HeadersOk : Prop where
  magic : MagicOk P m 0 ELFMAG
  eiClass : HasMagic m 0 ELFMAG → P (.byte 4)
  eiData : HasMagic m 0 ELFMAG → m.ClassOk → P (.byte 5)
  type : HasMagic m 0 ELFMAG → m.ClassOk → m.DataOk → FieldOk P 0 eType
  shoff : HasMagic m 0 ELFMAG → m.ClassOk → m.DataOk → m.TypeOk → FieldOk P 0 m.layout.eShoff
  shnum : HasMagic m 0 ELFMAG → m.ClassOk → m.DataOk → m.TypeOk → m.shoff ≠ 0 →
    FieldOk P 0 m.layout.eShnum

lemma all_parseEhdr :
    (parseEhdr (TFile.mapped path m option)).All P ↔
      MagicOk P m 0 ELFMAG ∧ (HasMagic m 0 ELFMAG → P (.byte 4) ∧ (m.ClassOk → P (.byte 5) ∧
        (m.DataOk → FieldOk P 0 eType ∧ (m.TypeOk → FieldOk P 0 m.layout.eShoff)))) := by
  unfold parseEhdr
  refine (Run.all_bind P (checkMagic m 0 ELFMAG) _).trans ?_
  rw [all_checkMagic, out_checkMagic]
  refine and_congr_right fun _ => ?_
  have hmagic : ∀ u : Unit, (if HasMagic m 0 ELFMAG then (.ok () : Except Exit Unit)
      else .error .invalidMagic) = .ok u ↔ HasMagic m 0 ELFMAG := by
    intro u
    split_ifs with h <;> simp [h]
  simp only [hmagic, forall_const, readByte, Run.all_touch_bind, List.forall_mem_singleton,
    Run.all_check_bind, all_readField_bind, Run.all_pure]
  show (_ → P (.byte 4) ∧ (m.ClassOk → P (.byte 5) ∧ (m.DataOk → FieldOk P 0 eType ∧
    (m.TypeOk → FieldOk P 0 m.layout.eShoff ∧ (_ → True))))) ↔ _
  simp only [implies_true, and_true]

lemma all_parseShdr :
    (parseShdr { TFile.mapped path m option with is64 := m.is64 }).All P ↔
      FieldOk P 0 m.layout.eShoff ∧ FieldOk P 0 m.layout.eShnum := by
  unfold parseShdr
  refine (all_readField_bind P m 0 m.layout.eShoff _).trans (and_congr_right fun _ => ?_)
  refine (all_readField_bind P m 0 m.layout.eShnum _).trans ?_
  simp

lemma all_parseHeaders :
    (parseEhdr (TFile.mapped path m option) >>= parseShdr).All P ↔ HeadersOk P m := by
  have hout : ∀ file, (parseEhdr (TFile.mapped path m option)).out = .ok file ↔
      (HasMagic m 0 ELFMAG ∧ m.ClassOk ∧ m.DataOk ∧ m.TypeOk ∧ m.shoff ≠ 0) ∧
        file = { TFile.mapped path m option with is64 := m.is64 } := by
    intro file
    rw [out_parseEhdr]
    unfold MappedFile.ehdrExit
    split_ifs <;> simp_all [@eq_comm _ file]
  rw [Run.all_bind, all_parseEhdr]
  simp only [hout, and_imp]
  constructor
  · rintro ⟨⟨hmagic, hchecks⟩, hshdr⟩
    exact {
      magic := hmagic
      eiClass := fun h => (hchecks h).1
      eiData := fun h h4 => ((hchecks h).2 h4).1
      type := fun h h4 h5 => (((hchecks h).2 h4).2 h5).1
      shoff := fun h h4 h5 ht => (((hchecks h).2 h4).2 h5).2 ht
      shnum := fun h h4 h5 ht h0 =>
        ((all_parseShdr P m path option).mp (hshdr _ h h4 h5 ht h0 rfl)).2 }
  · intro h
    refine ⟨⟨h.magic, fun hm => ⟨h.eiClass hm, fun h4 => ⟨h.eiData hm h4, fun h5 =>
      ⟨h.type hm h4 h5, h.shoff hm h4 h5⟩⟩⟩⟩, ?_⟩
    rintro file hm h4 h5 ht h0 rfl
    exact (all_parseShdr P m path option).mpr ⟨h.shoff hm h4 h5 ht, h.shnum hm h4 h5 ht h0⟩

/-! ## The whole parse -/

lemma all_parseFile (malloc : ℕ → Bool) :
    (parseFile malloc (TFile.mapped path m option)).All P ↔
      HeadersOk P m ∧ (HeaderOk m →
        FieldOk P 0 m.layout.eShstrndx ∧ ShdrOk P m m.shstrndx Layout.shOffset ∧
        FieldOk P 0 m.layout.eShnum ∧ (∀ i, m.Scanned i → ShdrOk P m i Layout.shType) ∧
        ∀ i, m.symtabIndex = some i → TableOk P m path option malloc i) := by
  rw [parseFile_eq, Run.all_bind, all_parseHeaders]
  refine and_congr_right fun _ => ?_
  rw [out_parseHeaders]
  unfold HeaderOk
  cases m.headerExit with
  | some e => simp
  | none => simp [← all_parseSymtab P m path option malloc]

end FtNm
