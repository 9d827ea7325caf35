import FtNm.Construction.ManageELF
import FtNm.Properties.Support.NameReading

/-!
# What the parser computes

One specification lemma for each function of the parser, in terms of plain functions of the
mapped bytes.  Callers below cite these and never unfold the parser again.

* `m.shdr i fld` and `m.sym i j fld` are the members of section header `i` and of entry `j` of
  the symbol table `i`.  They do not fail: a byte outside the mapping is `0`.
* `m.headerExit` is the exit that `parse_ehdr` and `parse_shdr` take, if any.
* `m.symbAt i j` is the entry that the loop stores for `j`, with the letter that
  `determine_symb` gives it (`letterOf`).
* `m.syms` is the symbol array, and `TFile.parsed` the whole file, at the end of the parse.

`out_parseFile_eq_ok` and `out_loadFile_eq_ok` say which files get there.
-/

namespace FtNm

open AccessLog

/-! ## The file as a table of numbers -/

namespace MappedFile

variable (m : MappedFile)

/-- The class that the parser settles on. -/
def is64 : Bool := decide (m.byteAt 4 ≠ ELFCLASS32)

/-- The structs of that class. -/
def layout : Layout := if m.is64 then elf64 else elf32

def shoff : ℕ := m.fieldAt 0 m.layout.eShoff

def shnum : ℕ := m.fieldAt 0 m.layout.eShnum

def shstrndx : ℕ := m.fieldAt 0 m.layout.eShstrndx

/-- A member of section header `i`. -/
def shdr (i : ℕ) (fld : Layout → Field) : ℕ :=
  m.fieldAt (m.shoff + m.layout.shentsize * i) (fld m.layout)

/-- Where the section names start. -/
def stringTable : ℕ := m.shdr m.shstrndx Layout.shOffset

/-- The section that the parser takes for the symbol table: the first of its type. -/
def symtabIndex : Option ℕ :=
  (List.range' 0 m.shnum).find? fun i => m.shdr i Layout.shType = SHT_SYMTAB

/-- The number of entries of the symbol table `i`. -/
def nSyms (i : ℕ) : ℕ := m.shdr i Layout.shSize / m.layout.symentsize

/-- Where the names of the symbol table `i` start. -/
def strtab (i : ℕ) : ℕ := m.shdr (m.shdr i Layout.shLink) Layout.shOffset

/-- A member of entry `j` of the symbol table `i`. -/
def sym (i j : ℕ) (fld : Layout → Field) : ℕ :=
  m.fieldAt (m.shdr i Layout.shOffset + m.layout.symentsize * j) (fld m.layout)

/-- Where the symbol's own name starts. -/
def ownName (i j : ℕ) : ℕ := m.strtab i + m.sym i j Layout.stName

/-- The symbol carries its section's name. -/
def Unnamed (i j : ℕ) : Prop :=
  m.text (m.ownName i j) = [] ∧ m.sym i j Layout.stShndx < m.shnum

instance (i j : ℕ) : Decidable (m.Unnamed i j) :=
  inferInstanceAs (Decidable (_ ∧ _))

end MappedFile

/-! ## Letters -/

/-- The letter of an entry before it is folded to lower case, from the type and the flags of
its section and the bytes of its name. -/
def stageLetter (symb : TSymb) (shType shFlags : ℕ) (name : List UInt8) : UInt8 :=
  let c := getSymbTypeAndVisibility symb
  let c := if c = '?'.toUInt8 then sectionChar shType (shFlags % 2 ^ 32) else c
  let c :=
    if name.head? = some '.'.toUInt8 ∧ symb.shType ≠ SHT_SYMTAB then
      codeChar (sectionCode (shFlags % 2 ^ 32) name)
    else c
  if c = '?'.toUInt8 then 'T'.toUInt8 else c

/-- `determine_symb` as a function of the same data. -/
def letterOf (symb : TSymb) (shType shFlags : ℕ) (name : List UInt8) : UInt8 :=
  let c := stageLetter symb shType shFlags name
  if symb.binding = STB_LOCAL ∧ name ∉ debugNames.map cstr then toLower c else c

namespace MappedFile

variable (m : MappedFile)

/-- The letter of an entry whose other fields are filled in. -/
def letter (symb : TSymb) : UInt8 :=
  letterOf symb (m.shdr symb.sectionTabIndex Layout.shType)
    (m.shdr symb.sectionTabIndex Layout.shFlags) (m.text symb.name)

/-- Entry `j` under its own name. -/
def namedSymb (i j : ℕ) : TSymb where
  name := m.ownName i j
  size := m.sym i j Layout.stSize
  value := m.sym i j Layout.stValue
  sectionTabIndex := m.sym i j Layout.stShndx
  type := m.sym i j Layout.stInfo &&& 0xf
  binding := m.sym i j Layout.stInfo >>> 4
  visibility := m.sym i j Layout.stOther &&& 0x3
  typeChar := 0
  shType := SHT_SYMTAB

/-- Entry `j` before its letter is determined. -/
def rawSymb (i j : ℕ) : TSymb :=
  if m.Unnamed i j then
    { m.namedSymb i j with
      name := m.stringTable + m.shdr (m.sym i j Layout.stShndx) Layout.shName
      shType := SECTION_NAME }
  else m.namedSymb i j

@[simp] lemma rawSymb_sectionTabIndex (i j : ℕ) :
    (m.rawSymb i j).sectionTabIndex = m.sym i j Layout.stShndx := by
  unfold rawSymb
  split_ifs <;> rfl

@[simp] lemma rawSymb_value (i j : ℕ) :
    (m.rawSymb i j).value = m.sym i j Layout.stValue := by
  unfold rawSymb
  split_ifs <;> rfl

@[simp] lemma rawSymb_type (i j : ℕ) :
    (m.rawSymb i j).type = m.sym i j Layout.stInfo &&& 0xf := by
  unfold rawSymb
  split_ifs <;> rfl

@[simp] lemma rawSymb_visibility (i j : ℕ) :
    (m.rawSymb i j).visibility = m.sym i j Layout.stOther &&& 0x3 := by
  unfold rawSymb
  split_ifs <;> rfl

@[simp] lemma rawSymb_binding (i j : ℕ) :
    (m.rawSymb i j).binding = m.sym i j Layout.stInfo >>> 4 := by
  unfold rawSymb
  split_ifs <;> rfl

/-- The entry that the parser stores for `j`. -/
def symbAt (i j : ℕ) : TSymb :=
  { m.rawSymb i j with typeChar := m.letter (m.rawSymb i j) }

@[simp] lemma symbAt_name (i j : ℕ) : (m.symbAt i j).name = (m.rawSymb i j).name := rfl

@[simp] lemma symbAt_value (i j : ℕ) : (m.symbAt i j).value = m.sym i j Layout.stValue :=
  m.rawSymb_value i j

@[simp] lemma symbAt_binding (i j : ℕ) :
    (m.symbAt i j).binding = m.sym i j Layout.stInfo >>> 4 := m.rawSymb_binding i j

@[simp] lemma symbAt_sectionTabIndex (i j : ℕ) :
    (m.symbAt i j).sectionTabIndex = m.sym i j Layout.stShndx := m.rawSymb_sectionTabIndex i j

@[simp] lemma symbAt_shType (i j : ℕ) : (m.symbAt i j).shType = (m.rawSymb i j).shType := rfl

@[simp] lemma symbAt_typeChar (i j : ℕ) :
    (m.symbAt i j).typeChar = m.letter (m.rawSymb i j) := rfl

lemma rawSymb_of_not_unnamed {i j : ℕ} (h : ¬m.Unnamed i j) :
    m.rawSymb i j = m.namedSymb i j := if_neg h

lemma rawSymb_name_of_not_unnamed {i j : ℕ} (h : ¬m.Unnamed i j) :
    (m.rawSymb i j).name = m.ownName i j := by
  rw [m.rawSymb_of_not_unnamed h]
  rfl

/-- The mark that an entry carries its section's name. -/
lemma rawSymb_shType_eq (i j : ℕ) : (m.rawSymb i j).shType = SHT_SYMTAB ↔ ¬m.Unnamed i j := by
  unfold rawSymb
  split_ifs with h
  · simp [h, SECTION_NAME, SHT_SYMTAB]
  · simp [h, namedSymb]

/-- The result of parsing the symbol table `i`. -/
def symsOf (i : ℕ) : TSyms where
  nSyms := m.nSyms i
  nSymsCount := m.nSyms i
  symtab := m.shdr i Layout.shOffset
  symtabSize := m.shdr i Layout.shSize
  strtab := m.strtab i
  strtabSize := m.shdr (m.shdr i Layout.shLink) Layout.shSize
  symb := (List.range' 0 (m.nSyms i)).map (m.symbAt i)

/-- The symbols of the file; a file without a symbol table has none. -/
def syms : TSyms :=
  match m.symtabIndex with
  | some i => m.symsOf i
  | none => .zero

end MappedFile

/-- The file with its headers parsed. -/
def TFile.headed (path : List UInt8) (m : MappedFile) (option : EOption) : TFile :=
  { TFile.mapped path m option with is64 := m.is64, shdr := m.shoff }

/-- The file with its symbols parsed. -/
def TFile.parsed (path : List UInt8) (m : MappedFile) (option : EOption) : TFile :=
  { TFile.headed path m option with syms := m.syms }

@[simp] lemma TFile.headed_data (path : List UInt8) (m : MappedFile) (option : EOption) :
    (TFile.headed path m option).data = m := rfl

@[simp] lemma TFile.headed_shdr (path : List UInt8) (m : MappedFile) (option : EOption) :
    (TFile.headed path m option).shdr = m.shoff := rfl

@[simp] lemma TFile.headed_layout (path : List UInt8) (m : MappedFile) (option : EOption) :
    (TFile.headed path m option).layout = m.layout := rfl

@[simp] lemma TFile.parsed_data (path : List UInt8) (m : MappedFile) (option : EOption) :
    (TFile.parsed path m option).data = m := rfl

@[simp] lemma TFile.parsed_syms (path : List UInt8) (m : MappedFile) (option : EOption) :
    (TFile.parsed path m option).syms = m.syms := rfl

@[simp] lemma TFile.parsed_option (path : List UInt8) (m : MappedFile) (option : EOption) :
    (TFile.parsed path m option).option = option := rfl

variable (m : MappedFile) (path : List UInt8) (option : EOption)

/-! ## Specifications of the steps -/

lemma out_readShdr (i : ℕ) (fld : Layout → Field) :
    (readShdr m.layout (TFile.headed path m option) i (fld m.layout)).out = .ok (m.shdr i fld) :=
  rfl

/-- The second stage of `determine_symb`. -/
lemma out_sectionStage (c : UInt8) (sect : ℕ) :
    ((if c = '?'.toUInt8 then getSymbolSectionChar (TFile.headed path m option) sect
      else pure c) : Prog UInt8).out =
        .ok (if c = '?'.toUInt8 then
          sectionChar (m.shdr sect Layout.shType) (m.shdr sect Layout.shFlags % 2 ^ 32)
        else c) := by
  split_ifs <;> rfl

/-- The name of the entry starts with a dot, and it is its section's. -/
def DottedSection (symb : TSymb) : Prop :=
  (m.text symb.name).head? = some '.'.toUInt8 ∧ symb.shType ≠ SHT_SYMTAB

instance (symb : TSymb) : Decidable (DottedSection m symb) :=
  inferInstanceAs (Decidable (_ ∧ _))

lemma dottedSection_iff (symb : TSymb) :
    (TFile.headed path m option).data.byteAt symb.name = '.'.toUInt8 ∧
      symb.shType ≠ SHT_SYMTAB ↔ DottedSection m symb :=
  and_congr_left' (m.head?_text (by decide)).symm

/-- The third stage of `determine_symb`. -/
lemma out_nameStage (c : UInt8) (symb : TSymb) :
    ((if (TFile.headed path m option).data.byteAt symb.name = '.'.toUInt8 ∧
          symb.shType ≠ SHT_SYMTAB then
        getSymbBasedOnSection (TFile.headed path m option) symb.sectionTabIndex symb.name
      else pure c) : Prog UInt8).out =
        .ok (if DottedSection m symb then
          codeChar (sectionCode (m.shdr symb.sectionTabIndex Layout.shFlags % 2 ^ 32)
            (m.text symb.name))
        else c) := by
  by_cases h : DottedSection m symb
  · rw [if_pos ((dottedSection_iff m path option symb).mpr h), if_pos h]
    exact Run.out_bind_of_ok (out_getSectionName m _ _) _
  · rw [if_neg (mt (dottedSection_iff m path option symb).mp h), if_neg h]
    rfl

lemma out_determineSymb (symb : TSymb) :
    (determineSymb (TFile.headed path m option) symb).out = .ok (m.letter symb) := by
  let shType := m.shdr symb.sectionTabIndex Layout.shType
  let shFlags := m.shdr symb.sectionTabIndex Layout.shFlags
  let name := m.text symb.name
  rw [determineSymb, Run.out_bind_of_ok (out_sectionStage m path option _ _), readByte,
    Run.out_touch_bind, Run.out_bind_of_ok (out_nameStage m path option _ symb)]
  show Run.out (if symb.binding = STB_LOCAL then isNameMatch m symb.name >>= fun debug =>
      pure (if debug then stageLetter symb shType shFlags name
        else toLower (stageLetter symb shType shFlags name))
    else pure (stageLetter symb shType shFlags name)) = .ok (letterOf symb shType shFlags name)
  rw [letterOf]
  by_cases hlocal : symb.binding = STB_LOCAL
  · rw [if_pos hlocal, Run.out_bind_of_ok (out_isNameMatch m symb.name), Run.out_pure]
    by_cases hdebug : m.text symb.name ∈ debugNames.map cstr
    · rw [if_pos (decide_eq_true hdebug), if_neg fun h => h.2 hdebug]
    · rw [if_neg (by simpa using hdebug), if_pos ⟨hlocal, hdebug⟩]
  · rw [if_neg hlocal, if_neg fun h => hlocal h.1, Run.out_pure]

/-- Comparing a name with the empty string, as the parser does it. -/
lemma byteAt_toNat_eq_zero (p : ℕ) : ((m.byteAt p).toNat : ℤ) = 0 ↔ m.text p = [] := by
  rw [m.text_eq_nil_iff, ← UInt8.toNat_inj]
  simp

/-- The block that gives an unnamed symbol its section's name. -/
def nameSymb (m : MappedFile) (file : TFile) (i j : ℕ) : Prog TSymb :=
  if ((m.byteAt (m.ownName i j)).toNat : ℤ) = 0 then do
    let shnum ← readField file.data 0 m.layout.eShnum
    if m.sym i j Layout.stShndx < shnum then do
      let shName ← readShdr m.layout file (m.sym i j Layout.stShndx) m.layout.shName
      pure { m.namedSymb i j with name := m.stringTable + shName, shType := SECTION_NAME }
    else pure (m.namedSymb i j)
  else pure (m.namedSymb i j)

lemma out_nameSymb (i j : ℕ) :
    (nameSymb m (TFile.headed path m option) i j).out = .ok (m.rawSymb i j) := by
  have hblock : (nameSymb m (TFile.headed path m option) i j).out =
      if ((m.byteAt (m.ownName i j)).toNat : ℤ) = 0 then
        if m.sym i j Layout.stShndx < m.shnum then .ok { m.namedSymb i j with
          name := m.stringTable + m.shdr (m.sym i j Layout.stShndx) Layout.shName
          shType := SECTION_NAME }
        else .ok (m.namedSymb i j)
      else .ok (m.namedSymb i j) := by
    simp only [nameSymb, Run.out_ite, readField, Run.out_touch_bind, Run.out_pure]
    rfl
  rw [hblock, MappedFile.rawSymb, if_congr (byteAt_toNat_eq_zero m _) rfl rfl, ← ite_and]
  exact (apply_ite Except.ok (m.Unnamed i j) _ _).symm

lemma out_readSymb (i j : ℕ) :
    (readSymb m.layout (TFile.headed path m option) m.stringTable (m.strtab i)
      (m.shdr i Layout.shOffset) j).out = .ok (m.symbAt i j) := by
  have hempty : (ftStrcmpLit m (m.ownName i j) []).out = .ok (m.byteAt (m.ownName i j)).toNat :=
    rfl
  simp only [readSymb, readField, Run.out_touch_bind]
  refine (Run.out_bind_of_ok hempty _).trans ?_
  refine (Run.out_bind_of_ok (out_nameSymb m path option i j) _).trans ?_
  exact Run.out_bind_of_ok (out_determineSymb m path option (m.rawSymb i j)) _

/-- Storing at the end of the slots that are filled already. -/
lemma take_set_append {α : Type} (array : List α) (k : ℕ) (a : α) (h : k < array.length) :
    (array.set k a).take (k + 1) = array.take k ++ [a] := by
  rw [List.take_succ_eq_append_getElem (by simpa using h), List.take_set_of_le (Nat.le_refl k),
    List.getElem_set_self]

/-- The loop over the symbol entries.  With the entries below `j` stored and counted, storing
`symb[j]` and copying it to `symb[n_syms_count]` write the same slot; `f` is what the entries
are read as. -/
lemma out_symbLoop {L : Layout} {file : TFile} {stringTable : ℕ} {f : ℕ → TSymb} (k j : ℕ)
    (syms : TSyms)
    (hread : ∀ j, (readSymb L file stringTable syms.strtab syms.symtab j).out = .ok (f j))
    (hcount : syms.nSymsCount = j) (hlength : syms.symb.length = j + k) :
    (symbLoop L file stringTable k j syms).out = .ok
      { syms with
        nSymsCount := j + k
        symb := syms.symb.take j ++ (List.range' j k).map f } := by
  induction k generalizing j syms with
  | zero =>
    subst hcount
    have htake : syms.symb.take syms.nSymsCount = syms.symb := List.take_of_length_le (by omega)
    simp [symbLoop, htake]
  | succ k ih =>
    have hset : ((syms.symb.set j (f j)).set syms.nSymsCount
        ((syms.symb.set j (f j)).getD j .zero)) = syms.symb.set j (f j) := by
      have hj : j < syms.symb.length := by omega
      rw [hcount, List.getD_eq_getElem _ _ (by simpa using hj)]
      simp
    have htake : (syms.symb.set j (f j)).take (j + 1) = syms.symb.take j ++ [f j] :=
      take_set_append _ _ _ (by omega)
    rw [symbLoop, Run.out_bind_of_ok (hread j)]
    dsimp only
    rw [hset]
    refine (ih (j + 1) { syms with symb := syms.symb.set j (f j), nSymsCount := _ } hread
      (congrArg (· + 1) hcount) ?_).trans ?_
    · rw [List.length_set, hlength]
      omega
    · rw [htake, List.range'_succ, List.map_cons, List.append_assoc, List.singleton_append,
        Nat.add_right_comm, Nat.add_assoc]

lemma out_loadSymtab (malloc : ℕ → Bool) (i : ℕ) :
    (loadSymtab m.layout malloc (TFile.headed path m option) m.stringTable i).out =
      if malloc (mallocBytes (m.nSyms i)) then .ok (m.symsOf i) else .error .allocFailed := by
  let start : TSyms := { m.symsOf i with nSymsCount := 0, symb := .replicate (m.nSyms i) .zero }
  have hloop : (symbLoop m.layout (TFile.headed path m option) m.stringTable (m.nSyms i) 0
      start).out = .ok (m.symsOf i) := by
    rw [out_symbLoop (m.nSyms i) 0 start (out_readSymb m path option i) rfl (by simp [start])]
    simp [start, MappedFile.symsOf]
  rw [loadSymtab, Run.out_bind_of_ok (out_readShdr m path option i Layout.shSize),
    Run.out_check_bind]
  exact if_congr Iff.rfl hloop rfl

/-- The loop over the section headers stops at the first symbol table. -/
lemma out_symtabLoop (malloc : ℕ → Bool) (k i : ℕ) :
    (symtabLoop m.layout malloc (TFile.headed path m option) m.stringTable k i).out =
      match (List.range' i k).find? fun i => m.shdr i Layout.shType = SHT_SYMTAB with
      | some i =>
        if malloc (mallocBytes (m.nSyms i)) then .ok (m.symsOf i) else .error .allocFailed
      | none => .ok .zero := by
  induction k generalizing i with
  | zero => rfl
  | succ k ih =>
    rw [symtabLoop, Run.out_bind_of_ok (out_readShdr m path option i Layout.shType), Run.out_ite,
      List.range'_succ]
    by_cases h : m.shdr i Layout.shType = SHT_SYMTAB
    · rw [if_pos h, List.find?_cons_of_pos (by simpa using h)]
      exact out_loadSymtab m path option malloc i
    · rw [if_neg h, List.find?_cons_of_neg (by simpa using h)]
      exact ih (i + 1)

/-- The allocation for the symbol table, if there is one, succeeds. -/
def AllocOk (malloc : ℕ → Bool) (m : MappedFile) : Prop :=
  ∀ i, m.symtabIndex = some i → malloc (mallocBytes (m.nSyms i)) = true

lemma out_parseSymtab (malloc : ℕ → Bool) :
    (parseSymtab m.layout malloc (TFile.headed path m option)).out =
      match m.symtabIndex with
      | some i =>
        if malloc (mallocBytes (m.nSyms i)) then .ok (TFile.parsed path m option)
        else .error .allocFailed
      | none => .ok (TFile.parsed path m option) := by
  show (symtabLoop m.layout malloc (TFile.headed path m option) m.stringTable m.shnum 0 >>=
    fun syms => pure { TFile.headed path m option with syms := syms }).out = _
  rw [Run.out_bind, out_symtabLoop m path option malloc m.shnum 0]
  unfold TFile.parsed MappedFile.syms MappedFile.symtabIndex
  cases (List.range' 0 m.shnum).find? fun i => m.shdr i Layout.shType = SHT_SYMTAB with
  | some i => cases h : malloc (mallocBytes (m.nSyms i)) <;> simp [h]
  | none => rfl

/-! ## The headers -/

/-- The bytes from `p` on are `magic`. -/
def HasMagic (m : MappedFile) (p : ℕ) (magic : List UInt8) : Prop :=
  (List.range' p magic.length).map m.byteAt = magic

instance (m : MappedFile) (p : ℕ) (magic : List UInt8) : Decidable (HasMagic m p magic) :=
  inferInstanceAs (Decidable (_ = _))

lemma hasMagic_cons (p : ℕ) (c : UInt8) (cs : List UInt8) :
    HasMagic m p (c :: cs) ↔ m.byteAt p = c ∧ HasMagic m (p + 1) cs := by
  simp [HasMagic, List.range'_succ]

lemma out_checkMagic (p : ℕ) (magic : List UInt8) :
    (checkMagic m p magic).out =
      if HasMagic m p magic then .ok () else .error .invalidMagic := by
  induction magic generalizing p with
  | nil => simp [checkMagic, HasMagic]
  | cons c cs ih =>
    rw [checkMagic, readByte, Run.out_touch_bind, Run.out_check_bind, ih,
      if_congr (hasMagic_cons m p c cs) rfl rfl, ite_and]

namespace MappedFile

abbrev ClassOk : Prop := m.byteAt 4 = ELFCLASS32 ∨ m.byteAt 4 = ELFCLASS64

abbrev DataOk : Prop := m.byteAt 5 = ELFDATA2LSB ∨ m.byteAt 5 = ELFDATA2MSB

abbrev TypeOk : Prop := m.fieldAt 0 eType ∈ acceptedTypes

/-- The exit that `parse_ehdr` takes on a file, in the order of its checks. -/
def ehdrExit : Option Exit :=
  if ¬HasMagic m 0 ELFMAG then some .invalidMagic
  else if ¬m.ClassOk then some .invalidClass
  else if ¬m.DataOk then some .invalidData
  else if ¬m.TypeOk then some .invalidType
  else if m.shoff = 0 then some .noSectionTable
  else none

/-- The exit that `parse_ehdr` or `parse_shdr` takes on a file. -/
def headerExit : Option Exit :=
  m.ehdrExit.or (if m.shnum = 0 then some .noSectionTable else none)

end MappedFile

lemma out_parseEhdr :
    (parseEhdr (TFile.mapped path m option)).out = match m.ehdrExit with
      | some e => .error e
      | none => .ok { TFile.mapped path m option with is64 := m.is64 } := by
  unfold MappedFile.ehdrExit
  by_cases hmagic : HasMagic m 0 ELFMAG
  · have hcheck : (checkMagic m 0 ELFMAG).out = .ok () := by rw [out_checkMagic, if_pos hmagic]
    rw [parseEhdr, if_neg (not_not.mpr hmagic)]
    refine (Run.out_bind_of_ok hcheck _).trans ?_
    simp only [readByte, readField, Run.out_touch_bind, Run.out_check_bind]
    show (if m.ClassOk then if m.DataOk then if m.TypeOk then if m.shoff ≠ 0 then _ else _
      else _ else _ else _ : Except Exit TFile) = _
    split_ifs <;> first | rfl | contradiction
  · have hcheck : (checkMagic m 0 ELFMAG).out = .error .invalidMagic := by
      rw [out_checkMagic, if_neg hmagic]
    rw [parseEhdr, if_pos hmagic]
    exact Run.out_bind_of_error hcheck _

lemma out_parseHeaders :
    (parseEhdr (TFile.mapped path m option) >>= parseShdr).out = match m.headerExit with
      | some e => .error e
      | none => .ok (TFile.headed path m option) := by
  unfold MappedFile.headerExit
  rw [Run.out_bind, out_parseEhdr]
  cases hexit : m.ehdrExit with
  | some e => rfl
  | none =>
    have hshoff : m.shoff ≠ 0 := by
      intro h
      simp only [MappedFile.ehdrExit, h, if_true] at hexit
      split_ifs at hexit
    simp only [parseShdr, readField, Run.out_touch_bind, Run.out_check_bind, Option.none_or]
    show (if m.shoff ≠ 0 ∧ m.shnum ≠ 0 then .ok (TFile.headed path m option) else _ :
      Except Exit TFile) = _
    by_cases hshnum : m.shnum = 0
    · rw [if_neg fun h => h.2 hshnum, if_pos hshnum]
    · rw [if_pos ⟨hshoff, hshnum⟩, if_neg hshnum]

/-- The file passes `parse_ehdr` and `parse_shdr`. -/
def HeaderOk (m : MappedFile) : Prop := m.headerExit = none

instance (m : MappedFile) : Decidable (HeaderOk m) :=
  inferInstanceAs (Decidable (_ = _))

lemma headerOk_iff :
    HeaderOk m ↔ HasMagic m 0 ELFMAG ∧ m.ClassOk ∧ m.DataOk ∧ m.TypeOk ∧ m.shoff ≠ 0 ∧
      m.shnum ≠ 0 := by
  unfold HeaderOk MappedFile.headerExit MappedFile.ehdrExit
  split_ifs <;> simp [*]

lemma HeaderOk.shnum_pos {m : MappedFile} (h : HeaderOk m) : 0 < m.shnum :=
  Nat.pos_of_ne_zero ((headerOk_iff m).mp h).2.2.2.2.2

lemma out_parseHeaders_eq_ok {file : TFile} :
    (parseEhdr (TFile.mapped path m option) >>= parseShdr).out = .ok file ↔
      HeaderOk m ∧ file = TFile.headed path m option := by
  rw [out_parseHeaders]
  unfold HeaderOk
  cases m.headerExit <;> simp [@eq_comm _ file]

/-! ## The whole parse -/

lemma parseFile_eq (malloc : ℕ → Bool) (file : TFile) :
    parseFile malloc file =
      parseEhdr file >>= parseShdr >>= fun file => parseSymtab file.layout malloc file := by
  rw [Run.bind_assoc]
  unfold parseFile
  congr 1
  funext file
  congr 1
  funext file
  unfold TFile.layout
  cases file.is64 <;> rfl

/-- The outcome of a parse: the exit of the headers, else that of the allocation, else the
parsed file. -/
lemma out_parseFile (malloc : ℕ → Bool) :
    (parseFile malloc (TFile.mapped path m option)).out = match m.headerExit with
      | some e => .error e
      | none =>
        match m.symtabIndex with
        | some i =>
          if malloc (mallocBytes (m.nSyms i)) then .ok (TFile.parsed path m option)
          else .error .allocFailed
        | none => .ok (TFile.parsed path m option) := by
  rw [parseFile_eq, Run.out_bind, out_parseHeaders]
  cases m.headerExit with
  | some e => rfl
  | none => exact out_parseSymtab m path option malloc

lemma out_parseFile_eq_ok {malloc : ℕ → Bool} {file : TFile} :
    (parseFile malloc (TFile.mapped path m option)).out = .ok file ↔
      HeaderOk m ∧ AllocOk malloc m ∧ file = TFile.parsed path m option := by
  rw [out_parseFile]
  unfold HeaderOk AllocOk
  cases m.headerExit with
  | some e => simp
  | none =>
    cases m.symtabIndex with
    | some i => cases h : malloc (mallocBytes (m.nSyms i)) <;> simp [h, @eq_comm _ file]
    | none => simp [@eq_comm _ file]

/-- Once the headers have been passed the parse gets through exactly when it can allocate. -/
lemma out_loadFile_of_header {malloc : ℕ → Bool} (hheader : HeaderOk m)
    (halloc : AllocOk malloc m) :
    (loadFile malloc (TFile.mapped path m option)).out =
      if m.shoff ≤ m.size then .ok (TFile.parsed path m option) else .error .invalidShoff := by
  have hparse := (out_parseFile_eq_ok m path option).mpr ⟨hheader, halloc, rfl⟩
  rw [loadFile, Run.out_bind_of_ok hparse, readField, Run.out_touch_bind, Run.out_check_bind]
  exact if_congr Nat.not_lt rfl rfl

/-- The files that are listed. -/
lemma out_loadFile_eq_ok {malloc : ℕ → Bool} {file : TFile} :
    (loadFile malloc (TFile.mapped path m option)).out = .ok file ↔
      HeaderOk m ∧ AllocOk malloc m ∧ m.shoff ≤ m.size ∧ file = TFile.parsed path m option := by
  constructor
  · intro h
    obtain ⟨parsed, hparse, -⟩ := Run.out_bind_eq_ok.mp h
    obtain ⟨hheader, halloc, -⟩ := (out_parseFile_eq_ok m path option).mp hparse
    rw [out_loadFile_of_header m path option hheader halloc] at h
    by_cases hshoff : m.shoff ≤ m.size
    · rw [if_pos hshoff] at h
      exact ⟨hheader, halloc, hshoff, (Except.ok.inj h).symm⟩
    · rw [if_neg hshoff] at h
      cases h
  · rintro ⟨hheader, halloc, hshoff, rfl⟩
    rw [out_loadFile_of_header m path option hheader halloc, if_pos hshoff]

end FtNm
