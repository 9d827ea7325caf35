import FtNm.Construction.Program
import FtNm.Framework.Lockstep
import FtNm.Properties.Decoding
import FtNm.Properties.Support.Entries

/-!
# What a listing depends on

The parser logs the bytes that it reads.  `parseFile_lockstep` says that it reads no others: on
a second file with the same bytes there, it reads the same bytes, sets the same fields and stops
at the same exits.  So the log is the whole of what the parser knows of a file.

`manageFile_footprint` adds what the printer reads, the names up to their terminators.  Files
that agree on these bytes have the same listing; code, data, debug sections, padding and what
may have been appended to the file have no part in it.
-/

namespace FtNm

open AccessLog Run

/-- The files have the same byte there. -/
def Agree (m m' : MappedFile) : Access → Prop
  | .byte p => m.bytes.getD p 0 = m'.bytes.getD p 0
  | .shdr _ => True

/-- The same file with other bytes. -/
def TFile.on (m : MappedFile) (file : TFile) : TFile := { file with data := m }

/-- Two states of the parser that differ in the bytes only. -/
def SameButBytes (m m' : MappedFile) (file file' : TFile) : Prop :=
  file.data = m ∧ file' = file.on m'

variable {m m' : MappedFile}

/-! ## Reading -/

lemma uintAt_congr (w p : ℕ) (h : ∀ i ∈ span p w, Agree m m' i) :
    m.uintAt w p = m'.uintAt w p := by
  have hbytes : ∀ k < w, m.byteAt (p + k) = m'.byteAt (p + k) := fun k hk =>
    h _ (List.mem_map_of_mem (List.mem_range.mpr hk))
  clear h
  induction w generalizing p with
  | zero => rfl
  | succ w ih =>
    have hrest : ∀ k < w, m.byteAt (p + 1 + k) = m'.byteAt (p + 1 + k) := by
      intro k hk
      have hnext := hbytes (k + 1) (Nat.succ_lt_succ hk)
      rwa [← Nat.add_assoc, Nat.add_right_comm] at hnext
    have hfirst : m.byteAt p = m'.byteAt p := hbytes 0 (Nat.succ_pos w)
    rw [MappedFile.uintAt, MappedFile.uintAt, hfirst, ih (p + 1) hrest]

lemma readByte_lockstep (p : ℕ) : (readByte m p).Lockstep (Agree m m') Eq (readByte m' p) :=
  lockstep_touch fun h => h _ List.mem_cons_self

lemma readField_lockstep (base : ℕ) (fld : Field) :
    (readField m base fld).Lockstep (Agree m m') Eq (readField m' base fld) :=
  lockstep_touch fun h => uintAt_congr _ _ h

section File

variable {file file' : TFile} (h : SameButBytes m m' file file')

include h

lemma SameButBytes.layout_eq : file'.layout = file.layout := by
  rw [h.2]
  rfl

lemma readShdr_lockstep (L : Layout) (index : ℕ) (fld : Field) :
    (readShdr L file index fld).Lockstep (Agree m m') Eq (readShdr L file' index fld) := by
  obtain ⟨rfl, rfl⟩ := h
  exact lockstep_touch fun hall => uintAt_congr _ _ fun i hi => hall i (List.mem_cons_of_mem _ hi)

end File

/-! ## The letter of a symbol -/

lemma ftStrcmpLit_lockstep (p : ℕ) (lit : List UInt8) :
    (ftStrcmpLit m p lit).Lockstep (Agree m m') Eq (ftStrcmpLit m' p lit) := by
  induction lit generalizing p with
  | nil =>
    refine (readByte_lockstep p).bind ?_
    rintro a _ rfl
    exact lockstep_pure rfl
  | cons b lit ih =>
    refine (readByte_lockstep p).bind ?_
    rintro a _ rfl
    exact .ite Iff.rfl (ih (p + 1)) (lockstep_pure rfl)

lemma matchesAny_lockstep (p : ℕ) (lits : List String) :
    (matchesAny m p lits).Lockstep (Agree m m') Eq (matchesAny m' p lits) := by
  induction lits with
  | nil => exact lockstep_pure rfl
  | cons lit lits ih =>
    refine (ftStrcmpLit_lockstep p (cstr lit)).bind ?_
    rintro r _ rfl
    exact .ite Iff.rfl (lockstep_pure rfl) ih

lemma lookupSectionName_lockstep (p : ℕ) (table : List (List String × ℤ)) :
    (lookupSectionName m p table).Lockstep (Agree m m') Eq (lookupSectionName m' p table) := by
  induction table with
  | nil => exact lockstep_pure rfl
  | cons row table ih =>
    obtain ⟨lits, code⟩ := row
    refine (matchesAny_lockstep p lits).bind ?_
    rintro found _ rfl
    exact .ite Iff.rfl (lockstep_pure rfl) ih

lemma getSectionName_lockstep (shFlag p : ℕ) :
    (getSectionName m shFlag p).Lockstep (Agree m m') Eq (getSectionName m' shFlag p) := by
  refine (lookupSectionName_lockstep p sectionNameTable).bind ?_
  rintro code _ rfl
  cases code with
  | some code => exact lockstep_pure rfl
  | none =>
    refine (matchesAny_lockstep p ehFrameNames).bind ?_
    rintro eh _ rfl
    exact .ite Iff.rfl (lockstep_pure rfl) (lockstep_pure rfl)

section File

variable {file file' : TFile} (h : SameButBytes m m' file file')

include h

lemma getSymbolSectionChar_lockstep (sect : ℕ) :
    (getSymbolSectionChar file sect).Lockstep (Agree m m') Eq
      (getSymbolSectionChar file' sect) := by
  unfold getSymbolSectionChar
  rw [h.layout_eq]
  refine (readShdr_lockstep h _ _ _).bind ?_
  rintro shType _ rfl
  refine (readShdr_lockstep h _ _ _).bind ?_
  rintro shFlags _ rfl
  exact lockstep_pure rfl

lemma getSymbBasedOnSection_lockstep (sect name : ℕ) :
    (getSymbBasedOnSection file sect name).Lockstep (Agree m m') Eq
      (getSymbBasedOnSection file' sect name) := by
  have hname (shFlag : ℕ) : (getSectionName file.data shFlag name).Lockstep (Agree m m') Eq
      (getSectionName file'.data shFlag name) := by
    obtain ⟨rfl, rfl⟩ := h
    exact getSectionName_lockstep shFlag name
  unfold getSymbBasedOnSection
  rw [h.layout_eq]
  refine (readShdr_lockstep h _ _ _).bind ?_
  rintro shFlag _ rfl
  refine (hname _).bind ?_
  rintro ret _ rfl
  exact lockstep_pure rfl

lemma determineSymb_lockstep (symb : TSymb) :
    (determineSymb file symb).Lockstep (Agree m m') Eq (determineSymb file' symb) := by
  have hbyte : (readByte file.data symb.name).Lockstep (Agree m m') Eq
      (readByte file'.data symb.name) := by
    obtain ⟨rfl, rfl⟩ := h
    exact readByte_lockstep _
  have hdebug : (isNameMatch file.data symb.name).Lockstep (Agree m m') Eq
      (isNameMatch file'.data symb.name) := by
    obtain ⟨rfl, rfl⟩ := h
    exact matchesAny_lockstep _ _
  unfold determineSymb
  refine Lockstep.bind (R := Eq)
    (.ite Iff.rfl (getSymbolSectionChar_lockstep h _) (lockstep_pure rfl)) ?_
  rintro c _ rfl
  refine hbyte.bind ?_
  rintro first _ rfl
  refine Lockstep.bind (R := Eq)
    (.ite Iff.rfl (getSymbBasedOnSection_lockstep h _ _) (lockstep_pure rfl)) ?_
  rintro c' _ rfl
  refine .ite Iff.rfl ?_ (lockstep_pure rfl)
  refine hdebug.bind ?_
  rintro debug _ rfl
  exact lockstep_pure rfl

end File

/-! ## The symbol table -/

section File

variable {file file' : TFile} (h : SameButBytes m m' file file')

include h

lemma readData_lockstep (base : ℕ) (fld : Field) :
    (readField file.data base fld).Lockstep (Agree m m') Eq (readField file'.data base fld) := by
  obtain ⟨rfl, rfl⟩ := h
  exact readField_lockstep base fld

lemma readSymb_lockstep (L : Layout) (stringTable strtab symtab j : ℕ) :
    (readSymb L file stringTable strtab symtab j).Lockstep (Agree m m') Eq
      (readSymb L file' stringTable strtab symtab j) := by
  have hempty (p : ℕ) : (ftStrcmpLit file.data p []).Lockstep (Agree m m') Eq
      (ftStrcmpLit file'.data p []) := by
    obtain ⟨rfl, rfl⟩ := h
    exact ftStrcmpLit_lockstep p []
  unfold readSymb
  refine (readData_lockstep h _ _).bind ?_
  rintro stName _ rfl
  refine (readData_lockstep h _ _).bind ?_
  rintro stInfo _ rfl
  refine (readData_lockstep h _ _).bind ?_
  rintro stOther _ rfl
  refine (readData_lockstep h _ _).bind ?_
  rintro stSize _ rfl
  refine (readData_lockstep h _ _).bind ?_
  rintro stValue _ rfl
  refine (readData_lockstep h _ _).bind ?_
  rintro stShndx _ rfl
  refine (hempty _).bind ?_
  rintro empty _ rfl
  refine Lockstep.bind (R := Eq) (.ite Iff.rfl ?_ (lockstep_pure rfl)) ?_
  · refine (readData_lockstep h _ _).bind ?_
    rintro shnum _ rfl
    refine .ite Iff.rfl ?_ (lockstep_pure rfl)
    refine (readShdr_lockstep h _ _ _).bind ?_
    rintro shName _ rfl
    exact lockstep_pure rfl
  · rintro symb _ rfl
    refine (determineSymb_lockstep h symb).bind ?_
    rintro c _ rfl
    exact lockstep_pure rfl

/-- The loop over the entries, by induction on the number of those left. -/
lemma symbLoop_lockstep (L : Layout) (stringTable k j : ℕ) (syms : TSyms) :
    (symbLoop L file stringTable k j syms).Lockstep (Agree m m') Eq
      (symbLoop L file' stringTable k j syms) := by
  induction k generalizing j syms with
  | zero => exact lockstep_pure rfl
  | succ k ih =>
    refine (readSymb_lockstep h _ _ _ _ _).bind ?_
    rintro s _ rfl
    exact ih _ _

lemma loadSymtab_lockstep (L : Layout) (malloc : ℕ → Bool) (stringTable i : ℕ) :
    (loadSymtab L malloc file stringTable i).Lockstep (Agree m m') Eq
      (loadSymtab L malloc file' stringTable i) := by
  unfold loadSymtab
  refine (readShdr_lockstep h _ _ _).bind ?_
  rintro shSize _ rfl
  refine (lockstep_check Iff.rfl _).bind fun _ _ _ => ?_
  refine (readShdr_lockstep h _ _ _).bind ?_
  rintro shLink _ rfl
  refine (readShdr_lockstep h _ _ _).bind ?_
  rintro strtab _ rfl
  refine (readShdr_lockstep h _ _ _).bind ?_
  rintro strtabSize _ rfl
  refine (readShdr_lockstep h _ _ _).bind ?_
  rintro symtab _ rfl
  exact symbLoop_lockstep h _ _ _ _ _

/-- The search for the symbol table, by induction on the number of sections left. -/
lemma symtabLoop_lockstep (L : Layout) (malloc : ℕ → Bool) (stringTable k i : ℕ) :
    (symtabLoop L malloc file stringTable k i).Lockstep (Agree m m') Eq
      (symtabLoop L malloc file' stringTable k i) := by
  induction k generalizing i with
  | zero => exact lockstep_pure rfl
  | succ k ih =>
    refine (readShdr_lockstep h _ _ _).bind ?_
    rintro shType _ rfl
    exact .ite Iff.rfl (loadSymtab_lockstep h _ _ _ _) (ih _)

lemma parseSymtab_lockstep (L : Layout) (malloc : ℕ → Bool) :
    (parseSymtab L malloc file).Lockstep (Agree m m') (SameButBytes m m')
      (parseSymtab L malloc file') := by
  unfold parseSymtab
  refine (readData_lockstep h _ _).bind ?_
  rintro shstrndx _ rfl
  refine (readShdr_lockstep h _ _ _).bind ?_
  rintro stringTable _ rfl
  refine (readData_lockstep h _ _).bind ?_
  rintro shnum _ rfl
  refine (symtabLoop_lockstep h _ _ _ _ _).bind ?_
  rintro syms _ rfl
  obtain ⟨rfl, rfl⟩ := h
  exact lockstep_pure ⟨rfl, rfl⟩

/-! ## The headers -/

lemma checkMagic_lockstep (p : ℕ) (magic : List UInt8) :
    (checkMagic file.data p magic).Lockstep (Agree m m') (fun _ _ => True)
      (checkMagic file'.data p magic) := by
  obtain ⟨rfl, rfl⟩ := h
  induction magic generalizing p with
  | nil => exact lockstep_pure trivial
  | cons c cs ih =>
    refine (readByte_lockstep p).bind ?_
    rintro b _ rfl
    exact (lockstep_check Iff.rfl _).bind fun _ _ _ => ih (p + 1)

lemma parseEhdr_lockstep :
    (parseEhdr file).Lockstep (Agree m m') (SameButBytes m m') (parseEhdr file') := by
  have hbyte (p : ℕ) : (readByte file.data p).Lockstep (Agree m m') Eq
      (readByte file'.data p) := by
    obtain ⟨rfl, rfl⟩ := h
    exact readByte_lockstep p
  unfold parseEhdr
  refine (checkMagic_lockstep h _ _).bind fun _ _ _ => ?_
  refine (hbyte 4).bind ?_
  rintro eiClass _ rfl
  refine (lockstep_check Iff.rfl _).bind fun _ _ _ => ?_
  refine (hbyte 5).bind ?_
  rintro eiData _ rfl
  refine (lockstep_check Iff.rfl _).bind fun _ _ _ => ?_
  refine (readData_lockstep h _ _).bind ?_
  rintro type _ rfl
  refine (lockstep_check Iff.rfl _).bind fun _ _ _ => ?_
  refine (readData_lockstep h _ _).bind ?_
  rintro shoff _ rfl
  refine (lockstep_check Iff.rfl _).bind fun _ _ _ => ?_
  obtain ⟨rfl, rfl⟩ := h
  exact lockstep_pure ⟨rfl, rfl⟩

lemma parseShdr_lockstep :
    (parseShdr file).Lockstep (Agree m m') (SameButBytes m m') (parseShdr file') := by
  unfold parseShdr
  rw [h.layout_eq]
  refine (readData_lockstep h _ _).bind ?_
  rintro shoff _ rfl
  have hnext : SameButBytes m m' { file with shdr := shoff } { file' with shdr := shoff } := by
    obtain ⟨rfl, rfl⟩ := h
    exact ⟨rfl, rfl⟩
  dsimp only
  rw [hnext.layout_eq]
  refine (readData_lockstep hnext _ _).bind ?_
  rintro shnum _ rfl
  exact (lockstep_check Iff.rfl _).bind fun _ _ _ => lockstep_pure hnext

/-- The parser goes through both files in lockstep. -/
lemma parse_lockstep (malloc : ℕ → Bool) :
    (parseFile malloc file).Lockstep (Agree m m') (SameButBytes m m')
      (parseFile malloc file') := by
  refine (parseEhdr_lockstep h).bind fun file file' h => ?_
  refine (parseShdr_lockstep h).bind fun file file' h => ?_
  have hclass : file.is64 = true ↔ file'.is64 = true := by
    obtain ⟨rfl, rfl⟩ := h
    exact Iff.rfl
  exact .ite hclass (parseSymtab_lockstep h elf64 malloc) (parseSymtab_lockstep h elf32 malloc)

end File

lemma all_agree {α : Type} {x : Prog α}
    (h : ∀ p, .byte p ∈ x.log → m.bytes.getD p 0 = m'.bytes.getD p 0) : x.All (Agree m m') := by
  intro i hi
  cases i with
  | byte p => exact h p hi
  | shdr index => trivial

/-- **The log is complete.**  On a file with the same bytes where the parser has read, it reads the
same bytes and comes to the same end. -/
theorem parseFile_lockstep (malloc : ℕ → Bool) (m m' : MappedFile) (path : List UInt8)
    (option : EOption)
    (h : ∀ p, .byte p ∈ (parseFile malloc (TFile.mapped path m option)).log →
      m.bytes.getD p 0 = m'.bytes.getD p 0) :
    (parseFile malloc (TFile.mapped path m' option)).log =
        (parseFile malloc (TFile.mapped path m option)).log ∧
      (parseFile malloc (TFile.mapped path m' option)).out =
        (parseFile malloc (TFile.mapped path m option)).out.map (TFile.on m') := by
  have hmapped : SameButBytes m m' (TFile.mapped path m option) (TFile.mapped path m' option) :=
    ⟨rfl, rfl⟩
  obtain ⟨hlog, hout⟩ := parse_lockstep hmapped malloc (all_agree h)
  refine ⟨hlog, ?_⟩
  generalize (parseFile malloc (TFile.mapped path m option)).out = r at hout
  generalize (parseFile malloc (TFile.mapped path m' option)).out = r' at hout
  cases hout with
  | ok hsame => exact congrArg Except.ok hsame.2
  | error e => rfl

/-- `sampleImage` with bytes behind its end. -/
def paddedImage : MappedFile where
  bytes := (sampleImage true).bytes ++ [1, 2, 3]
  size_pos := by decide +kernel
  size_lt := by decide +kernel

lemma paddedImage_getD {p : ℕ} (hp : p < (sampleImage true).size) :
    (sampleImage true).bytes.getD p 0 = paddedImage.bytes.getD p 0 :=
  (List.getD_append _ _ _ _ hp).symm

/-- The parser stays inside the file. -/
lemma sampleImage_reads : ∀ p,
    .byte p ∈ (parseFile (fun _ => true) (TFile.mapped [] (sampleImage true) .sortOrder)).log →
      (sampleImage true).bytes.getD p 0 = paddedImage.bytes.getD p 0 := by
  have hinside : ((parseFile (fun _ => true)
      (TFile.mapped [] (sampleImage true) .sortOrder)).log.all fun i =>
        match i with
        | .byte p => p < (sampleImage true).size
        | .shdr _ => true) = true := by decide +kernel
  intro p hp
  have hlt := List.all_eq_true.mp hinside _ hp
  dsimp only at hlt
  exact paddedImage_getD (of_decide_eq_true hlt)

theorem parseFile_lockstep_paddedImage :
    (parseFile (fun _ => true) (TFile.mapped [] paddedImage .sortOrder)).log =
        (parseFile (fun _ => true) (TFile.mapped [] (sampleImage true) .sortOrder)).log ∧
      (parseFile (fun _ => true) (TFile.mapped [] paddedImage .sortOrder)).out =
        (parseFile (fun _ => true) (TFile.mapped [] (sampleImage true) .sortOrder)).out.map
          (TFile.on paddedImage) :=
  parseFile_lockstep (fun _ => true) (sampleImage true) paddedImage [] .sortOrder
    sampleImage_reads

/-! ## The listing -/

/-- A string is read up to its terminator. -/
lemma takeWhile_congr (xs ys : List UInt8)
    (h : ∀ k ≤ (xs.takeWhile (· ≠ 0)).length, xs.getD k 0 = ys.getD k 0) :
    xs.takeWhile (· ≠ 0) = ys.takeWhile (· ≠ 0) := by
  induction xs generalizing ys with
  | nil =>
    cases ys with
    | nil => rfl
    | cons y ys =>
      have hy : y = 0 := (h 0 (Nat.zero_le _)).symm
      simp [hy]
  | cons x xs ih =>
    by_cases hx : x = 0
    · subst hx
      cases ys with
      | nil => simp
      | cons y ys =>
        have hy : y = 0 := (h 0 (Nat.zero_le _)).symm
        simp [hy]
    · have htake : (x :: xs).takeWhile (· ≠ 0) = x :: xs.takeWhile (· ≠ 0) :=
        List.takeWhile_cons_of_pos (by simpa using hx)
      rw [htake] at h
      cases ys with
      | nil => exact absurd (h 0 (Nat.zero_le _)) hx
      | cons y ys =>
        obtain rfl : x = y := h 0 (Nat.zero_le _)
        have hrest := ih ys fun k hk => h (k + 1) (Nat.succ_le_succ hk)
        rw [htake, List.takeWhile_cons_of_pos (by simpa using hx), hrest]

lemma text_congr (p : ℕ) (h : ∀ k ≤ (m.text p).length,
    m.bytes.getD (wrap p + k) 0 = m'.bytes.getD (wrap p + k) 0) : m.text p = m'.text p := by
  refine takeWhile_congr _ _ fun k hk => ?_
  have hbyte := h k hk
  rwa [List.getD_eq_getElem?_getD, List.getD_eq_getElem?_getD, ← List.getElem?_drop,
    ← List.getElem?_drop, ← List.getD_eq_getElem?_getD, ← List.getD_eq_getElem?_getD] at hbyte

/-- **The footprint of a listing.**  A file that is listed can be changed, and made longer, wherever
the parser has not read and no name stands: what is printed stays the same. -/
theorem manageFile_footprint (malloc : ℕ → Bool) (m m' : MappedFile) (path : List UInt8)
    (option : EOption) (nFiles : ℕ) (output : Output)
    (houtput : (manageFile malloc nFiles (TFile.mapped path m option)).out = .ok output)
    (hread : ∀ p, .byte p ∈ (parseFile malloc (TFile.mapped path m option)).log →
      m.bytes.getD p 0 = m'.bytes.getD p 0)
    (hnames : ∀ s ∈ m.syms.symb, ∀ k ≤ (m.text s.name).length,
      m.bytes.getD (wrap s.name + k) 0 = m'.bytes.getD (wrap s.name + k) 0)
    (hsize : m.size ≤ m'.size) :
    ∃ output', (manageFile malloc nFiles (TFile.mapped path m' option)).out = .ok output' ∧
      output'.text = output.text := by
  obtain ⟨⟨hheader, halloc, hshoff⟩, rfl⟩ := (out_manageFile m path option).mp houtput
  have hparse := (out_parseFile_eq_ok m path option).mpr ⟨hheader, halloc, rfl⟩
  -- the parser comes to the same fields
  obtain ⟨-, hout⟩ := parse_lockstep (⟨rfl, rfl⟩ : SameButBytes m m' (TFile.mapped path m option)
    (TFile.mapped path m' option)) malloc (all_agree hread)
  rw [hparse] at hout
  generalize hparse' : (parseFile malloc (TFile.mapped path m' option)).out = r at hout
  cases hout with
  | ok hsame =>
    obtain rfl := hsame.2
    obtain ⟨hheader', halloc', hfile⟩ := (out_parseFile_eq_ok m' path option).mp hparse'
    have hsyms : m.syms = m'.syms := congrArg TFile.syms hfile
    have hclass : m.is64 = m'.is64 := congrArg TFile.is64 hfile
    have hshoff' : m.shoff = m'.shoff := congrArg TFile.shdr hfile
    have hlisted : Listed malloc m' := ⟨hheader', halloc', hshoff' ▸ hshoff.trans hsize⟩
    -- and its entries have the same names
    have hentries : m.entries = m'.entries := by
      rw [MappedFile.entries, MappedFile.entries, ← hsyms]
      refine List.map_congr_left fun s hs => ?_
      have hname : m.cstring s.name = m'.cstring s.name :=
        CString.ext (text_congr s.name (hnames s hs))
      simp only [MappedFile.entryOf, hname]
    refine ⟨_, (out_manageFile m' path option).mpr ⟨hlisted, rfl⟩, ?_⟩
    have hheading : (printSymboles (TFile.parsed path m' option) nFiles).header =
        (printSymboles (TFile.parsed path m option) nFiles).header := rfl
    rw [Output.text, Output.text, hheading, lines_parsed, lines_parsed, flatMap_line, flatMap_line,
      map_entryOf_listing option hentries, hclass]

theorem manageFile_footprint_paddedImage :
    ∃ output', (manageFile (fun _ => true) 1 (TFile.mapped [] paddedImage .sortOrder)).out =
        .ok output' ∧
      output'.text = (printSymboles (TFile.parsed [] (sampleImage true) .sortOrder) 1).text :=
  manageFile_footprint (fun _ => true) (sampleImage true) paddedImage [] .sortOrder 1 _
    ((out_manageFile _ _ _).mpr
      ⟨(image_sampleImage true).toContent.listed_iff.mpr
        ⟨.inl (image_sampleImage true).eiData, by decide, rfl⟩, rfl⟩)
    sampleImage_reads
    (by
      have hinside : ∀ s ∈ (sampleImage true).syms.symb,
          wrap s.name + ((sampleImage true).text s.name).length < (sampleImage true).size := by
        decide +kernel
      intro s hs k hk
      exact paddedImage_getD (Nat.lt_of_le_of_lt (Nat.add_le_add_left hk _) (hinside s hs)))
    (by decide +kernel)

end FtNm
