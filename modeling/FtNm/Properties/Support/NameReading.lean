import Mathlib.Data.List.GetD
import Mathlib.Data.List.TakeWhile
import FtNm.Construction.SymbolesHandler

/-!
# What the name comparisons return and what they read

`ftStrcmpLit`, `matchesAny`, `lookupSectionName` and `getSectionName` read a mapped name a byte
at a time.  Their values depend only on the C string that starts there (`MappedFile.text`), and
the `out_` lemmas say so.  Their reads stop at the first difference.

`ScanInside m p lit` says that comparing the name at `p` with `lit` stays inside the mapping.
The chains of comparisons stop at the first match, but a name that matched has shown its NUL,
so a chain stays inside exactly when every one of its comparisons would
(`all_matchesAny_inside`, `all_getSectionName_inside`).
-/

namespace FtNm

open AccessLog

/-- An access inside the mapping; the subscripts of the section header table are no bytes. -/
def InFile (m : MappedFile) : Access → Prop
  | .byte off => off < m.size
  | .shdr _ => True

namespace MappedFile

variable (m : MappedFile)

/-! ## Strings in the mapping -/

lemma byteAt_eq_zero_of_le {p : ℕ} (h : m.size ≤ wrap p) : m.byteAt p = 0 :=
  List.getD_eq_default _ _ h

lemma wrap_lt_of_byteAt_ne {p : ℕ} (h : m.byteAt p ≠ 0) : wrap p < m.size := by
  by_contra hle
  exact h (m.byteAt_eq_zero_of_le (Nat.le_of_not_lt hle))

lemma wrap_succ {p : ℕ} (h : wrap p < m.size) : wrap (p + 1) = wrap p + 1 := by
  have hsize := m.size_lt
  unfold size at h
  unfold wrap at h ⊢
  omega

lemma text_of_byteAt_eq_zero {p : ℕ} (h : m.byteAt p = 0) : m.text p = [] := by
  unfold text
  by_cases hp : wrap p < m.bytes.length
  · rw [List.drop_eq_getElem_cons hp, List.takeWhile_cons_of_neg]
    have hget : m.bytes[wrap p] = 0 := by
      rw [← h, byteAt, List.getD_eq_getElem _ _ hp]
    simp [hget]
  · simp [List.drop_eq_nil_of_le (Nat.le_of_not_lt hp)]

lemma text_of_byteAt_ne_zero {p : ℕ} (h : m.byteAt p ≠ 0) :
    m.text p = m.byteAt p :: m.text (p + 1) := by
  have hp : wrap p < m.bytes.length := m.wrap_lt_of_byteAt_ne h
  have hget : m.byteAt p = m.bytes[wrap p] := List.getD_eq_getElem _ _ hp
  unfold text
  rw [m.wrap_succ hp, List.drop_eq_getElem_cons hp, List.takeWhile_cons_of_pos, hget]
  simpa [← hget] using h

lemma zero_notMem_text (p : ℕ) : 0 ∉ m.text p := by
  intro h
  have hne := List.mem_takeWhile_imp h
  simp at hne

lemma text_eq_nil_iff {p : ℕ} : m.text p = [] ↔ m.byteAt p = 0 := by
  constructor
  · intro h
    by_contra hne
    rw [m.text_of_byteAt_ne_zero hne] at h
    exact List.cons_ne_nil _ _ h
  · exact m.text_of_byteAt_eq_zero

lemma head?_text {p : ℕ} {c : UInt8} (hc : c ≠ 0) :
    (m.text p).head? = some c ↔ m.byteAt p = c := by
  by_cases h : m.byteAt p = 0
  · rw [m.text_of_byteAt_eq_zero h, h]
    simp [Ne.symm hc]
  · rw [m.text_of_byteAt_ne_zero h]
    simp

end MappedFile

variable (m : MappedFile)

/-! ## Values -/

lemma out_ftStrcmpLit (p : ℕ) (lit : List UInt8) (hlit : 0 ∉ lit) :
    (ftStrcmpLit m p lit).out = .ok (ftStrcmp (m.text p) lit) := by
  induction lit generalizing p with
  | nil =>
    by_cases h : m.byteAt p = 0
    · simp [ftStrcmpLit, readByte, m.text_of_byteAt_eq_zero h, h, ftStrcmp]
    · simp [ftStrcmpLit, readByte, m.text_of_byteAt_ne_zero h, ftStrcmp]
  | cons b bs ih =>
    rw [List.mem_cons, not_or] at hlit
    simp only [ftStrcmpLit, readByte, Run.out_touch_bind, Run.out_ite, Run.out_pure,
      ih (p + 1) hlit.2]
    by_cases h : m.byteAt p = 0
    · rw [m.text_of_byteAt_eq_zero h, if_neg (h ▸ hlit.1), h]
      simp [ftStrcmp]
    · rw [m.text_of_byteAt_ne_zero h, ftStrcmp]
      split_ifs <;> rfl

/-- The literals of a chain of comparisons contain no NUL. -/
def NulFree (lits : List String) : Prop := ∀ lit ∈ lits, 0 ∉ cstr lit

instance (lits : List String) : Decidable (NulFree lits) :=
  inferInstanceAs (Decidable (∀ lit ∈ lits, 0 ∉ cstr lit))

/-- The tests for a name in a table go by this instance, here and in the modules that speak of the
tables, so that they are one and the same. -/
instance lawfulBEqName : LawfulBEq (List UInt8) := inferInstance

lemma out_matchesAny (p : ℕ) (lits : List String) (h : NulFree lits) :
    (matchesAny m p lits).out = .ok (decide (m.text p ∈ lits.map cstr)) := by
  induction lits with
  | nil => simp [matchesAny]
  | cons lit lits ih =>
    have hlit : 0 ∉ cstr lit := h lit List.mem_cons_self
    rw [matchesAny, Run.out_bind_of_ok (out_ftStrcmpLit m p _ hlit), Run.out_ite,
      ih fun l hl => h l (List.mem_cons_of_mem _ hl),
      if_congr (ftStrcmp_eq_zero (m.zero_notMem_text p) hlit) rfl rfl]
    by_cases heq : m.text p = cstr lit <;> simp [heq]

/-- The first condition of a table that a name satisfies. -/
def findCode (name : List UInt8) (table : List (List String × ℤ)) : Option ℤ :=
  (table.find? fun entry => name ∈ entry.1.map cstr).map Prod.snd

lemma out_lookupSectionName (p : ℕ) (table : List (List String × ℤ))
    (h : ∀ entry ∈ table, NulFree entry.1) :
    (lookupSectionName m p table).out = .ok (findCode (m.text p) table) := by
  induction table with
  | nil => rfl
  | cons entry rest ih =>
    obtain ⟨lits, code⟩ := entry
    have hlits : NulFree lits := h _ List.mem_cons_self
    rw [lookupSectionName, Run.out_bind_of_ok (out_matchesAny m p lits hlits), Run.out_ite,
      ih fun e he => h e (List.mem_cons_of_mem _ he)]
    unfold findCode
    by_cases hmem : m.text p ∈ lits.map cstr
    · simp only [hmem, decide_true, if_true, List.find?_cons_of_pos, Option.map_some, Run.out_pure]
    · simp only [hmem, decide_false, Bool.false_eq_true, if_false, not_false_eq_true,
        List.find?_cons_of_neg]

/-- The value of `get_section_name` on a name. -/
def sectionCode (shFlag : ℕ) (name : List UInt8) : ℤ :=
  (findCode name sectionNameTable).getD
    (if name ∈ ehFrameNames.map cstr then if shFlag &&& SHF_WRITE ≠ 0 then 20 else 40 else -1)

lemma nulFree_sectionNameTable : ∀ entry ∈ sectionNameTable, NulFree entry.1 := by decide

lemma nulFree_ehFrameNames : NulFree ehFrameNames := by decide

lemma nulFree_debugNames : NulFree debugNames := by decide

lemma out_getSectionName (shFlag p : ℕ) :
    (getSectionName m shFlag p).out = .ok (sectionCode shFlag (m.text p)) := by
  rw [getSectionName,
    Run.out_bind_of_ok (out_lookupSectionName m p _ nulFree_sectionNameTable), sectionCode]
  cases findCode (m.text p) sectionNameTable with
  | some code => rfl
  | none =>
    simp only [Run.out_bind_of_ok (out_matchesAny m p _ nulFree_ehFrameNames), Run.out_ite,
      Run.out_pure]
    by_cases hmem : m.text p ∈ ehFrameNames.map cstr <;> simp [hmem]

lemma out_isNameMatch (p : ℕ) :
    (isNameMatch m p).out = .ok (decide (m.text p ∈ debugNames.map cstr)) :=
  out_matchesAny m p _ nulFree_debugNames

/-! ## Reads -/

section Bytes

variable {P : Access → Prop} (hP : ∀ off, P (.byte off))

include hP

/-- The comparisons touch bytes only. -/
lemma all_ftStrcmpLit_of_byte (p : ℕ) (lit : List UInt8) : (ftStrcmpLit m p lit).All P := by
  induction lit generalizing p with
  | nil => simp [ftStrcmpLit, readByte, hP]
  | cons b bs ih => simp [ftStrcmpLit, readByte, hP, Run.all_ite, ih]

lemma all_matchesAny_of_byte (p : ℕ) (lits : List String) : (matchesAny m p lits).All P := by
  induction lits with
  | nil => simp [matchesAny]
  | cons lit lits ih =>
    rw [matchesAny, Run.all_bind]
    exact ⟨all_ftStrcmpLit_of_byte m hP p _, fun _ _ => by simp [Run.all_ite, ih]⟩

lemma all_lookupSectionName_of_byte (p : ℕ) (table : List (List String × ℤ)) :
    (lookupSectionName m p table).All P := by
  induction table with
  | nil => simp [lookupSectionName]
  | cons entry rest ih =>
    rw [lookupSectionName, Run.all_bind]
    exact ⟨all_matchesAny_of_byte m hP p _, fun _ _ => by simp [Run.all_ite, ih]⟩

lemma all_getSectionName_of_byte (shFlag p : ℕ) : (getSectionName m shFlag p).All P := by
  rw [getSectionName, Run.all_bind]
  refine ⟨all_lookupSectionName_of_byte m hP p _, ?_⟩
  intro code _
  cases code with
  | some code => exact Run.all_pure _ _
  | none =>
    rw [Run.all_bind]
    exact ⟨all_matchesAny_of_byte m hP p _, fun _ _ => by simp [Run.all_ite]⟩

end Bytes

/-- Comparing the name at `p` with a literal reads inside the mapping only: byte after byte as
long as they agree, and the first that does not. -/
def ScanInside : ℕ → List UInt8 → Prop
  | p, [] => wrap p < m.size
  | p, b :: bs => wrap p < m.size ∧ (m.byteAt p = b → ScanInside (p + 1) bs)

lemma all_ftStrcmpLit_inside (p : ℕ) (lit : List UInt8) :
    (ftStrcmpLit m p lit).All (InFile m) ↔ ScanInside m p lit := by
  induction lit generalizing p with
  | nil => simp [ftStrcmpLit, readByte, InFile, ScanInside]
  | cons b bs ih =>
    simp only [ftStrcmpLit, readByte, Run.all_touch_bind, Run.all_ite, ih, ScanInside]
    simp [InFile]

/-- A name that was read up to its NUL inside the mapping can be compared with anything. -/
lemma ScanInside.of_match {p : ℕ} {lit : List UInt8} (hlit : 0 ∉ lit)
    (h : ScanInside m p lit) (hmatch : m.text p = lit) {lit' : List UInt8} (hlit' : 0 ∉ lit') :
    ScanInside m p lit' := by
  induction lit generalizing p lit' with
  | nil =>
    have hzero := m.text_eq_nil_iff.mp hmatch
    cases lit' with
    | nil => exact h
    | cons b bs =>
      refine ⟨h, ?_⟩
      intro hb
      rw [hzero] at hb
      exact absurd (hb ▸ List.mem_cons_self) hlit'
  | cons c cs ih =>
    rw [List.mem_cons, not_or] at hlit
    have hne : m.byteAt p ≠ 0 := by
      intro h0
      rw [m.text_of_byteAt_eq_zero h0] at hmatch
      exact List.cons_ne_nil _ _ hmatch.symm
    rw [m.text_of_byteAt_ne_zero hne] at hmatch
    obtain ⟨hc, hcs⟩ := List.cons_eq_cons.mp hmatch
    cases lit' with
    | nil => exact h.1
    | cons b bs =>
      rw [List.mem_cons, not_or] at hlit'
      exact ⟨h.1, fun _ => ih hlit.2 (h.2 hc) hcs hlit'.2⟩

lemma all_matchesAny_inside (p : ℕ) (lits : List String) (h : NulFree lits) :
    (matchesAny m p lits).All (InFile m) ↔ ∀ lit ∈ lits, ScanInside m p (cstr lit) := by
  induction lits with
  | nil => simp [matchesAny]
  | cons lit lits ih =>
    have hlit : 0 ∉ cstr lit := h lit List.mem_cons_self
    have hlits : NulFree lits := fun l hl => h l (List.mem_cons_of_mem _ hl)
    rw [matchesAny, Run.all_bind_of_ok _ (out_ftStrcmpLit m p _ hlit), all_ftStrcmpLit_inside,
      Run.all_ite, ih hlits, ftStrcmp_eq_zero (m.zero_notMem_text p) hlit, List.forall_mem_cons]
    apply and_congr_right
    intro hscan
    constructor
    · intro hrest l hl
      by_cases hmatch : m.text p = cstr lit
      · exact hscan.of_match m hlit hmatch (hlits l hl)
      · exact hrest.2 hmatch l hl
    · intro hrest
      exact ⟨fun _ => Run.all_pure _ _, fun _ => hrest⟩

/-- After a match inside the mapping, every NUL-free literal can be compared. -/
lemma scanInside_of_matchesAny {p : ℕ} {lits : List String} (h : NulFree lits)
    (hscan : ∀ lit ∈ lits, ScanInside m p (cstr lit)) (hmem : m.text p ∈ lits.map cstr)
    {lit' : List UInt8} (hlit' : 0 ∉ lit') : ScanInside m p lit' := by
  obtain ⟨lit, hl, hlit⟩ := List.mem_map.mp hmem
  exact (hscan lit hl).of_match m (h lit hl) hlit.symm hlit'

lemma all_lookupSectionName_inside (p : ℕ) (table : List (List String × ℤ))
    (h : ∀ entry ∈ table, NulFree entry.1) :
    (lookupSectionName m p table).All (InFile m) ↔
      ∀ entry ∈ table, ∀ lit ∈ entry.1, ScanInside m p (cstr lit) := by
  induction table with
  | nil => simp [lookupSectionName]
  | cons entry rest ih =>
    obtain ⟨lits, code⟩ := entry
    have hlits : NulFree lits := h _ List.mem_cons_self
    have hrest : ∀ entry ∈ rest, NulFree entry.1 := fun e he => h e (List.mem_cons_of_mem _ he)
    rw [lookupSectionName, Run.all_bind_of_ok _ (out_matchesAny m p lits hlits),
      all_matchesAny_inside m p lits hlits, Run.all_ite, ih hrest, List.forall_mem_cons]
    apply and_congr_right
    intro hscan
    constructor
    · intro hgo e he lit hlit
      by_cases hmem : m.text p ∈ lits.map cstr
      · exact scanInside_of_matchesAny m hlits hscan hmem (hrest e he lit hlit)
      · exact hgo.2 (by simpa using hmem) e he lit hlit
    · intro hgo
      exact ⟨fun _ => Run.all_pure _ _, fun _ => hgo⟩

/-- Every literal that `get_section_name` compares a name with. -/
def sectionNames : List String := sectionNameTable.flatMap Prod.fst ++ ehFrameNames

lemma all_getSectionName_inside (shFlag p : ℕ) :
    (getSectionName m shFlag p).All (InFile m) ↔
      ∀ lit ∈ sectionNames, ScanInside m p (cstr lit) := by
  have htable := nulFree_sectionNameTable
  rw [getSectionName, Run.all_bind_of_ok _ (out_lookupSectionName m p _ htable),
    all_lookupSectionName_inside m p _ htable]
  have hsplit : (∀ lit ∈ sectionNames, ScanInside m p (cstr lit)) ↔
      (∀ entry ∈ sectionNameTable, ∀ lit ∈ entry.1, ScanInside m p (cstr lit)) ∧
        ∀ lit ∈ ehFrameNames, ScanInside m p (cstr lit) := by
    simp only [sectionNames, List.forall_mem_append, List.forall_mem_flatMap]
  rw [hsplit]
  apply and_congr_right
  intro hscan
  cases hcode : findCode (m.text p) sectionNameTable with
  | some code =>
    -- the name matched an entry of the table, so it ends inside the mapping
    obtain ⟨entry, hfind, -⟩ := Option.map_eq_some_iff.mp hcode
    have hentry := List.mem_of_find?_eq_some hfind
    have hmem := List.find?_some hfind
    refine ⟨?_, fun _ => Run.all_pure _ _⟩
    intro _ lit hlit
    exact scanInside_of_matchesAny m (htable entry hentry) (hscan entry hentry)
      (by simpa using hmem) (nulFree_ehFrameNames lit hlit)
  | none =>
    rw [Run.all_bind_of_ok _ (out_matchesAny m p _ nulFree_ehFrameNames),
      all_matchesAny_inside m p _ nulFree_ehFrameNames, Run.all_ite]
    simp

end FtNm
