import FtNm.Properties.Support.ImageParse
import FtNm.Properties.Support.Letters
import FtNm.Properties.Support.OutputLine

/-!
# What a stored entry stands for

A `t_symb` holds its name as a pointer into the mapping, so entries of two files cannot be
compared as they are.  `m.entryOf s` is the entry with the name itself in its place, and
`MappedFile.entries` the symbol array in these terms.

* Everything that is printed depends on the entries alone: `text_line` for the lines, and
  `map_entryOf_listing` for the choice of lines and their order.
* `Content.entries_eq`: the entries of an image are a function of the object, `Obj.entry`.
-/

namespace FtNm

open StableMerge

/-- A `t_symb` with its name instead of the pointer to it. -/
@[ext]
structure Entry where
  name : CString
  size : ℕ
  value : ℕ
  sectionTabIndex : ℕ
  type : ℕ
  binding : ℕ
  visibility : ℕ
  typeChar : UInt8
  shType : ℕ

namespace MappedFile

variable (m : MappedFile)

/-- The entry that `s` stands for in the file. -/
def entryOf (s : TSymb) : Entry where
  name := m.cstring s.name
  size := s.size
  value := s.value
  sectionTabIndex := s.sectionTabIndex
  type := s.type
  binding := s.binding
  visibility := s.visibility
  typeChar := s.typeChar
  shType := s.shType

/-- The symbol array of the file. -/
def entries : List Entry := m.syms.symb.map m.entryOf

end MappedFile

/-! ## What is printed -/

/-- The address column of an entry. -/
def Entry.column (is64 : Bool) (e : Entry) : List UInt8 :=
  if e.sectionTabIndex = SHN_UNDEF then blankColumn (columnWidth is64)
  else hexColumn (columnWidth is64) (e.value % 256 ^ (columnWidth is64 / 2))

/-- The line of an entry. -/
def Entry.text (is64 : Bool) (e : Entry) : List UInt8 :=
  e.column is64 ++ lineRest e.typeChar e.name.bytes

lemma text_line (m : MappedFile) (s : TSymb) : (m.line s).text = (m.entryOf s).text m.is64 :=
  output_eq (TFile.parsed [] m .noSort) s.value s.typeChar s.name s.sectionTabIndex

/-- What is printed for the entries of a file. -/
lemma flatMap_line (m : MappedFile) (xs : List TSymb) :
    (xs.map m.line).flatMap Line.text = (xs.map m.entryOf).flatMap (Entry.text m.is64) := by
  rw [List.flatMap_map, List.flatMap_map]
  congr 1
  funext s
  exact text_line m s

/-- The comparison of `merge` in terms of entries. -/
def entryLe (order : ℤ) (a b : Entry) : Bool := strcmpLe order a.name b.name

lemma totalPreorder_entryLe (order : ℤ) : TotalPreorder (entryLe order) :=
  (totalPreorder_strcmpLe order).comap Entry.name

/-- Whether an entry is shown under an option. -/
def Entry.Shown (e : Entry) : EOption → Prop
  | .displayAll => ¬(e.sectionTabIndex = SHN_UNDEF ∧ e.name.bytes = [])
  | .undefinedSymbolsOnly => e.sectionTabIndex = SHN_UNDEF ∧ e.name.bytes ≠ []
  | .externalOnly => e.typeChar ∈ cstr externalLetters ∧ e.binding ≠ STB_LOCAL
  | .noSort | .sortOrder | .reverseSort =>
    ¬(e.name.bytes = [] ∧ e.value = 0) ∧ ¬(e.typeChar = 'a'.toUInt8 ∧ e.value = 0) ∧
      e.shType = SHT_SYMTAB

instance (e : Entry) (option : EOption) : Decidable (e.Shown option) :=
  match option with
  | .displayAll => inferInstanceAs (Decidable (¬(_ ∧ _)))
  | .undefinedSymbolsOnly => inferInstanceAs (Decidable (_ ∧ _))
  | .externalOnly => inferInstanceAs (Decidable (_ ∧ _))
  | .noSort | .sortOrder | .reverseSort => inferInstanceAs (Decidable (¬_ ∧ ¬_ ∧ _))

lemma shown_entryOf (m : MappedFile) (option : EOption) (s : TSymb) :
    Shown m option s ↔ (m.entryOf s).Shown option := by
  cases option <;> rfl

/-- A filter commutes with a map when the test depends on the image only. -/
lemma map_filter_congr {α β γ : Type} {f : α → γ} {g : β → γ} {p : α → Bool} {q : β → Bool}
    (hpq : ∀ a b, f a = g b → p a = q b) {xs : List α} {ys : List β} (h : xs.map f = ys.map g) :
    (xs.filter p).map f = (ys.filter q).map g := by
  induction xs generalizing ys with
  | nil =>
    have hys : ys = [] := List.map_eq_nil_iff.mp h.symm
    rw [hys]
    rfl
  | cons a xs ih =>
    cases ys with
    | nil => exact absurd h (by simp)
    | cons b ys =>
      obtain ⟨hab, htail⟩ := List.cons_eq_cons.mp h
      rw [List.filter_cons, List.filter_cons, hpq a b hab]
      split_ifs
      · rw [List.map_cons, List.map_cons, hab, ih htail]
      · exact ih htail

section SameEntries

variable {m m' : MappedFile}

/-- Whether an entry is shown depends on what it stands for only. -/
lemma shown_congr (option : EOption) {s s' : TSymb} (h : m.entryOf s = m'.entryOf s') :
    Shown m option s ↔ Shown m' option s' := by
  have hname : m.text s.name = m'.text s'.name := congrArg (fun e => e.name.bytes) h
  have hvalue : s.value = s'.value := congrArg Entry.value h
  have hletter : s.typeChar = s'.typeChar := congrArg Entry.typeChar h
  have hshType : s.shType = s'.shType := congrArg Entry.shType h
  have hshndx : s.sectionTabIndex = s'.sectionTabIndex := congrArg Entry.sectionTabIndex h
  have hbinding : s.binding = s'.binding := congrArg Entry.binding h
  cases option <;>
    simp only [Shown, ShownByDefault, ShownByAll, ShownUndefined, ShownExternal, hname, hvalue,
      hletter, hshType, hshndx, hbinding]

/-- Files with the same entries sort them alike. -/
lemma map_entryOf_sorted (order : ℤ) (h : m.entries = m'.entries) :
    (m.sorted order).map m.entryOf = (m'.sorted order).map m'.entryOf := by
  have hlength : m.syms.symb.length = m'.syms.symb.length := by
    simpa [MappedFile.entries] using congrArg List.length h
  have hcount : m.syms.nSymsCount = m'.syms.nSymsCount := by
    rw [← m.length_symb, hlength, m'.length_symb]
  obtain ⟨sorted, hsorted, heq⟩ := mergeSort_spec m order _ _ m.toNat_count_le
  obtain ⟨sorted', hsorted', heq'⟩ := mergeSort_spec m' order _ _ m'.toNat_count_le
  have hmap := hsorted.map (totalPreorder_entryLe order) m.entryOf fun _ _ => rfl
  have hmap' := hsorted'.map (totalPreorder_entryLe order) m'.entryOf fun _ _ => rfl
  unfold MappedFile.entries at h
  rw [List.map_take, h, hcount, ← List.map_take] at hmap
  rw [MappedFile.sorted, MappedFile.sorted, heq, heq', List.map_append, List.map_append,
    List.map_drop, List.map_drop, h, hcount, hmap.unique (totalPreorder_entryLe order) hmap']

/-- **Files with the same entries have the same listings.** -/
lemma map_entryOf_listing (option : EOption) (h : m.entries = m'.entries) :
    (m.listing option).map m.entryOf = (m'.listing option).map m'.entryOf :=
  map_filter_congr (fun _ _ hs => decide_eq_decide.mpr (shown_congr option hs))
    (map_entryOf_sorted _ h)

end SameEntries

/-! ## The entries of an object -/

/-- The entry of a symbol under a name, with the letter that it gets from a section of the
given type and flags. -/
def Sym.entry (s : Sym) (name : CString) (shType sectType sectFlags : ℕ) : Entry where
  name := name
  size := s.size
  value := s.value
  sectionTabIndex := s.shndx
  type := s.type
  binding := s.binding
  visibility := s.visibility
  typeChar := letterOf ⟨0, s.size, s.value, s.shndx, s.type, s.binding, s.visibility, 0, shType⟩
    sectType sectFlags name.bytes
  shType := shType

/-- What a symbol of the object is stored as: under its own name, or under that of the section
it refers to when it has none. -/
def Obj.entry (o : Obj) (s : Sym) : Entry :=
  match o.sections[s.shndx]? with
  | some t =>
    if s.name.bytes = [] then s.entry t.name SECTION_NAME t.type t.flags
    else s.entry s.name SHT_SYMTAB t.type t.flags
  | none => s.entry s.name SHT_SYMTAB 0 0

/-- A letter that the first stage settles does not depend on a section. -/
lemma letterOf_of_intercepted {symb : TSymb} (hshType : symb.shType = SHT_SYMTAB)
    (h : Intercepted symb.binding symb.type symb.visibility symb.sectionTabIndex)
    (shType shFlags shType' shFlags' : ℕ) (name : List UInt8) :
    letterOf symb shType shFlags name = letterOf symb shType' shFlags' name := by
  have hfirst : getSymbTypeAndVisibility symb ≠ '?'.toUInt8 := fun hq =>
    ((getSymbTypeAndVisibility_eq_question symb).mp hq).1 h
  have hnamed : ∀ c, ¬(c ∧ symb.shType ≠ SHT_SYMTAB) := fun c hc => hc.2 hshType
  simp only [letterOf, stageLetter, if_neg hfirst, if_neg (hnamed _)]

namespace Content

variable {is64 : Bool} {o : Obj} {p : Placement} {m : MappedFile}
  (h : Content (classLayout is64) .little o p m)

include h

/-- Entry `j` is the object's symbol `j`, under its own name. -/
lemma namedSymb_eq {j : ℕ} {s : Sym} (hs : o.symbols[j]? = some s) :
    m.namedSymb o.symtabIndex j =
      ⟨p.offset p.strndx + p.symName j, s.size, s.value, s.shndx, s.type, s.binding,
        s.visibility, 0, SHT_SYMTAB⟩ := by
  have himage := h.symbols j s hs
  have htype : (s.binding * 16 + s.type) &&& 0xf = s.type := by
    have hlt := s.type_lt
    rw [Nat.and_two_pow_sub_one_eq_mod _ 4]
    omega
  have hbinding : (s.binding * 16 + s.type) >>> 4 = s.binding := by
    have hlt := s.type_lt
    rw [Nat.shiftRight_eq_div_pow]
    omega
  have hvisibility : s.visibility &&& 0x3 = s.visibility := by
    rw [Nat.and_two_pow_sub_one_eq_mod _ 2]
    exact Nat.mod_eq_of_lt s.visibility_lt
  rw [MappedFile.namedSymb, MappedFile.ownName, h.strtab_eq, h.sym_eq himage.name,
    h.sym_eq himage.value, h.sym_eq himage.size, h.sym_eq himage.shndx, h.sym_eq himage.info,
    h.sym_eq himage.other, htype, hbinding, hvisibility]

lemma cstring_ownName {j : ℕ} {s : Sym} (hs : o.symbols[j]? = some s) :
    m.cstring (p.offset p.strndx + p.symName j) = s.name :=
  CString.ext (h.symbols j s hs).string.text

lemma cstring_section {i : ℕ} {t : Sec} (ht : o.sections[i]? = some t) :
    m.cstring (m.stringTable + m.shdr i Layout.shName) = t.name := by
  have himage := h.sections i t ht
  rw [h.shdr_eq himage.name, h.stringTable_eq]
  exact CString.ext himage.string.text

lemma unnamed_iff {j : ℕ} {s : Sym} (hs : o.symbols[j]? = some s) :
    m.Unnamed o.symtabIndex j ↔ s.name.bytes = [] ∧ s.shndx < o.sections.length := by
  have himage := h.symbols j s hs
  have hshnum : m.shnum = o.sections.length := h.shnum_eq
  rw [MappedFile.Unnamed, MappedFile.ownName, h.strtab_eq, h.sym_eq himage.name,
    h.sym_eq himage.shndx, hshnum, himage.string.text]

/-- **Decoding an entry.** -/
lemma entryOf_symbAt {j : ℕ} {s : Sym} (hs : o.symbols[j]? = some s) :
    m.entryOf (m.symbAt o.symtabIndex j) = o.entry s := by
  have hunnamed := h.unnamed_iff hs
  have hown := h.cstring_ownName hs
  -- the name and the mark are settled first, then the letter from them
  have hentry : ∀ q shType, m.rawSymb o.symtabIndex j = ⟨q, s.size, s.value, s.shndx, s.type,
        s.binding, s.visibility, 0, shType⟩ →
      m.entryOf (m.symbAt o.symtabIndex j) = s.entry (m.cstring q) shType
        (m.shdr s.shndx Layout.shType) (m.shdr s.shndx Layout.shFlags) := by
    intro q shType hraw
    rw [MappedFile.symbAt, MappedFile.letter, hraw]
    rfl
  unfold Obj.entry
  cases ht : o.sections[s.shndx]? with
  | some t =>
    have himage := h.sections _ t ht
    have hlt : s.shndx < o.sections.length := (List.getElem?_eq_some_iff.mp ht).1
    rw [h.shdr_eq himage.type, h.shdr_eq himage.flags] at hentry
    by_cases hname : s.name.bytes = []
    · have hraw : m.rawSymb o.symtabIndex j = ⟨m.stringTable + m.shdr s.shndx Layout.shName,
          s.size, s.value, s.shndx, s.type, s.binding, s.visibility, 0, SECTION_NAME⟩ := by
        rw [MappedFile.rawSymb, if_pos (hunnamed.mpr ⟨hname, hlt⟩), h.namedSymb_eq hs,
          h.sym_eq (h.symbols j s hs).shndx]
      rw [hentry _ _ hraw, h.cstring_section ht]
      exact (if_pos hname).symm
    · have hraw := m.rawSymb_of_not_unnamed (mt hunnamed.mp fun hn => hname hn.1)
      rw [hentry _ _ (hraw.trans (h.namedSymb_eq hs)), hown]
      exact (if_neg hname).symm
  | none =>
    have hge : ¬s.shndx < o.sections.length := Nat.not_lt.mpr (List.getElem?_eq_none_iff.mp ht)
    have hraw := m.rawSymb_of_not_unnamed (mt hunnamed.mp fun hn => hge hn.2)
    rw [hentry _ _ (hraw.trans (h.namedSymb_eq hs)), hown]
    -- an index that is no section's is `SHN_ABS` or `SHN_COMMON`
    have hintercepted : Intercepted s.binding s.type s.visibility s.shndx := by
      have hzero := o.sections_pos
      rcases o.shndx_ok s (List.mem_of_getElem? hs) with hz | habs | hcommon | hlt
      · exact absurd (hz ▸ hzero) hge
      · simp [Intercepted, habs]
      · simp [Intercepted, hcommon]
      · exact absurd hlt hge
    unfold Sym.entry
    rw [letterOf_of_intercepted rfl hintercepted _ _ 0 0]

/-- **Decoding.**  The entries of an image are those of its object's symbols, in their order. -/
lemma entries_eq : m.entries = o.symbols.map o.entry := by
  have hsyms : m.syms = m.symsOf o.symtabIndex := by rw [MappedFile.syms, h.symtabIndex_eq]
  have hentry : ∀ j (hj : j < o.symbols.length),
      m.entryOf (m.symbAt o.symtabIndex j) = o.entry o.symbols[j] := fun j hj =>
    h.entryOf_symbAt (List.getElem?_eq_getElem hj)
  rw [MappedFile.entries, hsyms, MappedFile.symsOf, h.nSyms_eq]
  apply List.ext_getElem
  · simp
  intro j hj hj'
  simpa using hentry j (by simpa using hj')

end Content

end FtNm
