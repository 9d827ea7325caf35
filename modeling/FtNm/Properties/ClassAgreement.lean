import FtNm.Properties.Decoding

/-!
# The 32-bit and the 64-bit path agree

An object that fits both classes is parsed and listed alike from either of its images.  There
are two copies of the parser, and a switch on the class in each of the helpers; `ClassesAgree`
says that they differ in the address column only, which is wider in the 64-bit listing and
denotes the same number.

Both images have the entries of the object (`Content.entries_eq`), and what is printed depends
on the entries (`map_entryOf_listing`).  What remains is the column.
-/

namespace FtNm

open AccessLog

/-- Two address columns for the same address, or for none. -/
structure SameColumn (c32 c64 : List UInt8) : Prop where
  length32 : c32.length = 8
  length64 : c64.length = 16
  address : (∃ v, hexValue c32 = some v ∧ hexValue c64 = some v) ∨
    (c32 = blankColumn 8 ∧ c64 = blankColumn 16)

/-- Two lines that differ in the address column only. -/
def SameLine (l32 l64 : Line) : Prop :=
  ∃ c32 c64 rest, l32.text = c32 ++ rest ∧ l64.text = c64 ++ rest ∧ SameColumn c32 c64

/-- The two files end in the same way; if it is with a symbol array, the arrays hold the same
entries, and under every option the same lines are printed. -/
structure ClassesAgree (malloc : ℕ → Bool) (m32 m64 : MappedFile) (path : List UInt8)
    (nFiles : ℕ) : Prop where
  entries : ∀ option,
    (loadFile malloc (TFile.mapped path m32 option)).out.map
        (fun file => file.syms.symb.map file.data.entryOf) =
      (loadFile malloc (TFile.mapped path m64 option)).out.map
        fun file => file.syms.symb.map file.data.entryOf
  lines : ∀ option o32 o64,
    (manageFile malloc nFiles (TFile.mapped path m32 option)).out = .ok o32 →
    (manageFile malloc nFiles (TFile.mapped path m64 option)).out = .ok o64 →
    o32.header = o64.header ∧ List.Forall₂ SameLine o32.lines o64.lines

/-- The columns of an entry whose value fits in 32 bits. -/
lemma sameColumn_column {e : Entry} (h : e.value < 2 ^ 32) :
    SameColumn (e.column false) (e.column true) := by
  have h32 : e.value % 256 ^ (columnWidth false / 2) = e.value := Nat.mod_eq_of_lt h
  have h64 : e.value % 256 ^ (columnWidth true / 2) = e.value :=
    Nat.mod_eq_of_lt (h.trans (by decide))
  unfold Entry.column
  rw [h32, h64]
  split_ifs
  · exact ⟨rfl, rfl, .inr ⟨rfl, rfl⟩⟩
  · refine ⟨length_hexColumn (by decide) h, length_hexColumn (by decide) (h.trans (by decide)),
      .inl ⟨e.value, hexValue_hexColumn _ _, hexValue_hexColumn _ _⟩⟩

/-- The values of an ELF32 image are 32-bit ones. -/
lemma value_lt_of_image {bo : ByteOrder} {o : Obj} {p : Placement} {m : MappedFile}
    (h : Content elf32 bo o p m) {s : Sym} (hs : s ∈ o.symbols) : (o.entry s).value < 2 ^ 32 := by
  obtain ⟨j, hj⟩ := List.mem_iff_getElem?.mp hs
  have hvalue : (o.entry s).value = s.value := by
    unfold Obj.entry
    split <;> [split_ifs; skip] <;> rfl
  rw [hvalue]
  exact (h.symbols j s hj).value.1

variable {m32 m64 : MappedFile}

/-- Listings with the same entries have the same lines. -/
lemma sameLine_lines {xs ys : List TSymb} (h32 : m32.is64 = false) (h64 : m64.is64 = true)
    (h : xs.map m32.entryOf = ys.map m64.entryOf)
    (hvalue : ∀ s ∈ xs, (m32.entryOf s).value < 2 ^ 32) :
    List.Forall₂ SameLine (xs.map m32.line) (ys.map m64.line) := by
  induction xs generalizing ys with
  | nil =>
    rw [List.map_eq_nil_iff.mp h.symm]
    exact .nil
  | cons s xs ih =>
    cases ys with
    | nil => exact absurd h (by simp)
    | cons s' ys =>
      obtain ⟨hhead, htail⟩ := List.cons_eq_cons.mp h
      rw [List.forall_mem_cons] at hvalue
      have hleft : (m32.line s).text = (m32.entryOf s).text false := by rw [text_line, h32]
      have hright : (m64.line s').text = (m32.entryOf s).text true := by
        rw [text_line, h64, hhead]
      exact .cons ⟨_, _, _, hleft, hright, sameColumn_column hvalue.1⟩ (ih htail hvalue.2)

/-- **The 32-bit and the 64-bit path agree.** -/
theorem classesAgree_images (malloc : ℕ → Bool) (o : Obj) (p32 p64 : Placement)
    (m32 m64 : MappedFile) (path : List UInt8) (nFiles : ℕ)
    (himage32 : Image elf32 .little o p32 m32) (himage64 : Image elf64 .little o p64 m64) :
    ClassesAgree malloc m32 m64 path nFiles := by
  have h32 : Content (classLayout false) .little o p32 m32 := himage32.toContent
  have h64 : Content (classLayout true) .little o p64 m64 := himage64.toContent
  have hentries : m32.entries = m64.entries := h32.entries_eq.trans h64.entries_eq.symm
  constructor
  · intro option
    rw [h32.out_loadFile (.inl himage32.eiData), h64.out_loadFile (.inl himage64.eiData)]
    split_ifs
    · exact congrArg Except.ok hentries
    · rfl
    · rfl
  · intro option o32 o64 ho32 ho64
    obtain ⟨-, rfl⟩ := (out_manageFile m32 path option).mp ho32
    obtain ⟨-, rfl⟩ := (out_manageFile m64 path option).mp ho64
    refine ⟨rfl, ?_⟩
    rw [lines_parsed, lines_parsed]
    apply sameLine_lines h32.is64_eq h64.is64_eq (map_entryOf_listing option hentries)
    intro e he
    have hmem : m32.entryOf e ∈ m32.entries :=
      List.mem_map_of_mem ((m32.sorted_perm _).mem_iff.mp (List.mem_of_mem_filter he))
    rw [h32.entries_eq] at hmem
    obtain ⟨s, hs, heq⟩ := List.mem_map.mp hmem
    rw [← heq]
    exact value_lt_of_image himage32.toContent hs

theorem classesAgree_sampleImage :
    ClassesAgree (fun _ => true) (sampleImage false) (sampleImage true) [] 1 :=
  classesAgree_images _ _ _ _ _ _ [] 1 (image_sampleImage false) (image_sampleImage true)

end FtNm
