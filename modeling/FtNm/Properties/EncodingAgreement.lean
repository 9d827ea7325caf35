import FtNm.Properties.Decoding

/-!
# Little-endian and big-endian images

The header check lets `ELFDATA2MSB` through, and everything behind it is read in the order of
the host.  `EncodingsAgree` is what the check promises, that an object is accepted and listed
alike in either encoding.

* It holds when nothing depends on the order (`OrderBlind`): neither image is accepted, or every
  number in the image is its own reversal, so that the misreading is none.
* It fails for every other object, except possibly one of type `ET_NONE` whose big-endian image
  is accepted too: there a misread table is listed, and the listing may come out right.

An accepted type other than `ET_NONE` is not accepted reversed, so an object file, a program or
a library is listed from its little-endian image and rejected from its big-endian one.
-/

namespace FtNm

open ByteOrder AccessLog

/-- The two files are both listed or both rejected, and are listed alike. -/
structure EncodingsAgree (malloc : ℕ → Bool) (mL mB : MappedFile) (path : List UInt8)
    (nFiles : ℕ) : Prop where
  accepted : ∀ option,
    (∃ oL, (manageFile malloc nFiles (TFile.mapped path mL option)).out = .ok oL) ↔
      ∃ oB, (manageFile malloc nFiles (TFile.mapped path mB option)).out = .ok oB
  listing : ∀ option oL oB,
    (manageFile malloc nFiles (TFile.mapped path mL option)).out = .ok oL →
    (manageFile malloc nFiles (TFile.mapped path mB option)).out = .ok oB →
    oL.header = oB.header ∧ oL.lines.map Line.text = oB.lines.map Line.text

/-! ## The condition -/

/-- The member reads the same in both byte orders. -/
def Palindrome (fld : Field) (v : ℕ) : Prop := swapped fld.width v = v

/-- Every number of more than one byte in the image of `o` is its own reversal. -/
structure Symmetric (L : Layout) (o : Obj) (p : Placement) : Prop where
  type : Palindrome eType o.eType
  shoff : Palindrome L.eShoff p.shoff
  shnum : Palindrome L.eShnum o.sections.length
  shstrndx : Palindrome L.eShstrndx p.shstrndx
  sections : ∀ (i : ℕ) (s : Sec), o.sections[i]? = some s →
    Palindrome L.shName (p.secName i) ∧ Palindrome L.shType s.type ∧
      Palindrome L.shFlags s.flags ∧ Palindrome L.shOffset (p.offset i) ∧
      Palindrome L.shSize (p.size i)
  symtab_link : Palindrome L.shLink p.strndx
  symbols : ∀ (j : ℕ) (s : Sym), o.symbols[j]? = some s →
    Palindrome L.stName (p.symName j) ∧ Palindrome L.stValue s.value ∧
      Palindrome L.stSize s.size ∧ Palindrome L.stShndx s.shndx

/-- The type and the number of symbols let the little-endian image of `o` through. -/
def AcceptedLittle (malloc : ℕ → Bool) (o : Obj) : Prop :=
  o.eType ∈ acceptedTypes ∧ malloc (mallocBytes o.symbols.length) = true

/-- The reversed type and the reversed `e_shoff` let the big-endian image `m` of `o` through, and
so does the size of the table that the parser takes for its symbol table. -/
def AcceptedBig (malloc : ℕ → Bool) (L : Layout) (o : Obj) (p : Placement) (m : MappedFile) :
    Prop :=
  swapped eType.width o.eType ∈ acceptedTypes ∧ AllocOk malloc m ∧
    swapped L.eShoff.width p.shoff ≤ m.size

/-- The byte order makes no difference. -/
def OrderBlind (malloc : ℕ → Bool) (L : Layout) (o : Obj) (p : Placement) (m : MappedFile) :
    Prop :=
  ¬AcceptedLittle malloc o ∧ ¬AcceptedBig malloc L o p m ∨ Symmetric L o p

/-! ## The two images -/

lemma Holds.little {m : MappedFile} {base v : ℕ} {fld : Field} (h : Holds .big m base fld v)
    (hv : Palindrome fld v) : Holds .little m base fld v :=
  ⟨h.1, encode_big_eq_little hv ▸ h.2⟩

lemma palindrome_of_width_one {fld : Field} {v : ℕ} (hwidth : fld.width = 1)
    (hv : v < 256 ^ fld.width) : Palindrome fld v := by
  have hmod : v % 256 = v := Nat.mod_eq_of_lt (by simpa [hwidth] using hv)
  rw [Palindrome, hwidth, swapped_one, hmod]

section Images

variable {is64 : Bool} {o : Obj} {p : Placement} {m : MappedFile}

/-- A symmetric big-endian image is a little-endian one. -/
lemma Content.little (h : Content (classLayout is64) .big o p m)
    (hs : Symmetric (classLayout is64) o p) : Content (classLayout is64) .little o p m where
  magic := h.magic
  eiClass := h.eiClass
  type := h.type.little hs.type
  shoff := h.shoff.little hs.shoff
  shoff_ne := h.shoff_ne
  shnum := h.shnum.little hs.shnum
  shstrndx := h.shstrndx.little hs.shstrndx
  shstrndx_lt := h.shstrndx_lt
  sections i s hi := by
    have himage := h.sections i s hi
    obtain ⟨hname, htype, hflags, hoffset, hsize⟩ := hs.sections i s hi
    exact ⟨himage.name.little hname, himage.type.little htype, himage.flags.little hflags,
      himage.offset.little hoffset, himage.size.little hsize, himage.string⟩
  symtab_size := h.symtab_size
  symtab_link := h.symtab_link.little hs.symtab_link
  strndx_lt := h.strndx_lt
  symbols j s hj := by
    have himage := h.symbols j s hj
    obtain ⟨hname, hvalue, hsize, hshndx⟩ := hs.symbols j s hj
    have hinfo : (classLayout is64).stInfo.width = 1 := by cases is64 <;> rfl
    have hother : (classLayout is64).stOther.width = 1 := by cases is64 <;> rfl
    exact ⟨himage.name.little hname, himage.value.little hvalue, himage.size.little hsize,
      himage.info.little (palindrome_of_width_one hinfo himage.info.1),
      himage.other.little (palindrome_of_width_one hother himage.other.1),
      himage.shndx.little hshndx, himage.string⟩

lemma listed_little (h : Image (classLayout is64) .little o p m) {malloc : ℕ → Bool} :
    Listed malloc m ↔ AcceptedLittle malloc o := by
  rw [h.toContent.listed_iff]
  exact and_iff_right (.inl h.eiData)

lemma listed_big (h : Image (classLayout is64) .big o p m) {malloc : ℕ → Bool} :
    Listed malloc m ↔ AcceptedBig malloc (classLayout is64) o p m := by
  have hshoff : m.shoff = swapped (classLayout is64).eShoff.width p.shoff := h.shoff_eq
  have hdata : m.DataOk := .inr h.eiData
  rw [Listed, h.headerOk_iff, hshoff, and_iff_right hdata]
  rfl

end Images

/-- Files of one class with the same entries print the same lines. -/
lemma map_text_listing {m m' : MappedFile} (hclass : m.is64 = m'.is64)
    (h : m.entries = m'.entries) (option : EOption) :
    ((m.listing option).map m.line).map Line.text =
      ((m'.listing option).map m'.line).map Line.text := by
  have htext : ∀ m : MappedFile, ∀ xs : List TSymb,
      (xs.map m.line).map Line.text = (xs.map m.entryOf).map (Entry.text m.is64) := by
    intro m xs
    rw [List.map_map, List.map_map]
    exact List.map_congr_left fun s _ => text_line m s
  rw [htext, htext, hclass, map_entryOf_listing option h]

/-- **When the encoding makes no difference.** -/
theorem encodingsAgree_orderBlind (malloc : ℕ → Bool) (is64 : Bool) (o : Obj)
    (pL pB : Placement) (mL mB : MappedFile) (path : List UInt8) (nFiles : ℕ)
    (hL : Image (classLayout is64) .little o pL mL)
    (hB : Image (classLayout is64) .big o pB mB) :
    (OrderBlind malloc (classLayout is64) o pB mB → EncodingsAgree malloc mL mB path nFiles) ∧
    (EncodingsAgree malloc mL mB path nFiles →
      OrderBlind malloc (classLayout is64) o pB mB ∨
        o.eType = ET_NONE ∧ AcceptedLittle malloc o ∧
          AcceptedBig malloc (classLayout is64) o pB mB) := by
  have haccepted : ∀ m option, (∃ output,
      (manageFile malloc nFiles (TFile.mapped path m option)).out = .ok output) ↔
        Listed malloc m := by
    intro m option
    simp only [out_manageFile, exists_and_left, exists_eq, and_true]
  constructor
  · rintro (⟨hnotL, hnotB⟩ | hs)
    · rw [← listed_little hL] at hnotL
      rw [← listed_big hB] at hnotB
      exact ⟨fun option => by rw [haccepted, haccepted]; exact iff_of_false hnotL hnotB,
        fun option _ _ ho => absurd ((haccepted mL option).mp ⟨_, ho⟩) hnotL⟩
    · have hB' := hB.toContent.little hs
      have hlisted : Listed malloc mB ↔ Listed malloc mL := by
        rw [hB'.listed_iff, hL.toContent.listed_iff]
        exact and_congr_left fun _ => iff_of_true (.inr hB.eiData) (.inl hL.eiData)
      refine ⟨fun option => by rw [haccepted, haccepted, hlisted], ?_⟩
      intro option oL oB hoL hoB
      obtain ⟨-, rfl⟩ := (out_manageFile mL path option).mp hoL
      obtain ⟨-, rfl⟩ := (out_manageFile mB path option).mp hoB
      refine ⟨rfl, ?_⟩
      rw [lines_parsed, lines_parsed]
      exact map_text_listing (hL.is64_eq.trans hB.is64_eq.symm)
        (hL.toContent.entries_eq.trans hB'.entries_eq.symm) option
  · intro hagree
    have hiff := hagree.accepted .sortOrder
    rw [haccepted, haccepted, listed_little hL, listed_big hB] at hiff
    by_cases hlittle : AcceptedLittle malloc o
    · have hbig := hiff.mp hlittle
      have hnone : ∀ t ∈ acceptedTypes, swapped eType.width t ∈ acceptedTypes → t = ET_NONE := by
        decide
      exact .inr ⟨hnone _ hlittle.1 hbig.1, hlittle, hbig⟩
    · exact .inl (.inl ⟨hlittle, mt hiff.mpr hlittle⟩)

/-- The sample object as a big-endian file of its class. -/
def sampleImageBig (is64 : Bool) : MappedFile where
  bytes := sampleFile (classLayout is64) .big ET_REL
  size_pos := by revert is64; decide +kernel
  size_lt := by revert is64; decide +kernel

lemma image_sampleImageBig (is64 : Bool) : Image (classLayout is64) .big (sampleObj ET_REL)
    (samplePlacement (classLayout is64)) (sampleImageBig is64) := by
  revert is64
  decide +kernel

theorem encodingsAgree_orderBlind_sampleImage :
    (OrderBlind (fun _ => true) elf64 (sampleObj ET_REL) (samplePlacement elf64)
        (sampleImageBig true) →
      EncodingsAgree (fun _ => true) (sampleImage true) (sampleImageBig true) [] 1) ∧
    (EncodingsAgree (fun _ => true) (sampleImage true) (sampleImageBig true) [] 1 →
      OrderBlind (fun _ => true) elf64 (sampleObj ET_REL) (samplePlacement elf64)
          (sampleImageBig true) ∨
        (sampleObj ET_REL).eType = ET_NONE ∧ AcceptedLittle (fun _ => true) (sampleObj ET_REL) ∧
          AcceptedBig (fun _ => true) elf64 (sampleObj ET_REL) (samplePlacement elf64)
            (sampleImageBig true)) :=
  encodingsAgree_orderBlind _ true _ _ _ _ _ [] 1 (image_sampleImage true)
    (image_sampleImageBig true)

/-- An object file that is listed in one encoding and rejected in the other. -/
theorem not_encodingsAgree_sampleImage :
    Image elf64 .little (sampleObj ET_REL) (samplePlacement elf64) (sampleImage true) ∧
    Image elf64 .big (sampleObj ET_REL) (samplePlacement elf64) (sampleImageBig true) ∧
    ¬EncodingsAgree (fun _ => true) (sampleImage true) (sampleImageBig true) [] 1 := by
  refine ⟨image_sampleImage true, image_sampleImageBig true, ?_⟩
  intro h
  have hlittle : Listed (fun _ => true) (sampleImage true) :=
    (listed_little (image_sampleImage true)).mpr ⟨by decide, rfl⟩
  obtain ⟨output, hbig⟩ := (h.accepted .sortOrder).mp
    ⟨_, (out_manageFile _ _ _).mpr ⟨hlittle, rfl⟩⟩
  have hlisted := ((out_manageFile _ _ _).mp hbig).1
  exact absurd ((listed_big (image_sampleImageBig true)).mp hlisted).1 (by decide)

end FtNm
