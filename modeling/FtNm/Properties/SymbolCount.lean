import FtNm.Construction.Object
import FtNm.Properties.Support.ParseSpec

/-!
# The number of symbols

The count of a symbol table is a quotient of an untrusted size.  It goes into the byte count of
the allocation, as a `size_t`, and into the size that `mergeSort` takes, as an `int`.
`CountLossless` says that neither conversion changes it.

The product is not checked for overflow and the count is not compared with what an `int` holds.
`countLossless_iff` says that the second limit is the one that matters: below `2 ^ 31` symbols
the product is exact as well.  Objects of the 32-bit class never get that far.
-/

namespace FtNm

open AccessLog

/-- The subscripts of `symb` that `symbLoop` stores to, for `k` entries from `j` on and `count`
symbols counted. -/
def symbStores : (k j count : ℕ) → List ℕ
  | 0, _, _ => []
  | k + 1, j, count => j :: count :: symbStores k (j + 1) (count + 1)

/-- The element `symb[index]` lies in a block of `bytes` bytes. -/
def InBlock (bytes index : ℕ) : Prop := index * sizeofTSymb + sizeofTSymb ≤ bytes

/-- **Lossless count.**  For the symbol table `i`, the byte count of the allocation is the
product, the stores below `n_syms` stay inside the block, and `mergeSort` is handed the number
of symbols that were counted. -/
structure CountLossless (m : MappedFile) (path : List UInt8) (option : EOption) (i : ℕ) :
    Prop where
  bytes : mallocBytes (m.nSyms i) = m.nSyms i * sizeofTSymb
  stores : ∀ index ∈ symbStores (m.nSyms i) 0 0,
    index < m.nSyms i ∧ InBlock (mallocBytes (m.nSyms i)) index
  size : ∀ malloc syms,
    (loadSymtab m.layout malloc (TFile.headed path m option) m.stringTable i).out = .ok syms →
      toInt syms.nSymsCount = syms.nSymsCount

/-! ## Stores and limits -/

/-- The stores `symb[index] = s`, one after the other. -/
def storeAll (symb : List TSymb) (stores : List (ℕ × TSymb)) : List TSymb :=
  stores.foldl (fun symb (index, s) => symb.set index s) symb

/-- **The loop stores at the subscripts of `symbStores`**, in their order, and nowhere else. -/
lemma symbLoop_stores {L : Layout} {file : TFile} {stringTable k j : ℕ} {syms syms' : TSyms}
    (h : (symbLoop L file stringTable k j syms).out = .ok syms') :
    ∃ values : List TSymb, values.length = (symbStores k j syms.nSymsCount).length ∧
      syms'.symb = storeAll syms.symb ((symbStores k j syms.nSymsCount).zip values) ∧
      syms'.nSymsCount = syms.nSymsCount + k := by
  induction k generalizing j syms with
  | zero =>
    obtain rfl : syms = syms' := Except.ok.inj h
    exact ⟨[], rfl, rfl, rfl⟩
  | succ k ih =>
    obtain ⟨s, -, hrest⟩ := Run.out_bind_eq_ok.mp h
    obtain ⟨values, hlength, hsymb, hcount⟩ := ih hrest
    refine ⟨s :: (syms.symb.set j s).getD j .zero :: values, ?_, hsymb, ?_⟩
    · simp only [symbStores, List.length_cons, hlength]
    · rw [hcount, Nat.add_right_comm, Nat.add_assoc]

/-- Storing `symb[j]` and storing `symb[n_syms_count]` walk the array together. -/
lemma mem_symbStores {k j index : ℕ} :
    index ∈ symbStores k j j ↔ j ≤ index ∧ index < j + k := by
  induction k generalizing j with
  | zero =>
    rw [symbStores]
    simp
  | succ k ih =>
    rw [symbStores, List.mem_cons, List.mem_cons, ih]
    omega

/-- The product is exact as long as it fits into a `size_t`. -/
lemma mallocBytes_of_lt {n : ℕ} (h : n * sizeofTSymb < 2 ^ 64) :
    mallocBytes n = n * sizeofTSymb :=
  Nat.mod_eq_of_lt h

lemma inBlock_of_lt {n index : ℕ} (h : index < n) : InBlock (n * sizeofTSymb) index := by
  have hle : (index + 1) * sizeofTSymb ≤ n * sizeofTSymb := Nat.mul_le_mul_right _ h
  rw [Nat.add_mul, Nat.one_mul] at hle
  exact hle

/-- The numbers that `toInt` keeps. -/
lemma toInt_eq_iff {n : ℕ} : toInt n = n ↔ n < 2 ^ 31 := by
  refine ⟨fun h => ?_, toInt_of_lt⟩
  rw [toInt] at h
  split_ifs at h with hmod <;> omega

/-- The count of a table that was read. -/
lemma nSymsCount_of_out {m : MappedFile} {path : List UInt8} {option : EOption} {i : ℕ}
    {malloc : ℕ → Bool} {syms : TSyms}
    (h : (loadSymtab m.layout malloc (TFile.headed path m option) m.stringTable i).out =
      .ok syms) : syms.nSymsCount = m.nSyms i := by
  rw [out_loadSymtab m path option malloc i] at h
  split_ifs at h
  cases h
  rfl

/-! ## The condition -/

/-- **When the count loses nothing.**  Exactly when it is a positive `int` or zero. -/
theorem countLossless_iff (m : MappedFile) (path : List UInt8) (option : EOption) (i : ℕ) :
    CountLossless m path option i ↔ m.nSyms i < 2 ^ 31 := by
  constructor
  · intro h
    have hout := out_loadSymtab m path option (fun _ => true) i
    have hsize : toInt (m.nSyms i) = m.nSyms i := h.size _ _ hout
    exact toInt_eq_iff.mp hsize
  · intro hlt
    have hbytes : mallocBytes (m.nSyms i) = m.nSyms i * sizeofTSymb := by
      apply mallocBytes_of_lt
      rw [sizeofTSymb]
      omega
    refine ⟨hbytes, fun index hindex => ?_, fun malloc syms hsyms => ?_⟩
    · have hindex' : index < m.nSyms i := by simpa using (mem_symbStores.mp hindex).2
      rw [hbytes]
      exact ⟨hindex', inBlock_of_lt hindex'⟩
    · rw [nSymsCount_of_out hsyms]
      exact toInt_of_lt hlt

/-! ## The 32-bit class -/

lemma uintAt_lt (m : MappedFile) (w p : ℕ) : m.uintAt w p < 256 ^ w := by
  induction w generalizing p with
  | zero => exact Nat.one_pos
  | succ w ih =>
    have hbyte := (m.byteAt p).toNat_lt
    have hrest := ih (p + 1)
    rw [MappedFile.uintAt, Nat.pow_succ]
    omega

/-- In a 32-bit object the size has 32 bits, and the count is far from the limits. -/
theorem countLossless_of_class32 {m : MappedFile} (h : m.is64 = false) (path : List UInt8)
    (option : EOption) (i : ℕ) : CountLossless m path option i := by
  rw [countLossless_iff]
  have hlayout : m.layout = elf32 := by simp [MappedFile.layout, h]
  have hsize := uintAt_lt m elf32.shSize.width
    (m.shoff + elf32.shentsize * i + elf32.shSize.off)
  have hdiv : m.nSyms i = m.uintAt elf32.shSize.width
      (m.shoff + elf32.shentsize * i + elf32.shSize.off) / elf32.symentsize := by
    simp only [MappedFile.nSyms, MappedFile.shdr, MappedFile.fieldAt, hlayout]
  have hwidth : elf32.shSize.width = 4 := rfl
  have hentsize : elf32.symentsize = 16 := rfl
  rw [hdiv, hentsize]
  rw [hwidth] at hsize ⊢
  omega

/-! ## A count that is lost -/

/-- A size of which the entries take `24` bytes more than `2 ^ 64` in memory. -/
def hugeSize : ℕ := 24 * 461168601842738791

/-- A file with one section, a symbol table of that size. -/
def hugeTable : MappedFile where
  bytes := ehdrBytes elf64 .little ET_DYN 64 1 0 ++
    shdrBytes elf64 .little 0 SHT_SYMTAB 0 0 hugeSize 0
  size_pos := by decide +kernel
  size_lt := by decide +kernel

/-- The headers are accepted, the table is found, and the block for its entries is too small
for the first of them. -/
theorem not_countLossless_hugeTable :
    HeaderOk hugeTable ∧ hugeTable.symtabIndex = some 0 ∧
      hugeTable.nSyms 0 = 461168601842738791 ∧ mallocBytes (hugeTable.nSyms 0) = 24 ∧
      ¬CountLossless hugeTable [] .sortOrder 0 := by
  have hcount : hugeTable.nSyms 0 = 461168601842738791 := by decide
  refine ⟨by decide, by decide, hcount, by rw [hcount]; rfl, fun h => ?_⟩
  have hbytes := h.bytes
  rw [hcount] at hbytes
  exact absurd hbytes (by decide)

end FtNm
