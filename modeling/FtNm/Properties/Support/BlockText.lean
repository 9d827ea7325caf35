import FtNm.Construction.NumberText
import FtNm.Properties.Support.DecimalText
import FtNm.Properties.Support.IntegerText

/-!
# What the converters leave in their blocks

`Holds b s` says that the string at the start of the block `b` is `s`; a block holds one string
at most.  The filling loops are compared with `write`, which puts a whole string into a block,
and the counting loops with the lengths of numerals.

`P` is a property of stores that holds of the cells that are filled.
-/

namespace FtNm

open AccessLog Numeral

namespace Block

/-- The string at the start of the block. -/
structure Holds (b : Block) (s : List UInt8) : Prop where
  char : ∀ k < s.length, s[k]? = some (b.cell k)
  nul : b.cell s.length = 0
  nul_notMem : 0 ∉ s

/-- The characters of `s` in the cells from `start` on. -/
def write (b : Block) (start : ℕ) (s : List UInt8) : Block where
  size := b.size
  cell i := if (start : ℤ) ≤ i then s[(i - start).toNat]?.getD (b.cell i) else b.cell i

variable {b : Block} {s t : List UInt8}

/-! ## Strings -/

/-- The terminator of one string is not in front of the terminator of another. -/
lemma Holds.length_le (hs : b.Holds s) (ht : b.Holds t) : t.length ≤ s.length := by
  by_contra hlt
  have hchar := ht.char s.length (Nat.lt_of_not_le hlt)
  rw [hs.nul] at hchar
  exact ht.nul_notMem (List.mem_of_getElem? hchar)

lemma Holds.unique (hs : b.Holds s) (ht : b.Holds t) : s = t := by
  have hlength := le_antisymm (ht.length_le hs) (hs.length_le ht)
  refine List.ext_getElem? fun k => ?_
  by_cases hk : k < s.length
  · rw [hs.char k hk, ht.char k (hlength ▸ hk)]
  · rw [List.getElem?_eq_none (by omega), List.getElem?_eq_none (by omega)]

/-! ## Writing -/

lemma write_nil (b : Block) (start : ℕ) : b.write start [] = b := by
  simp [write]

/-- The cells from `start` on. -/
lemma write_cell (b : Block) (start j : ℕ) (s : List UInt8) :
    (b.write start s).cell (start + j : ℕ) = s[j]?.getD (b.cell (start + j : ℕ)) := by
  have hindex : (((start + j : ℕ) : ℤ) - start).toNat = j := by omega
  rw [write]
  simp only [hindex]
  rw [if_pos (by omega)]

lemma write_cell_of_lt (b : Block) {start : ℕ} (s : List UInt8) {i : ℤ} (h : i < start) :
    (b.write start s).cell i = b.cell i :=
  if_neg (by omega)

/-- Two memories that agree in front of a place and behind it. -/
lemma ext_cells {b' : Block} (start : ℕ) (hsize : b.size = b'.size)
    (hfront : ∀ i < (start : ℤ), b.cell i = b'.cell i)
    (hback : ∀ j : ℕ, b.cell (start + j : ℕ) = b'.cell (start + j : ℕ)) : b = b' := by
  obtain ⟨size, cell⟩ := b
  obtain ⟨size', cell'⟩ := b'
  have hcell : cell = cell' := by
    funext i
    by_cases h : i < start
    · exact hfront i h
    · obtain ⟨j, rfl⟩ : ∃ j : ℕ, i = (start + j : ℕ) := ⟨(i - start).toNat, by omega⟩
      exact hback j
  exact congrArg₂ Block.mk hsize hcell

/-- Writing the last character first. -/
lemma write_concat (b : Block) (start : ℕ) (s : List UInt8) (c : UInt8) :
    write { b with cell := Function.update b.cell (start + s.length : ℕ) c } start s =
      b.write start (s ++ [c]) := by
  refine ext_cells start rfl (fun i hi => ?_) fun j => ?_
  · rw [write_cell_of_lt _ _ hi, write_cell_of_lt _ _ hi]
    exact Function.update_of_ne (by omega) _ _
  · rw [write_cell, write_cell]
    rcases lt_trichotomy j s.length with hlt | rfl | hgt
    · rw [List.getElem?_append_left hlt, List.getElem?_eq_getElem hlt]
      rfl
    · rw [List.getElem?_concat_length, List.getElem?_eq_none le_rfl]
      exact Function.update_self ((start + s.length : ℕ) : ℤ) c b.cell
    · have hlong : (s ++ [c]).length ≤ j := by
        rw [List.length_append, List.length_singleton]
        exact hgt
      rw [List.getElem?_eq_none hgt.le, List.getElem?_eq_none hlong]
      exact Function.update_of_ne (by omega) _ _

/-- Writing the first character first. -/
lemma write_cons (b : Block) (s : List UInt8) (c : UInt8) :
    write { b with cell := Function.update b.cell 0 c } 1 s = b.write 0 (c :: s) := by
  refine ext_cells 0 rfl (fun i hi => ?_) fun j => ?_
  · rw [write_cell_of_lt _ _ hi, write_cell_of_lt _ _ (by omega)]
    exact Function.update_of_ne (by omega) _ _
  · rw [write_cell]
    cases j with
    | zero =>
      have hfirst : ((0 + 0 : ℕ) : ℤ) < (1 : ℕ) := by omega
      rw [write_cell_of_lt _ _ hfirst, List.getElem?_cons_zero]
      exact Function.update_self (0 : ℤ) c b.cell
    | succ j =>
      have hindex : 0 + (j + 1) = 1 + j := by omega
      rw [hindex, write_cell, List.getElem?_cons_succ]
      congr 1
      exact Function.update_of_ne (by omega) _ _

/-- A written string is held if there is a NUL behind it. -/
lemma holds_write (hs : 0 ∉ s) (hnul : b.cell s.length = 0) : (b.write 0 s).Holds s where
  char k hk := by
    have hcell := b.write_cell 0 k s
    rw [Nat.zero_add, List.getElem?_eq_getElem hk] at hcell
    rw [hcell, List.getElem?_eq_getElem hk]
    rfl
  nul := by
    have hcell := b.write_cell 0 s.length s
    rw [Nat.zero_add, List.getElem?_eq_none le_rfl] at hcell
    rw [hcell]
    exact hnul
  nul_notMem := hs

end Block

/-! ## The loops -/

section Loops

variable {P : CharStore → Prop} {b : Block}

lemma put_finishes {i : ℤ} {c : UInt8} (h : P ⟨b.size, i⟩) :
    (b.put i c).Finishes P (· = { b with cell := Function.update b.cell i c }) :=
  Run.finishes_touch (fun _ hu => List.mem_singleton.mp hu ▸ h) rfl

/-- `len` digits, the last one first. -/
def lastDigits (last : ℕ → UInt8) (rest : ℕ → ℕ) : (len nbr : ℕ) → List UInt8
  | 0, _ => []
  | len + 1, nbr => lastDigits last rest len (rest nbr) ++ [last nbr]

lemma length_lastDigits (last : ℕ → UInt8) (rest : ℕ → ℕ) (len nbr : ℕ) :
    (lastDigits last rest len nbr).length = len := by
  induction len generalizing nbr with
  | zero => rfl
  | succ len ih => rw [lastDigits, List.length_append, ih, List.length_singleton]

/-- **The loop of `ft_ltoa` and `shift_bits`.** -/
lemma fill_finishes {start : ℕ} {last : ℕ → UInt8} {rest : ℕ → ℕ} {len : ℕ}
    (hP : ∀ k < len, P ⟨b.size, (start + k : ℕ)⟩) (nbr : ℕ) :
    (fill start last rest len nbr b).Finishes P
      (· = b.write start (lastDigits last rest len nbr)) := by
  induction len generalizing nbr b with
  | zero =>
    refine Run.finishes_pure ?_
    rw [lastDigits, Block.write_nil]
  | succ len ih =>
    have hconcat := b.write_concat start (lastDigits last rest len (rest nbr)) (last nbr)
    rw [length_lastDigits] at hconcat
    refine Run.Finishes.bind_eq (put_finishes (hP len (Nat.lt_succ_self len))) ?_
    rw [lastDigits, ← hconcat]
    refine ih (fun k hk => ?_) _
    exact hP k (Nat.lt_succ_of_lt hk)

/-- **The second loop of `conversion`.** -/
lemma conversionLoop_finishes (n : ℕ) (hP : ∀ k < digitCount n, P ⟨b.size, (k : ℕ)⟩) :
    (conversionLoop n (digitCount n - 1) b).Finishes P
      (· = b.write 0 (numeral 10 digitByte n)) := by
  induction n using Nat.strong_induction_on generalizing b with
  | _ n ih =>
    rw [conversionLoop]
    split_ifs with hn
    · refine Run.finishes_pure ?_
      rw [hn, numeral_zero, Block.write_nil]
    · have hstep : numeral 10 digitByte n =
          numeral 10 digitByte (n / 10) ++ [digitByte (n % 10)] :=
        numeral_step (by norm_num) hn _
      have hcount : digitCount n = digitCount (n / 10) + 1 := by
        rw [digitCount, hstep, List.length_append, List.length_singleton]
        rfl
      have hindex : (digitCount n : ℤ) - 1 = (digitCount (n / 10) : ℕ) := by
        rw [hcount]
        omega
      have hconcat := b.write_concat 0 (numeral 10 digitByte (n / 10)) (digitByte (n % 10))
      have hdiv := Nat.div_lt_self (Nat.pos_of_ne_zero hn) (by norm_num : 1 < 10)
      rw [Nat.zero_add] at hconcat
      rw [hindex, hstep, ← hconcat]
      refine Run.Finishes.bind_eq (put_finishes (hP _ (by omega))) ?_
      refine ih _ hdiv fun k hk => ?_
      exact hP k (by omega)

/-- The first loop of `conversion`. -/
lemma countChars_eq (n nbrChars : ℕ) : countChars n nbrChars = nbrChars + digitCount n := by
  induction n using Nat.strong_induction_on generalizing nbrChars with
  | _ n ih =>
    rw [countChars]
    split_ifs with hn
    · rw [hn, digitCount, numeral_zero]
      rfl
    · have hstep : numeral 10 digitByte n =
          numeral 10 digitByte (n / 10) ++ [digitByte (n % 10)] :=
        numeral_step (by norm_num) hn _
      rw [ih _ (Nat.div_lt_self (Nat.pos_of_ne_zero hn) (by norm_num)), digitCount, digitCount,
        hstep, List.length_append, List.length_singleton]
      omega

/-- `nb_length` counts the digits of the absolute value. -/
lemma nbLength_eq (n : ℤ) : nbLength n = (decimal.canonical n.natAbs).length := by
  have hdiv (n : ℤ) : (n.tdiv 10).natAbs = n.natAbs / decimal.base := Int.natAbs_tdiv n 10
  induction n using nbLength.induct with
  | case1 n hzero =>
    have hlt : n.natAbs / decimal.base = 0 := by rw [← hdiv, hzero, Int.natAbs_zero]
    rw [nbLength, dif_pos hzero, Alphabet.canonical, decimal.padded_succ, hlt, decimal.padded_zero,
      numeral_zero]
    rfl
  | case2 n hne ih =>
    have hstep : n.natAbs / decimal.base ≠ 0 := by
      rw [← hdiv]
      exact Int.natAbs_ne_zero.mpr hne
    rw [nbLength, dif_neg hne, ih, hdiv, Alphabet.canonical_step hstep, List.length_append,
      List.length_singleton]

/-- The digits that the second loop of `ft_ltoa` writes. -/
lemma lastDigits_decimal (len nbr : ℕ) (h : nbr < 10 ^ len) :
    lastDigits (fun nbr => digitByte (nbr % 10)) (· / 10) len nbr = decimal.padded len nbr := by
  induction len generalizing nbr with
  | zero =>
    have hzero : nbr = 0 := by
      rw [pow_zero] at h
      omega
    rw [hzero, decimal.padded_zero, numeral_zero]
    rfl
  | succ len ih =>
    rw [lastDigits, decimal.padded_succ, ih]
    · rfl
    · rw [pow_succ] at h
      omega

/-- The digits that the loop of `shift_bits` writes. -/
lemma lastDigits_shift (mask shift len nbr : ℕ) :
    lastDigits (fun nbr => digitChar (nbr &&& mask)) (· >>> shift) len nbr =
      fillDigits mask shift len nbr := by
  induction len generalizing nbr with
  | zero => rfl
  | succ len ih => rw [lastDigits, fillDigits, ih]

end Loops

end FtNm
