import FtNm.Construction.CPrintf
import FtNm.Construction.DecimalStrings
import FtNm.Framework.DigitValue

/-!
# What the decimal-string routines return

`decimal` is the alphabet of the routines.  Each of them is compared with an operation on
numbers: `sumString_eq` and `multiplyString_eq` give the result for strings of any length, with
what the `int` cursors see of the operands, and the lemmas behind them are for operands that the
cursors see whole.
-/

namespace FtNm

open Numeral

/-- The decimal digits. -/
def decimal : Alphabet UInt8 where
  base := 10
  digit := digitByte
  val := digitVal
  one_lt := by norm_num
  val_digit := by decide

@[simp] lemma decimal_base : decimal.base = 10 := rfl

@[simp] lemma decimal_val (c : UInt8) : decimal.val c = digitVal c := rfl

@[simp] lemma decimal_digit (d : ℕ) : decimal.digit d = digitByte d := rfl

/-- The zero of the alphabet. -/
lemma digitByte_zero : digitByte 0 = '0'.toUInt8 := rfl

lemma decimal_isDigit_iff {c : UInt8} : decimal.IsDigit c ↔ IsDigit c := by
  constructor
  · rintro ⟨d, hd, rfl⟩
    have hdigits : ∀ d < 10, IsDigit (digitByte d) := by decide
    exact hdigits d hd
  · intro hc
    have hdigits : ∀ c ∈ cstr "0123456789", digitByte (digitVal c) = c ∧ digitVal c < 10 :=
      forall_mem_of_all (by decide)
    exact ⟨digitVal c, (hdigits c hc).2, (hdigits c hc).1⟩

/-- Digits are no terminators. -/
lemma nulFree_of_isDigits {s : List UInt8} (h : decimal.IsDigits s) : 0 ∉ s := by
  intro hmem
  have hdigit := decimal_isDigit_iff.mp (h 0 hmem)
  exact absurd hdigit (by decide)

/-! ## Addition -/

/-- The value that a cursor has before it. -/
lemma value_reverse_cons (c : UInt8) (cs : List UInt8) :
    decimal.value (c :: cs).reverse = decimal.value cs.reverse * 10 + digitVal c := by
  rw [List.reverse_cons, Alphabet.value_concat, decimal_base, decimal_val]

lemma value_reverse_tail (cs : List UInt8) :
    decimal.value cs.reverse =
      decimal.value cs.tail.reverse * 10 + (cs.head?.map digitVal).getD 0 := by
  cases cs with
  | nil => rfl
  | cons c cs => exact value_reverse_cons c cs

/-- The result of the loop, in front of what it has put together already. -/
def joined (s strSum : List UInt8) : Option (List UInt8) :=
  if s = [] ∨ s.length + strSum.length ≤ 2 ^ 31 then some (s ++ strSum) else none

/-- One digit more. -/
lemma joined_concat (s : List UInt8) (c : UInt8) (strSum : List UInt8) :
    (ftStrjoin [c] strSum).bind (joined s) = joined (s ++ [c]) strSum := by
  have hone : [c].length < 2 ^ 31 := by
    rw [List.length_singleton]
    norm_num
  unfold ftStrjoin joined
  by_cases hlt : strSum.length < 2 ^ 31
  · rw [if_pos ⟨hone, hlt⟩, Option.bind_some, List.append_assoc]
    by_cases hs : s = []
    · subst hs
      rw [if_pos (.inl rfl), if_pos]
      right
      simp only [List.nil_append, List.length_singleton]
      omega
    · have hlength : s.length + ([c] ++ strSum).length = (s ++ [c]).length + strSum.length := by
        simp only [List.length_append]
        omega
      rw [hlength]
      exact if_congr (by simp [hs]) rfl rfl
  · rw [if_neg (fun h => hlt h.2), Option.bind_none, if_neg]
    rw [not_or, List.length_append, List.length_singleton]
    exact ⟨by simp, by omega⟩

/-- The last digit of what is to be added, and the digits in front of it. -/
lemma padded_step {cs ds : List UInt8} {carry sum : ℕ} (h : ¬(cs = [] ∧ ds = [] ∧ carry = 0))
    (hsum : carry + (cs.head?.map digitVal).getD 0 + (ds.head?.map digitVal).getD 0 = sum) :
    decimal.padded (max cs.length ds.length)
        (decimal.value cs.reverse + decimal.value ds.reverse + carry) =
      decimal.padded (max cs.tail.length ds.tail.length)
        (decimal.value cs.tail.reverse + decimal.value ds.tail.reverse + sum / 10) ++
          [digitByte (sum % 10)] := by
  have htotal : decimal.value cs.reverse + decimal.value ds.reverse + carry =
      10 * (decimal.value cs.tail.reverse + decimal.value ds.tail.reverse) + sum := by
    rw [value_reverse_tail cs, value_reverse_tail ds, ← hsum]
    ring
  have hlast : digitByte (sum % 10) = decimal.digit
      ((10 * (decimal.value cs.tail.reverse + decimal.value ds.tail.reverse) + sum) %
        decimal.base) := by
    rw [decimal_base, Nat.mul_add_mod, decimal_digit]
  have hfront : decimal.value cs.tail.reverse + decimal.value ds.tail.reverse + sum / 10 =
      (10 * (decimal.value cs.tail.reverse + decimal.value ds.tail.reverse) + sum) /
        decimal.base := by
    rw [decimal_base, Nat.mul_add_div (by norm_num)]
  rw [htotal, hlast, hfront]
  by_cases hdigits : cs = [] ∧ ds = []
  · obtain ⟨rfl, rfl⟩ := hdigits
    have hcarry : sum ≠ 0 := by
      intro hzero
      rw [hzero] at hsum
      exact h ⟨rfl, rfl, by simpa using hsum⟩
    exact decimal.padded_zero_of_ne (by simpa using hcarry)
  · have hlength : max cs.length ds.length = max cs.tail.length ds.tail.length + 1 := by
      rw [List.length_tail, List.length_tail]
      have hpos : 0 < cs.length ∨ 0 < ds.length := by
        rw [List.length_pos_iff, List.length_pos_iff]
        tauto
      omega
    rw [hlength]
    exact decimal.padded_succ _ _

/-- **The loop of `sum_string`.**  What is left of the two operands is added to the carry, in as
many digits as the longer of them has. -/
lemma sumStringLoop_eq (cs ds : List UInt8) (carry : ℕ) (strSum : List UInt8) :
    sumStringLoop cs ds carry strSum =
      joined (decimal.padded (max cs.length ds.length)
        (decimal.value cs.reverse + decimal.value ds.reverse + carry)) strSum := by
  induction cs, ds, carry, strSum using sumStringLoop.induct with
  | case1 cs ds carry strSum hend =>
    rw [sumStringLoop, if_pos hend]
    obtain ⟨rfl, rfl, rfl⟩ := hend
    rw [joined, if_pos (.inl (by rfl))]
    rfl
  | case2 cs ds carry strSum hend sum sum₁ sum₂ ih =>
    have hrest := funext ih
    rw [padded_step hend rfl, ← joined_concat, sumStringLoop, if_neg hend]
    show (ftStrjoin [digitByte (sum₂ % 10)] strSum).bind _ = _
    rw [hrest]

/-- What a cursor sees of its operand. -/
def seen (num : List UInt8) : List UInt8 := num.take (int32 (num.length - 1) + 1).toNat

/-- The number that `sum_string` writes, in the digits that it writes. -/
def sumText (num1 num2 : List UInt8) : List UInt8 :=
  decimal.padded (max num1.length num2.length) (decimal.value num1 + decimal.value num2)

/-- **`sum_string`.** -/
lemma sumString_eq (num1 num2 : List UInt8) :
    sumString num1 num2 =
      if (sumText (seen num1) (seen num2)).length ≤ 2 ^ 31 then
        some (sumText (seen num1) (seen num2))
      else none := by
  have hcursor (num : List UInt8) : cursor num = (seen num).reverse := rfl
  rw [sumString, sumStringLoop_eq, hcursor, hcursor, List.length_reverse, List.length_reverse,
    List.reverse_reverse, List.reverse_reverse, add_zero]
  unfold joined
  rw [List.append_nil, List.length_nil, add_zero]
  refine if_congr (or_iff_right_of_imp fun hnil => ?_) rfl rfl
  rw [hnil]
  exact Nat.zero_le _

lemma seen_of_le {num : List UInt8} (h : num.length ≤ 2 ^ 31) : seen num = num := by
  have hint : int32 (num.length - 1) = num.length - 1 := by
    apply int32_of_mem <;> omega
  unfold seen
  rw [hint, List.take_of_length_le]
  omega

/-- The sum of two numbers has at most one digit more than the longer of them. -/
lemma add_lt_pow {num1 num2 : List UInt8} (h1 : decimal.IsDigits num1)
    (h2 : decimal.IsDigits num2) :
    decimal.value num1 + decimal.value num2 < 10 ^ (max num1.length num2.length + 1) := by
  have hlt1 : decimal.value num1 < 10 ^ max num1.length num2.length :=
    h1.value_lt.trans_le (Nat.pow_le_pow_right (by norm_num) (Nat.le_max_left _ _))
  have hlt2 : decimal.value num2 < 10 ^ max num1.length num2.length :=
    h2.value_lt.trans_le (Nat.pow_le_pow_right (by norm_num) (Nat.le_max_right _ _))
  rw [pow_succ]
  omega

lemma length_sumText {num1 num2 : List UInt8} (h1 : decimal.IsDigits num1)
    (h2 : decimal.IsDigits num2) :
    (sumText num1 num2).length = max num1.length num2.length +
      if 10 ^ max num1.length num2.length ≤ decimal.value num1 + decimal.value num2 then 1
      else 0 :=
  decimal.length_padded (add_lt_pow h1 h2)

/-- Operands whose sum surely has room. -/
lemma sumString_of_lt {num1 num2 : List UInt8} (h1 : decimal.IsDigits num1)
    (h2 : decimal.IsDigits num2) (hlt1 : num1.length < 2 ^ 31) (hlt2 : num2.length < 2 ^ 31) :
    sumString num1 num2 = some (sumText num1 num2) := by
  rw [sumString_eq, seen_of_le hlt1.le, seen_of_le hlt2.le, if_pos]
  rw [length_sumText h1 h2]
  split_ifs <;> omega

/-! ## Multiplication -/

/-- The step of the inner loop: a digit of the result, and a carry that is a digit again. -/
lemma product_lt {d a carry x : ℕ} (hd : d < 10) (ha : a < 10) (hcarry : carry < 10)
    (hx : x < 10) : d * a + carry + x < 100 := by
  have hle : d * a ≤ 9 * 9 := Nat.mul_le_mul (Nat.le_of_lt_succ hd) (Nat.le_of_lt_succ ha)
  omega

/-- Behind the last round the carry goes to a cell that is still a zero. -/
lemma multiplyRow_carry (T : List UInt8) (d : ℕ) (P Q : List UInt8) {carry : ℕ}
    (hcarry : carry < 10) : multiplyRow T d 0 P.length carry (P ++ '0'.toUInt8 :: Q) =
      P ++ (decimal.padded 1 carry ++ Q) := by
  have hone : decimal.padded 1 carry = [digitByte carry] := decimal.padded_one_of_lt hcarry
  rw [multiplyRow, hone, List.singleton_append]
  split_ifs with hpos
  · simp
  · obtain rfl : carry = 0 := by omega
    rfl

/-- A round stores a digit and carries to the next cell. -/
lemma multiplyRow_concat (d : ℕ) (P A T : List UInt8) (a : UInt8) {X : List UInt8} (x : UInt8)
    (Q : List UInt8) (hlength : X.length = A.length) (carry : ℕ) :
    multiplyRow (A ++ a :: T) d (A.length + 1) (P.length + (A.length + 1)) carry
        (P ++ ('0'.toUInt8 :: X ++ x :: Q)) =
      multiplyRow (A ++ a :: T) d A.length (P.length + A.length)
        ((d * digitVal a + carry + digitVal x) / 10)
        (P ++ ('0'.toUInt8 :: X ++
          digitByte ((d * digitVal a + carry + digitVal x) % 10) :: Q)) := by
  have hreadA : (A ++ a :: T).getD A.length 0 = a := by simp
  have hk : P.length + (A.length + 1) = (P ++ '0'.toUInt8 :: X).length := by simp [hlength]
  have hbuffer (c : UInt8) :
      P ++ ('0'.toUInt8 :: X ++ c :: Q) = (P ++ '0'.toUInt8 :: X) ++ c :: Q := by
    simp
  have hreadX : ((P ++ '0'.toUInt8 :: X) ++ x :: Q).getD (P ++ '0'.toUInt8 :: X).length 0 = x := by
    simp
  have hstore (c : UInt8) : ((P ++ '0'.toUInt8 :: X) ++ x :: Q).set
      (P ++ '0'.toUInt8 :: X).length c = (P ++ '0'.toUInt8 :: X) ++ c :: Q := by
    simp
  have hnext : (P ++ '0'.toUInt8 :: X).length - 1 = P.length + A.length := by
    rw [← hk]
    omega
  rw [hbuffer, hbuffer, hk, multiplyRow, hreadA, hreadX, hstore, hnext]

/-- The digits of a row, from those of the row without its last column. -/
lemma padded_row (n d carry : ℕ) (A X : List UInt8) (a x : UInt8) :
    decimal.padded (n + 1) (decimal.value (X ++ [x]) + d * decimal.value (A ++ [a]) + carry) =
      decimal.padded n (decimal.value X + d * decimal.value A +
          (d * digitVal a + carry + digitVal x) / 10) ++
        [digitByte ((d * digitVal a + carry + digitVal x) % 10)] := by
  have htotal : decimal.value (X ++ [x]) + d * decimal.value (A ++ [a]) + carry =
      10 * (decimal.value X + d * decimal.value A) + (d * digitVal a + carry + digitVal x) := by
    rw [Alphabet.value_concat, Alphabet.value_concat, decimal_base, decimal_val, decimal_val]
    ring
  rw [decimal.padded_succ, htotal, decimal_base, Nat.mul_add_div (by norm_num), Nat.mul_add_mod]
  rfl

/-- **The inner loop.**  `X` is what the row is added to, with the cell of the last carry, still a
zero, in front of it.  The induction goes from the last digits of `X` and of the first factor to
the front. -/
lemma multiplyRow_eq {d : ℕ} (hd : d < 10) (P : List UInt8) (A : List UInt8)
    (hA : decimal.IsDigits A) (T X Q : List UInt8) (hX : decimal.IsDigits X)
    (hlength : X.length = A.length) {carry : ℕ} (hcarry : carry < 10) :
    multiplyRow (A ++ T) d A.length (P.length + A.length) carry
        (P ++ ('0'.toUInt8 :: X ++ Q)) =
      P ++ (decimal.padded (A.length + 1) (decimal.value X + d * decimal.value A + carry) ++
        Q) := by
  induction A using List.reverseRecOn generalizing T X Q carry with
  | nil =>
    obtain rfl : X = [] := List.length_eq_zero_iff.mp hlength
    simpa using multiplyRow_carry T d P Q hcarry
  | append_singleton A a ih =>
    obtain ⟨X, x, rfl⟩ : ∃ X' x, X = X' ++ [x] := by
      rcases List.eq_nil_or_concat X with rfl | ⟨X', x, rfl⟩
      · simp at hlength
      · exact ⟨X', x, List.concat_eq_append⟩
    obtain ⟨hA, ha⟩ := Alphabet.isDigits_append.mp hA
    obtain ⟨hX, hx⟩ := Alphabet.isDigits_append.mp hX
    have ha : digitVal a < 10 := (ha a (List.mem_singleton_self a)).val_lt
    have hx : digitVal x < 10 := (hx x (List.mem_singleton_self x)).val_lt
    have hlength : X.length = A.length := by simpa using hlength
    have hsum := product_lt hd ha hcarry hx
    have hrest := ih hA (a :: T) X
      (digitByte ((d * digitVal a + carry + digitVal x) % 10) :: Q) hX hlength
      (show (d * digitVal a + carry + digitVal x) / 10 < 10 by omega)
    have hround := multiplyRow_concat d P A T a x Q hlength carry
    have hlen : (A ++ [a]).length = A.length + 1 := by simp
    rw [padded_row, hlen]
    simp only [List.append_assoc, List.cons_append] at hround hrest ⊢
    exact hround.trans hrest

/-- A row added to the sum `S` of the rows below it. -/
def rowSum (d : ℕ) (A S : List UInt8) : List UInt8 :=
  decimal.padded (A.length + 1) (decimal.value (S.take A.length) + d * decimal.value A) ++
    S.drop A.length

/-- A row has one digit more than the first factor. -/
lemma row_lt {d : ℕ} (hd : d < 10) {A X : List UInt8} (hA : decimal.IsDigits A)
    (hX : decimal.IsDigits X) (hlength : X.length = A.length) :
    decimal.value X + d * decimal.value A < 10 ^ (A.length + 1) := by
  have hltA := hA.value_lt
  have hltX := hX.value_lt
  rw [hlength] at hltX
  have hle : d * decimal.value A ≤ 9 * decimal.value A := Nat.mul_le_mul_right _ (by omega)
  rw [decimal_base] at hltA hltX
  rw [pow_succ]
  omega

section Row

variable {d : ℕ} {A S : List UInt8}

lemma isDigits_rowSum (d : ℕ) (A : List UInt8) (hS : decimal.IsDigits S) :
    decimal.IsDigits (rowSum d A S) :=
  Alphabet.isDigits_append.mpr ⟨decimal.isDigits_padded _ _, hS.drop _⟩

lemma length_rowSum (hd : d < 10) (hA : decimal.IsDigits A) (hS : decimal.IsDigits S)
    (hle : A.length ≤ S.length) : (rowSum d A S).length = S.length + 1 := by
  have hlt := row_lt hd hA (hS.take A.length) (List.length_take_of_le hle)
  rw [rowSum, List.length_append, decimal.length_padded_of_lt hlt, List.length_drop]
  omega

/-- The row is worth a power of ten for every digit behind it. -/
lemma value_rowSum (d : ℕ) (A S : List UInt8) :
    decimal.value (rowSum d A S) =
      decimal.value S + d * decimal.value A * 10 ^ (S.length - A.length) := by
  have hsplit := decimal.value_append (S.take A.length) (S.drop A.length)
  rw [List.take_append_drop] at hsplit
  rw [rowSum, Alphabet.value_append, Alphabet.value_padded, hsplit, List.length_drop,
    decimal_base]
  ring

/-- The inner loop on the whole buffer, where `n` digits of the second factor are left. -/
lemma multiplyRow_rowSum (hd : d < 10) (hA : decimal.IsDigits A) (T : List UInt8)
    (hS : decimal.IsDigits S) (hle : A.length ≤ S.length) (n : ℕ) :
    multiplyRow (A ++ T) d A.length (n + A.length) 0
        (List.replicate (n + 1) '0'.toUInt8 ++ S) =
      List.replicate n '0'.toUInt8 ++ rowSum d A S := by
  have hrow := multiplyRow_eq hd (List.replicate n '0'.toUInt8) A hA T (S.take A.length)
    (S.drop A.length) (hS.take _) (List.length_take_of_le hle) (show 0 < 10 by norm_num)
  rw [List.length_replicate, List.cons_append, List.take_append_drop, Nat.add_zero] at hrow
  rw [List.replicate_succ', List.append_assoc, List.singleton_append, hrow]
  rfl

end Row

/-- **The outer loop.**  `S` is the sum of the rows so far; the cells in front of it are still
zeros, so the carry of the next row is stored where there is nothing to add it to. -/
lemma ftMultiply_eq {A : List UInt8} (hA : decimal.IsDigits A) (T : List UInt8) {len2 : ℕ}
    (B : List UInt8) (hB : decimal.IsDigits B) (hlen2 : B.length ≤ len2) (U S : List UInt8)
    (hS : decimal.IsDigits S) (hle : A.length ≤ S.length) :
    ftMultiply (A ++ T) (B ++ U) A.length len2 (A.length + len2) B.length
        (List.replicate B.length '0'.toUInt8 ++ S) =
      decimal.padded (B.length + S.length) (decimal.value S +
        decimal.value A * decimal.value B * 10 ^ (S.length - A.length)) := by
  induction B using List.reverseRecOn generalizing U S with
  | nil =>
    rw [List.length_nil, Nat.zero_add, Alphabet.value_nil, Nat.mul_zero, Nat.zero_mul,
      Nat.add_zero, hS.padded_value]
    rfl
  | append_singleton B b ih =>
    obtain ⟨hB, hb⟩ := Alphabet.isDigits_append.mp hB
    have hb : digitVal b < 10 := (hb b (List.mem_singleton_self b)).val_lt
    rw [List.length_append, List.length_singleton] at hlen2 ⊢
    have hk : A.length + len2 - (len2 - B.length) = B.length + A.length := by omega
    have hread : (B ++ b :: U).getD B.length 0 = b := by simp
    have hlength := length_rowSum hb hA hS hle
    have hrest := ih hB (Nat.le_of_succ_le hlen2) (b :: U) (rowSum (digitVal b) A S)
      (isDigits_rowSum _ _ hS) (by omega)
    rw [List.append_assoc, List.singleton_append, ftMultiply, hread, hk,
      multiplyRow_rowSum hb hA T hS hle, hrest, hlength, value_rowSum, Alphabet.value_concat,
      Nat.succ_sub hle, pow_succ, decimal_base, decimal_val]
    congr 1
    · omega
    · ring

lemma length_multiplyRow (num1 : List UInt8) (d j k carry : ℕ) (res : List UInt8) :
    (multiplyRow num1 d j k carry res).length = res.length := by
  induction j generalizing k carry res with
  | zero =>
    rw [multiplyRow]
    split_ifs
    · exact List.length_set
    · rfl
  | succ j ih => rw [multiplyRow, ih, List.length_set]

/-- The product is computed in place. -/
lemma length_ftMultiply (num1 num2 : List UInt8) (len1 len2 len i : ℕ) (res : List UInt8) :
    (ftMultiply num1 num2 len1 len2 len i res).length = res.length := by
  induction i generalizing res with
  | zero => rfl
  | succ i ih => rw [ftMultiply, ih, length_multiplyRow]

/-- Without digits in the first factor no row stores anything. -/
lemma ftMultiply_nil (num1 num2 : List UInt8) (len2 len i : ℕ) (res : List UInt8) :
    ftMultiply num1 num2 0 len2 len i res = res := by
  induction i with
  | zero => rfl
  | succ i ih => exact ih

/-- The digits of a factor that the `int` loops go over. -/
def covered (num : List UInt8) : List UInt8 := num.take (int32 num.length).toNat

lemma int32_natCast_le (n : ℕ) : int32 n ≤ n := by
  have hlt := (int32_le n).2
  by_cases h : n < 2 ^ 31
  · rw [int32_of_mem (by omega) (by omega)]
  · omega

lemma length_covered (num : List UInt8) : (covered num).length = (int32 num.length).toNat := by
  have hle := int32_natCast_le num.length
  exact List.length_take_of_le (by omega)

lemma covered_of_lt {num : List UInt8} (h : num.length < 2 ^ 31) : covered num = num := by
  unfold covered
  rw [int32_of_mem (by omega) (by omega), Int.toNat_natCast, List.take_length]

/-- The buffer that `ft_multiply` leaves behind. -/
lemma ftMultiply_buffer {num1 num2 : List UInt8} (h1 : decimal.IsDigits num1)
    (h2 : decimal.IsDigits num2) :
    ftMultiply num1 num2 (int32 num1.length).toNat (int32 num2.length).toNat
        (int32 num1.length + int32 num2.length).toNat (int32 num2.length).toNat
        (List.replicate (int32 num1.length + int32 num2.length).toNat '0'.toUInt8) =
      decimal.padded (int32 num1.length + int32 num2.length).toNat
        (decimal.value (covered num1) * decimal.value (covered num2)) := by
  have hlen1 := length_covered num1
  have hlen2 := length_covered num2
  have hzeros (n : ℕ) : decimal.padded n 0 = List.replicate n '0'.toUInt8 := by
    rw [Alphabet.padded, numeral_zero, padLeft, List.append_nil, List.length_nil, Nat.sub_zero]
    rfl
  rcases lt_or_ge (int32 num1.length) 0 with hneg1 | hpos1
  · rw [Int.toNat_of_nonpos hneg1.le] at hlen1 ⊢
    rw [ftMultiply_nil, List.length_eq_zero_iff.mp hlen1, Alphabet.value_nil, Nat.zero_mul, hzeros]
  · rcases lt_or_ge (int32 num2.length) 0 with hneg2 | hpos2
    · rw [Int.toNat_of_nonpos hneg2.le] at hlen2 ⊢
      rw [ftMultiply, List.length_eq_zero_iff.mp hlen2, Alphabet.value_nil, Nat.mul_zero, hzeros]
    · have hdigits1 : decimal.IsDigits (covered num1) := h1.take _
      have hdigits2 : decimal.IsDigits (covered num2) := h2.take _
      have hrows := ftMultiply_eq hdigits1 (num1.drop (int32 num1.length).toNat) (covered num2)
        hdigits2 le_rfl (num2.drop (int32 num2.length).toNat)
        (List.replicate (covered num1).length '0'.toUInt8)
        (decimal.isDigits_replicate _ decimal.base_pos) List.length_replicate.ge
      have hvalue : decimal.value (List.replicate (covered num1).length '0'.toUInt8) = 0 :=
        decimal.value_zeros _
      rw [hvalue, List.length_replicate, Nat.sub_self, pow_zero, Nat.mul_one, Nat.zero_add,
        ← List.replicate_add, hlen1, hlen2] at hrows
      rw [Int.toNat_add hpos1 hpos2, Nat.add_comm]
      have hsplit1 : covered num1 ++ num1.drop (int32 num1.length).toNat = num1 :=
        List.take_append_drop _ _
      have hsplit2 : covered num2 ++ num2.drop (int32 num2.length).toNat = num2 :=
        List.take_append_drop _ _
      rw [hsplit1, hsplit2, Nat.add_comm (int32 num1.length).toNat] at hrows
      exact hrows

lemma lt_of_productFits {len1 len2 : ℤ} (h : ProductFits len1 len2) :
    (len1 + len2).toNat < 2 ^ 31 := by
  obtain ⟨-, hlt⟩ := h
  omega

lemma ftStrdup_of_lt {s : List UInt8} (h : s.length < 2 ^ 31) : ftStrdup s = some s := if_pos h

/-- **`multiply_string`.**  The product of what the loops see of the factors, without leading
zeros. -/
lemma multiplyString_eq {num1 num2 : List UInt8} (h1 : decimal.IsDigits num1)
    (h2 : decimal.IsDigits num2) :
    multiplyString num1 num2 =
      if ProductFits (int32 num1.length) (int32 num2.length) then
        some (numeral 10 digitByte
          (decimal.value (covered num1) * decimal.value (covered num2)))
      else none := by
  rw [multiplyString]
  by_cases hfits : ProductFits (int32 num1.length) (int32 num2.length)
  · have hbuffer := ftMultiply_buffer h1 h2
    have hlength := length_ftMultiply num1 num2 (int32 num1.length).toNat
      (int32 num2.length).toNat (int32 num1.length + int32 num2.length).toNat
      (int32 num2.length).toNat
      (List.replicate (int32 num1.length + int32 num2.length).toNat '0'.toUInt8)
    rw [List.length_replicate, hbuffer] at hlength
    have hlt := lt_of_productFits hfits
    rw [← hlength] at hlt
    have hstrip := (List.dropWhile_sublist (l := decimal.padded
      (int32 num1.length + int32 num2.length).toNat
      (decimal.value (covered num1) * decimal.value (covered num2)))
      (· = '0'.toUInt8)).length_le
    rw [if_pos hfits, if_pos hfits]
    show (ftStrdup (ftMultiply _ _ _ _ _ _ _)).bind _ = _
    rw [hbuffer, ftStrdup_of_lt hlt, Option.bind_some, ftStrdup_of_lt (hstrip.trans_lt hlt)]
    exact congrArg some (decimal.dropZeros_padded _ _)
  · rw [if_neg hfits, if_neg hfits]

/-- Factors that the loops see whole. -/
lemma multiplyString_of_lt {num1 num2 : List UInt8} (h1 : decimal.IsDigits num1)
    (h2 : decimal.IsDigits num2) (hlt : num1.length + num2.length + 1 < 2 ^ 31) :
    multiplyString num1 num2 =
      some (numeral 10 digitByte (decimal.value num1 * decimal.value num2)) := by
  have hint1 : int32 num1.length = num1.length := by
    apply int32_of_mem <;> omega
  have hint2 : int32 num2.length = num2.length := by
    apply int32_of_mem <;> omega
  have hfits : ProductFits (int32 num1.length) (int32 num2.length) := by
    rw [hint1, hint2]
    constructor <;> omega
  rw [multiplyString_eq h1 h2, if_pos hfits, covered_of_lt (by omega), covered_of_lt (by omega)]

/-! ## Powers -/

/-- The number of decimal digits, none for `0`. -/
def digitCount (n : ℕ) : ℕ := (numeral 10 digitByte n).length

lemma digitCount_le {n k : ℕ} (h : n < 10 ^ k) : digitCount n ≤ k :=
  length_numeral_le (by norm_num) h _

lemma isDigits_numeral (n : ℕ) : decimal.IsDigits (numeral 10 digitByte n) :=
  decimal.isDigits_numeral n

lemma value_numeral (n : ℕ) : decimal.value (numeral 10 digitByte n) = n :=
  decimal.value_numeral n

lemma ftLargePow_zero (nb : List UInt8) : ftLargePow 0 nb = some (numeral 10 digitByte 1) := by
  have hone : numeral 10 digitByte 1 = cstr "1" := by
    have hstep := numeral_step (b := 10) (by norm_num) one_ne_zero digitByte
    rw [Nat.div_eq_of_lt (by norm_num), Nat.mod_eq_of_lt (by norm_num), numeral_zero] at hstep
    exact hstep
  rw [ftLargePow, dif_pos rfl, hone]
  rfl

lemma ftLargePow_even {pow : ℕ} (h : pow ≠ 0) (hparity : pow % 2 = 0) (nb : List UInt8) :
    ftLargePow pow nb = (ftLargePow (pow / 2) nb).bind fun tmp => multiplyString tmp tmp := by
  rw [ftLargePow, dif_neg h]
  simp only [hparity, if_true]

lemma ftLargePow_odd {pow : ℕ} (hparity : ¬pow % 2 = 0) (nb : List UInt8) :
    ftLargePow pow nb = (ftLargePow (pow / 2) nb).bind fun tmp =>
      (multiplyString tmp tmp).bind fun square => multiplyString square nb := by
  have h : pow ≠ 0 := by
    rintro rfl
    exact hparity rfl
  rw [ftLargePow, dif_neg h]
  simp only [hparity, if_false]

/-- The two ways a power is put together. -/
lemma pow_even (v : ℕ) {n : ℕ} (h : n % 2 = 0) : v ^ n = v ^ (n / 2) * v ^ (n / 2) := by
  rw [← pow_add]
  congr 1
  omega

lemma pow_odd (v : ℕ) {n : ℕ} (h : ¬n % 2 = 0) : v ^ n = v ^ (n / 2) * v ^ (n / 2) * v := by
  rw [← pow_add, ← pow_succ]
  congr 1
  omega

/-- The factors of the multiplications that lead to the power `n` have together less than
`2 ^ 31 - 1` digits. -/
def PowStepFits (nb : List UInt8) (n : ℕ) : Prop :=
  2 * digitCount (decimal.value nb ^ (n / 2)) + 1 < 2 ^ 31 ∧
    (n % 2 = 1 → digitCount (decimal.value nb ^ (n - 1)) + nb.length + 1 < 2 ^ 31)

/-- So have the ones before them, which lead to `n / 2`, `n / 4` and so on. -/
def PowFits (nb : List UInt8) (n : ℕ) : Prop := ∀ t, n / 2 ^ t ≠ 0 → PowStepFits nb (n / 2 ^ t)

lemma powFits_half {nb : List UInt8} {n : ℕ} (hn : n ≠ 0) :
    PowFits nb n ↔ PowStepFits nb n ∧ PowFits nb (n / 2) := by
  have hdiv (t : ℕ) : n / 2 ^ (t + 1) = n / 2 / 2 ^ t := by
    rw [pow_succ', Nat.div_div_eq_div_mul]
  constructor
  · intro h
    have hzero := h 0
    rw [pow_zero, Nat.div_one] at hzero
    refine ⟨hzero hn, fun t ht => ?_⟩
    have hsucc := h (t + 1)
    rw [hdiv] at hsucc
    exact hsucc ht
  · rintro ⟨hstep, hhalf⟩ t ht
    cases t with
    | zero =>
      rw [pow_zero, Nat.div_one]
      exact hstep
    | succ t =>
      rw [hdiv] at ht ⊢
      exact hhalf t ht

/-- **`ft_large_pow`**, as long as every product has room. -/
lemma ftLargePow_of_fits {nb : List UInt8} (hnb : decimal.IsDigits nb) {n : ℕ}
    (hfits : PowFits nb n) :
    ftLargePow n nb = some (numeral 10 digitByte (decimal.value nb ^ n)) := by
  induction n using Nat.strong_induction_on with
  | _ n ih =>
    by_cases hn : n = 0
    · subst hn
      rw [ftLargePow_zero, pow_zero]
    · obtain ⟨hstep, hhalf⟩ := (powFits_half hn).mp hfits
      have htmp := ih (n / 2) (by omega) hhalf
      have hsquare := multiplyString_of_lt (isDigits_numeral (decimal.value nb ^ (n / 2)))
        (isDigits_numeral (decimal.value nb ^ (n / 2)))
        (by have h := hstep.1; unfold digitCount at h; omega)
      rw [value_numeral] at hsquare
      by_cases hparity : n % 2 = 0
      · rw [ftLargePow_even hn hparity, htmp, Option.bind_some, hsquare, ← pow_even _ hparity]
      · have hodd : n - 1 = n / 2 + n / 2 := by omega
        have hlast := multiplyString_of_lt (isDigits_numeral (decimal.value nb ^ (n - 1))) hnb
          (hstep.2 (by omega))
        rw [value_numeral, hodd, pow_add] at hlast
        rw [ftLargePow_odd hparity, htmp, Option.bind_some, hsquare, Option.bind_some, hlast,
          ← pow_odd _ hparity]

end FtNm
