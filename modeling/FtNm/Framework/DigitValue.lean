import FtNm.Framework.Numeral

/-!
# The value of a digit string

An `Alphabet` is a base with characters for its digits.  `value` reads a string of them as a
number, most significant digit first; `padded k` writes a number down in at least `k` digits and
`canonical` without superfluous zeros.

* `value_append` and its companions compute values along the operations on lists, and
  `value_lt` bounds the value by the length.
* `padded_succ` splits off the last digit, which is the step of a loop with a carry;
  `length_padded` says when a number needs one digit more.
* `value_inj` says that digits of one length are determined by their value, and
  `eq_canonical_iff` that a string without superfluous zeros is.
* `dropZeros_eq` says what stripping leading zeros leaves.
-/

namespace Numeral

variable {α : Type}

/-- A base and the characters of its digits. -/
structure Alphabet (α : Type) where
  base : ℕ
  digit : ℕ → α
  val : α → ℕ
  one_lt : 1 < base
  val_digit : ∀ d < base, val (digit d) = d

namespace Alphabet

variable (A : Alphabet α)

/-- `c` is a digit. -/
def IsDigit (c : α) : Prop := ∃ d < A.base, A.digit d = c

/-- All characters are digits. -/
def IsDigits (s : List α) : Prop := ∀ c ∈ s, A.IsDigit c

/-- The number that the digits stand for. -/
def value (s : List α) : ℕ := s.foldl (fun n c => n * A.base + A.val c) 0

/-- The digits of `n`, at least `k` of them. -/
def padded (k n : ℕ) : List α := padLeft (A.digit 0) k (numeral A.base A.digit n)

/-- The digits of `n`, and one digit for `0`. -/
def canonical (n : ℕ) : List α := A.padded 1 n

lemma base_pos : 0 < A.base := Nat.zero_lt_of_lt A.one_lt

/-! ## Digits -/

lemma isDigit_digit {d : ℕ} (h : d < A.base) : A.IsDigit (A.digit d) := ⟨d, h, rfl⟩

variable {A}

lemma IsDigit.val_lt {c : α} (h : A.IsDigit c) : A.val c < A.base := by
  obtain ⟨d, hd, rfl⟩ := h
  rw [A.val_digit d hd]
  exact hd

/-- A digit is the character of its value. -/
lemma IsDigit.digit_val {c : α} (h : A.IsDigit c) : A.digit (A.val c) = c := by
  obtain ⟨d, hd, rfl⟩ := h
  rw [A.val_digit d hd]

lemma IsDigit.eq_zero_iff {c : α} (h : A.IsDigit c) : c = A.digit 0 ↔ A.val c = 0 := by
  constructor
  · rintro rfl
    exact A.val_digit 0 A.base_pos
  · intro hval
    rw [← hval, h.digit_val]

variable (A)

@[simp] lemma isDigits_nil : A.IsDigits [] := fun _ hc => absurd hc List.not_mem_nil

variable {A}

@[simp] lemma isDigits_append {s t : List α} :
    A.IsDigits (s ++ t) ↔ A.IsDigits s ∧ A.IsDigits t := List.forall_mem_append

@[simp] lemma isDigits_cons {c : α} {s : List α} :
    A.IsDigits (c :: s) ↔ A.IsDigit c ∧ A.IsDigits s := List.forall_mem_cons

lemma IsDigits.drop {s : List α} (h : A.IsDigits s) (k : ℕ) : A.IsDigits (s.drop k) :=
  fun c hc => h c (List.mem_of_mem_drop hc)

lemma IsDigits.take {s : List α} (h : A.IsDigits s) (k : ℕ) : A.IsDigits (s.take k) :=
  fun c hc => h c (List.mem_of_mem_take hc)

variable (A)

lemma isDigits_replicate (k : ℕ) {d : ℕ} (h : d < A.base) :
    A.IsDigits (List.replicate k (A.digit d)) := by
  intro c hc
  rw [List.eq_of_mem_replicate hc]
  exact A.isDigit_digit h

lemma isDigits_numeral (n : ℕ) : A.IsDigits (numeral A.base A.digit n) :=
  fun _ hc => mem_numeral A.one_lt hc

/-! ## Values -/

@[simp] lemma value_nil : A.value [] = 0 := rfl

lemma value_concat (s : List α) (c : α) : A.value (s ++ [c]) = A.value s * A.base + A.val c := by
  simp [value, List.foldl_append]

/-- The digits in front are worth a power of the base more. -/
lemma value_append (s t : List α) :
    A.value (s ++ t) = A.value s * A.base ^ t.length + A.value t := by
  induction t using List.reverseRecOn with
  | nil => simp
  | append_singleton t c ih =>
    rw [← List.append_assoc, value_concat, ih, value_concat, List.length_append,
      List.length_singleton, pow_succ]
    ring

lemma value_singleton (c : α) : A.value [c] = A.val c := by
  simp [value]

lemma value_cons (c : α) (s : List α) :
    A.value (c :: s) = A.val c * A.base ^ s.length + A.value s := by
  rw [← List.singleton_append, value_append, value_singleton]

@[simp] lemma value_zeros (k : ℕ) : A.value (List.replicate k (A.digit 0)) = 0 := by
  induction k with
  | zero => rfl
  | succ k ih => rw [List.replicate_succ', value_concat, ih, A.val_digit 0 A.base_pos, zero_mul]

/-- Leading zeros do not count. -/
lemma value_zeros_append (k : ℕ) (s : List α) :
    A.value (List.replicate k (A.digit 0) ++ s) = A.value s := by
  rw [value_append, value_zeros, zero_mul, zero_add]

/-- Zeros at the end multiply by a power of the base. -/
lemma value_append_zeros (s : List α) (k : ℕ) :
    A.value (s ++ List.replicate k (A.digit 0)) = A.value s * A.base ^ k := by
  rw [value_append, value_zeros, List.length_replicate, add_zero]

lemma value_numeral (n : ℕ) : A.value (numeral A.base A.digit n) = n := by
  induction n using Nat.strong_induction_on with
  | _ n ih =>
    by_cases hn : n = 0
    · rw [hn, numeral_zero, value_nil]
    · have hlt : n / A.base < n := Nat.div_lt_self (Nat.pos_of_ne_zero hn) A.one_lt
      rw [numeral_step A.one_lt hn, value_concat, ih _ hlt,
        A.val_digit _ (Nat.mod_lt _ A.base_pos), Nat.div_add_mod']

variable {A}

lemma IsDigits.value_lt {s : List α} (h : A.IsDigits s) : A.value s < A.base ^ s.length := by
  induction s using List.reverseRecOn with
  | nil => simp
  | append_singleton s c ih =>
    obtain ⟨hs, hc⟩ := isDigits_append.mp h
    have hval := (hc c (List.mem_singleton_self c)).val_lt
    have hle : (A.value s + 1) * A.base ≤ A.base ^ s.length * A.base :=
      Nat.mul_le_mul_right _ (ih hs)
    rw [value_concat, List.length_append, List.length_singleton, pow_succ]
    rw [add_mul, one_mul] at hle
    omega

/-- The quotient and the remainder by a power of the base are the two parts of the string. -/
lemma IsDigits.value_take {s : List α} (h : A.IsDigits s) (k : ℕ) :
    A.value (s.take k) = A.value s / A.base ^ (s.length - k) ∧
      A.value (s.drop k) = A.value s % A.base ^ (s.length - k) := by
  have hsplit := A.value_append (s.take k) (s.drop k)
  have hlt := (h.drop k).value_lt
  have hpos : 0 < A.base ^ (s.length - k) := Nat.pow_pos A.base_pos
  rw [List.take_append_drop, List.length_drop] at hsplit
  rw [List.length_drop] at hlt
  rw [hsplit, Nat.mul_comm, Nat.mul_add_div hpos, Nat.div_eq_of_lt hlt, Nat.mul_add_mod,
    Nat.mod_eq_of_lt hlt]
  exact ⟨rfl, rfl⟩

/-- Digits of one length are determined by their value. -/
lemma IsDigits.value_inj {s t : List α} (hs : A.IsDigits s) (ht : A.IsDigits t)
    (hlength : s.length = t.length) (h : A.value s = A.value t) : s = t := by
  induction s using List.reverseRecOn generalizing t with
  | nil => exact (List.length_eq_zero_iff.mp hlength.symm).symm
  | append_singleton s c ih =>
    rcases List.eq_nil_or_concat t with rfl | ⟨t, d, rfl⟩
    · simp at hlength
    · obtain ⟨hs, hc⟩ := isDigits_append.mp hs
      rw [List.concat_eq_append] at ht hlength h ⊢
      obtain ⟨ht, hd⟩ := isDigits_append.mp ht
      have hc := hc c (List.mem_singleton_self c)
      have hd := hd d (List.mem_singleton_self d)
      rw [value_concat, value_concat] at h
      have hlast : A.val c = A.val d := by
        have hmod := congrArg (· % A.base) h
        simpa [Nat.add_mod, Nat.mod_eq_of_lt hc.val_lt, Nat.mod_eq_of_lt hd.val_lt] using hmod
      have hrest : A.value s = A.value t := by
        rw [hlast] at h
        exact Nat.eq_of_mul_eq_mul_right A.base_pos (Nat.add_right_cancel h)
      have hcd : c = d := by rw [← hc.digit_val, hlast, hd.digit_val]
      rw [ih hs ht (by simpa using hlength) hrest, hcd]

/-! ## A least number of digits -/

/-- Stripping leading zeros leaves the numeral, which is empty for `0`. -/
lemma IsDigits.dropZeros_eq [DecidableEq α] {s : List α} (h : A.IsDigits s) :
    s.dropWhile (· = A.digit 0) = numeral A.base A.digit (A.value s) := by
  induction s using List.reverseRecOn with
  | nil => simp
  | append_singleton s c ih =>
    obtain ⟨hs, hc⟩ := isDigits_append.mp h
    have hc := hc c (List.mem_singleton_self c)
    have hdiv : (A.value s * A.base + A.val c) / A.base = A.value s := by
      rw [Nat.mul_comm, Nat.mul_add_div A.base_pos, Nat.div_eq_of_lt hc.val_lt, add_zero]
    have hmod : (A.value s * A.base + A.val c) % A.base = A.val c := by
      rw [Nat.mul_add_mod_self_right, Nat.mod_eq_of_lt hc.val_lt]
    rw [value_concat, List.dropWhile_append, ih hs]
    by_cases hzero : A.value s = 0
    · rw [hzero, numeral_zero, zero_mul, zero_add]
      by_cases hlast : A.val c = 0
      · simp [hlast, hc.eq_zero_iff]
      · have hstep := numeral_step A.one_lt hlast A.digit
        rw [Nat.div_eq_of_lt hc.val_lt, Nat.mod_eq_of_lt hc.val_lt, numeral_zero,
          hc.digit_val] at hstep
        simp [hstep, hc.eq_zero_iff, hlast]
    · have hne : A.value s * A.base + A.val c ≠ 0 := by
        have hpos := Nat.mul_pos (Nat.pos_of_ne_zero hzero) A.base_pos
        omega
      rw [numeral_step A.one_lt hne, hdiv, hmod, hc.digit_val, if_neg]
      rw [List.isEmpty_iff]
      exact numeral_ne_nil A.one_lt hzero A.digit

variable (A)

lemma isDigits_padded (k n : ℕ) : A.IsDigits (A.padded k n) := by
  rw [padded, padLeft, isDigits_append]
  exact ⟨A.isDigits_replicate _ A.base_pos, A.isDigits_numeral n⟩

@[simp] lemma value_padded (k n : ℕ) : A.value (A.padded k n) = n := by
  rw [padded, padLeft, value_zeros_append, value_numeral]

lemma padded_zero (n : ℕ) : A.padded 0 n = numeral A.base A.digit n :=
  padLeft_of_le (Nat.zero_le _)

/-- The last digit is the remainder. -/
lemma padded_succ (k n : ℕ) :
    A.padded (k + 1) n = A.padded k (n / A.base) ++ [A.digit (n % A.base)] := by
  by_cases hn : n = 0
  · rw [hn, Nat.zero_div, Nat.zero_mod, padded, padded, numeral_zero, padLeft, padLeft,
      List.append_nil, List.append_nil, List.length_nil, Nat.sub_zero, Nat.sub_zero,
      List.replicate_succ']
  · rw [padded, padded, padLeft, padLeft, numeral_step A.one_lt hn, List.length_append,
      List.length_singleton, Nat.add_sub_add_right, List.append_assoc]

/-- The last `k` digits are the remainder by the power. -/
lemma padded_add (j k n : ℕ) :
    A.padded (j + k) n = A.padded j (n / A.base ^ k) ++ A.padded k (n % A.base ^ k) := by
  induction k generalizing n with
  | zero =>
    rw [Nat.add_zero, pow_zero, Nat.div_one, Nat.mod_one, padded_zero, numeral_zero,
      List.append_nil]
  | succ k ih =>
    have hfront : n / A.base / A.base ^ k = n / A.base ^ (k + 1) := by
      rw [Nat.div_div_eq_div_mul, pow_succ']
    have hback : n % A.base ^ (k + 1) / A.base = n / A.base % A.base ^ k := by
      rw [pow_succ', Nat.mod_mul_right_div_self]
    have hlast : n % A.base ^ (k + 1) % A.base = n % A.base := by
      rw [pow_succ', Nat.mod_mul_right_mod]
    rw [← Nat.add_assoc, padded_succ, ih, A.padded_succ k (n % A.base ^ (k + 1)), hback, hlast,
      hfront, List.append_assoc]

lemma padded_of_le {k n : ℕ} (h : k ≤ (numeral A.base A.digit n).length) :
    A.padded k n = numeral A.base A.digit n := padLeft_of_le h

lemma padded_zeros (k : ℕ) : A.padded k 0 = List.replicate k (A.digit 0) := by
  rw [padded, numeral_zero, padLeft, List.append_nil, List.length_nil, Nat.sub_zero]

/-- Zeros at the end. -/
lemma padded_append_zeros (j k n : ℕ) :
    A.padded j n ++ List.replicate k (A.digit 0) = A.padded (j + k) (n * A.base ^ k) := by
  rw [padded_add, Nat.mul_div_cancel _ (Nat.pow_pos A.base_pos), Nat.mul_mod_left, padded_zeros]

/-- The same without a number of digits to fill up to. -/
lemma padded_zero_of_ne {n : ℕ} (h : n ≠ 0) :
    A.padded 0 n = A.padded 0 (n / A.base) ++ [A.digit (n % A.base)] := by
  rw [padded_zero, padded_zero, numeral_step A.one_lt h]

lemma length_padded_of_lt {k n : ℕ} (h : n < A.base ^ k) : (A.padded k n).length = k := by
  rw [padded, length_padLeft, max_eq_left (length_numeral_le A.one_lt h A.digit)]

/-- A number that does not fit takes one digit more. -/
lemma length_padded {k n : ℕ} (h : n < A.base ^ (k + 1)) :
    (A.padded k n).length = k + if A.base ^ k ≤ n then 1 else 0 := by
  by_cases hfits : A.base ^ k ≤ n
  · have hlong : k < (numeral A.base A.digit n).length := by
      by_contra hle
      have hlt := (A.isDigits_numeral n).value_lt
      rw [value_numeral] at hlt
      have hpow := Nat.pow_le_pow_right A.base_pos (Nat.le_of_not_lt hle)
      omega
    have hshort := length_numeral_le A.one_lt h A.digit
    rw [if_pos hfits, padded, length_padLeft]
    omega
  · rw [if_neg hfits, A.length_padded_of_lt (Nat.lt_of_not_le hfits)]
    rfl

lemma le_length_padded (k n : ℕ) : k ≤ (A.padded k n).length := by
  rw [padded, length_padLeft]
  exact Nat.le_max_left _ _

/-- One digit. -/
lemma padded_one_of_lt {d : ℕ} (h : d < A.base) : A.padded 1 d = [A.digit d] := by
  rw [padded_succ, Nat.div_eq_of_lt h, Nat.mod_eq_of_lt h, padded_zero, numeral_zero,
    List.nil_append]

/-- A larger number does not have fewer digits. -/
lemma length_numeral_mono {m n : ℕ} (h : m ≤ n) :
    (numeral A.base A.digit m).length ≤ (numeral A.base A.digit n).length := by
  have hlt := (A.isDigits_numeral n).value_lt
  rw [value_numeral] at hlt
  exact length_numeral_le A.one_lt (h.trans_lt hlt) A.digit

lemma dropZeros_padded [DecidableEq α] (k n : ℕ) :
    (A.padded k n).dropWhile (· = A.digit 0) = numeral A.base A.digit n := by
  rw [(A.isDigits_padded k n).dropZeros_eq, value_padded]

variable {A}

/-- Digits are what their value is in as many digits. -/
lemma IsDigits.padded_value {s : List α} (h : A.IsDigits s) : A.padded s.length (A.value s) = s :=
  (A.isDigits_padded _ _).value_inj h (A.length_padded_of_lt h.value_lt) (A.value_padded _ _)

/-! ## Canonical numerals -/

/-- No superfluous zero in front. -/
def IsCanonical (A : Alphabet α) (s : List α) : Prop :=
  A.IsDigits s ∧ s ≠ [] ∧ (s.head? = some (A.digit 0) → s.length = 1)

variable (A)

lemma canonical_zero : A.canonical 0 = [A.digit 0] := A.padded_one_of_lt A.base_pos

variable {A}

lemma canonical_of_ne_zero {n : ℕ} (h : n ≠ 0) : A.canonical n = numeral A.base A.digit n :=
  padLeft_of_le (List.length_pos_iff.mpr (numeral_ne_nil A.one_lt h A.digit))

/-- Splitting off the last digit, where there is more than one. -/
lemma canonical_step {n : ℕ} (h : n / A.base ≠ 0) :
    A.canonical n = A.canonical (n / A.base) ++ [A.digit (n % A.base)] := by
  rw [canonical_of_ne_zero h, canonical, padded_succ, padded_zero]

lemma canonical_ne_nil (n : ℕ) : A.canonical n ≠ [] :=
  List.ne_nil_of_length_pos (A.le_length_padded 1 n)

/-- A numeral does not start with a zero. -/
lemma head_numeral (A : Alphabet α) (n : ℕ) :
    (numeral A.base A.digit n).head? ≠ some (A.digit 0) := by
  classical
  intro h
  have hstrip := (A.isDigits_numeral n).dropZeros_eq
  rw [value_numeral] at hstrip
  obtain ⟨rest, hrest⟩ := List.head?_eq_some_iff.mp h
  rw [hrest, List.dropWhile_cons_of_pos (by simp)] at hstrip
  have hlength := (List.dropWhile_sublist (l := rest) (· = A.digit 0)).length_le
  rw [hstrip, List.length_cons] at hlength
  omega

lemma isCanonical_canonical (n : ℕ) : A.IsCanonical (A.canonical n) := by
  refine ⟨A.isDigits_padded 1 n, canonical_ne_nil n, fun hhead => ?_⟩
  by_cases hn : n = 0
  · rw [hn, canonical_zero]
    rfl
  · rw [canonical_of_ne_zero hn] at hhead
    exact absurd hhead (A.head_numeral n)

/-- **Uniqueness.**  A string without superfluous zeros is the canonical one of its value. -/
lemma IsCanonical.eq_canonical {s : List α} (h : A.IsCanonical s) :
    s = A.canonical (A.value s) := by
  classical
  obtain ⟨hdigits, hne, hhead⟩ := h
  obtain ⟨c, rest, rfl⟩ := List.exists_cons_of_ne_nil hne
  by_cases hc : c = A.digit 0
  · have hlength := hhead (by rw [hc]; rfl)
    obtain rfl : rest = [] := by simpa using hlength
    rw [hc, value_singleton, A.val_digit 0 A.base_pos, canonical_zero]
  · have hstrip := hdigits.dropZeros_eq
    rw [List.dropWhile_cons_of_neg (by simpa using hc)] at hstrip
    have hvalue : A.value (c :: rest) ≠ 0 := by
      intro hzero
      rw [hzero, numeral_zero] at hstrip
      cases hstrip
    rw [canonical_of_ne_zero hvalue, ← hstrip]

lemma eq_canonical_iff {s : List α} {n : ℕ} :
    s = A.canonical n ↔ A.IsCanonical s ∧ A.value s = n := by
  constructor
  · rintro rfl
    exact ⟨isCanonical_canonical n, A.value_padded 1 n⟩
  · rintro ⟨h, rfl⟩
    exact h.eq_canonical

end Alphabet

end Numeral
