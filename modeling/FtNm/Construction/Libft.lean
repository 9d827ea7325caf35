import Mathlib.Tactic

/-!
# The libft functions on strings and ranges

The helpers of `libft/` that the symbol-table code calls.  A C string is the list of its bytes
before the terminating NUL; a list that comes from a C string never contains `0`, and the
comparison facts below ask for just that.  `CString` is a list with this guarantee.

* `ftStrcmp` (`libft/ft_strcmp.c`) returns the difference of the first two bytes that differ,
  the terminator counting as `0`.  `ftStrcmp_le_zero` and `ftStrcmp_eq_zero` read its sign as
  the unsigned-byte lexicographic order of lists, `ftStrcmp_swap` exchanges its arguments.  Its
  subscript is an `int`, which `ftStrcmpFrom` keeps.
* `ftStrpbrk` (`libft/ft_strpbrk.c`), `isInRange` (`libft/is_in_range.c`) and `ftContains`
  (`libft/ft_contains.c`) are the three membership tests.
* `toInt` is the conversion of a `size_t` to the `int` that a callee takes, `int32` the value
  that an `int` keeps of the result of a computation.
-/

namespace FtNm

/-- The bytes of a C string literal, without its NUL. -/
def cstr (s : String) : List UInt8 := s.toList.map Char.toUInt8

/-- Characters of literals are told apart as characters. -/
@[simp] lemma toUInt8_inj {a b : Char} (ha : a.toNat < 256) (hb : b.toNat < 256) :
    a.toUInt8 = b.toUInt8 ↔ a = b := by
  constructor
  · intro h
    have hbyte := congrArg UInt8.toNat h
    have hval (c : Char) : c.toUInt8.toNat = c.toNat % 256 := rfl
    rw [hval, hval, Nat.mod_eq_of_lt ha, Nat.mod_eq_of_lt hb] at hbyte
    exact Char.toNat_inj.mp hbyte
  · rintro rfl
    rfl

/-- What is checked for one character of a string after the other holds of all of them. -/
lemma forall_mem_of_all {α : Type} {p : α → Prop} [DecidablePred p] {s : List α}
    (h : s.all (fun c => decide (p c)) = true) : ∀ c ∈ s, p c :=
  fun c hc => of_decide_eq_true (List.all_eq_true.mp h c hc)

/-- The bytes of a C string before its NUL. -/
@[ext]
structure CString where
  bytes : List UInt8
  nulFree : 0 ∉ bytes
  deriving DecidableEq, Repr

/-! ## `ft_strcmp` -/

/-- `ft_strcmp`: walk both strings while they agree and return the difference of the first
bytes that do not, or `0` when the terminators meet. -/
def ftStrcmp : List UInt8 → List UInt8 → ℤ
  | [], [] => 0
  | [], b :: _ => 0 - b.toNat
  | a :: _, [] => a.toNat - 0
  | a :: as, b :: bs => if a = b then ftStrcmp as bs else a.toNat - b.toNat

/-- The same walk with its subscript, which is an `int`. -/
def ftStrcmpFrom (i : ℕ) : List UInt8 → List UInt8 → Option ℤ
  | a :: as, b :: bs =>
    if a = b then if i + 1 < 2 ^ 31 then ftStrcmpFrom (i + 1) as bs else none
    else some (a.toNat - b.toNat)
  | s, t => some (ftStrcmp s t)

/-- The subscript stays in range where one of the strings is short. -/
lemma ftStrcmpFrom_eq {i : ℕ} {s t : List UInt8} (h : i + min s.length t.length < 2 ^ 31) :
    ftStrcmpFrom i s t = some (ftStrcmp s t) := by
  induction s generalizing i t with
  | nil => rfl
  | cons a s ih =>
    cases t with
    | nil => rfl
    | cons b t =>
      rw [List.length_cons, List.length_cons] at h
      rw [ftStrcmpFrom, ftStrcmp]
      split_ifs with hab hi
      · exact ih (by omega)
      · omega
      · rfl

lemma ftStrcmp_swap (s t : List UInt8) : ftStrcmp t s = -ftStrcmp s t := by
  induction s generalizing t with
  | nil => cases t <;> simp [ftStrcmp]
  | cons a s ih =>
    cases t with
    | nil => simp [ftStrcmp]
    | cons b t =>
      rw [ftStrcmp, ftStrcmp]
      by_cases h : a = b
      · rw [if_pos h.symm, if_pos h, ih]
      · rw [if_neg (Ne.symm h), if_neg h]
        ring

/-- `ft_strcmp` is non-positive exactly when the first string is lexicographically below or
equal to the second. -/
lemma ftStrcmp_le_zero {s t : List UInt8} (hs : 0 ∉ s) : ftStrcmp s t ≤ 0 ↔ s ≤ t := by
  induction s generalizing t with
  | nil => cases t <;> simp [ftStrcmp, List.nil_le]
  | cons a s ih =>
    rw [List.mem_cons, not_or] at hs
    cases t with
    | nil =>
      have ha : a.toNat ≠ 0 := fun h => hs.1 (UInt8.toNat_inj.mp h).symm
      simp only [ftStrcmp]
      constructor
      · intro h
        omega
      · intro h
        exact absurd (List.nil_lt_cons a s) (List.not_lt.mpr h)
    | cons b t =>
      rw [ftStrcmp, List.cons_le_cons_iff]
      by_cases h : a = b
      · simp [h, ih hs.2, UInt8.lt_irrefl]
      · have hne : a.toNat ≠ b.toNat := fun h' => h (UInt8.toNat_inj.mp h')
        rw [if_neg h, UInt8.lt_iff_toNat_lt]
        simp only [h, false_and, or_false]
        omega

/-- `ft_strcmp` is zero exactly on equal strings. -/
lemma ftStrcmp_eq_zero {s t : List UInt8} (hs : 0 ∉ s) (ht : 0 ∉ t) :
    ftStrcmp s t = 0 ↔ s = t := by
  have hst := ftStrcmp_le_zero (t := t) hs
  have hts := ftStrcmp_le_zero (t := s) ht
  have hswap := ftStrcmp_swap s t
  constructor
  · intro h
    exact List.le_antisymm (hst.mp (by omega)) (hts.mp (by omega))
  · rintro rfl
    have hle := hst.mpr (List.le_refl s)
    omega

/-! ## Membership tests -/

/-- `ft_strpbrk`: the suffix of `str` that starts at its first byte among `chars`. -/
def ftStrpbrk : List UInt8 → List UInt8 → Option (List UInt8)
  | [], _ => none
  | p :: ps, chars => if p ∈ chars then some (p :: ps) else ftStrpbrk ps chars

/-- `is_in_range`. -/
def isInRange (value lowerBound upperBound : ℤ) : Bool :=
  lowerBound ≤ value && value ≤ upperBound

/-- `ft_contains`: whether `c` is one of the characters of `set`; the NUL never is. -/
def ftContains (set : String) (c : UInt8) : Bool := c ∈ cstr set

/-- The value an `int` parameter receives when a `size_t` is passed for it. -/
def toInt (n : ℕ) : ℤ :=
  if n % 2 ^ 32 < 2 ^ 31 then (n % 2 ^ 32 : ℕ) else (n % 2 ^ 32 : ℕ) - 2 ^ 32

lemma toInt_of_lt {n : ℕ} (h : n < 2 ^ 31) : toInt n = n := by
  have hmod : n % 2 ^ 32 = n := Nat.mod_eq_of_lt (by omega)
  rw [toInt, hmod, if_pos h]

lemma toInt_le (n : ℕ) : toInt n ≤ n := by
  have hmod : n % 2 ^ 32 ≤ n := Nat.mod_le n _
  unfold toInt
  split_ifs <;> omega

lemma toInt_mem (n : ℕ) : -2 ^ 31 ≤ toInt n ∧ toInt n < 2 ^ 31 := by
  unfold toInt
  split_ifs <;> omega

/-- The value of `x` in an `int`: two's complement, wrapping round. -/
def int32 (x : ℤ) : ℤ := x.bmod (2 ^ 32)

lemma int32_of_mem {x : ℤ} (hle : -2 ^ 31 ≤ x) (hlt : x < 2 ^ 31) : int32 x = x := by
  unfold int32
  apply Int.bmod_eq_of_le <;> norm_num <;> omega

lemma int32_le (x : ℤ) : -2 ^ 31 ≤ int32 x ∧ int32 x < 2 ^ 31 := by
  have hle := Int.le_bmod (x := x) (m := 2 ^ 32) (by norm_num)
  have hlt := Int.bmod_lt (x := x) (m := 2 ^ 32) (by norm_num)
  unfold int32
  constructor <;> norm_num at hle hlt ⊢ <;> omega

/-- Both conversions agree. -/
lemma toInt_eq_int32 (n : ℕ) : toInt n = int32 n := by
  rw [int32, Int.bmod_def, toInt]
  split_ifs <;> omega

end FtNm
