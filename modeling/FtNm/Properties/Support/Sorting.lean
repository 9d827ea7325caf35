import FtNm.Framework.StableMerge
import FtNm.Construction.Printer
import FtNm.Properties.Support.ParseSpec

/-!
# The merge sort of the symbol array

`mergeSort` with multiplier `order` is the stable sort by the comparison `nameLe m order`,
which is "below or equal in `ft_strcmp` order", the same turned round, or "always" as `order`
is positive, negative or zero.

The loops write through a cursor `k` into the array; `copyLoop_eq` and `merge_loops` say what
stands there when they are through, as slices of the array before, and `merge_eq` that the
three loops of `merge` leave `List.merge` of the two halves.
-/

namespace FtNm

open StableMerge

/-! ## The comparison -/

/-- `order * ft_strcmp(s, t) <= 0`. -/
def strcmpLe (order : ℤ) (s t : CString) : Bool := decide (order * ftStrcmp s.bytes t.bytes ≤ 0)

lemma strcmpLe_zero (s t : CString) : strcmpLe 0 s t = true := by simp [strcmpLe]

lemma strcmpLe_of_pos {order : ℤ} (h : 0 < order) (s t : CString) :
    strcmpLe order s t = true ↔ s.bytes ≤ t.bytes := by
  rw [← ftStrcmp_le_zero s.nulFree, strcmpLe, decide_eq_true_iff]
  exact ⟨fun hle => nonpos_of_mul_nonpos_right hle h,
    fun hle => mul_nonpos_of_nonneg_of_nonpos h.le hle⟩

lemma strcmpLe_of_neg {order : ℤ} (h : order < 0) (s t : CString) :
    strcmpLe order s t = true ↔ t.bytes ≤ s.bytes := by
  rw [← strcmpLe_of_pos (neg_pos.mpr h), strcmpLe, strcmpLe, ftStrcmp_swap s.bytes, neg_mul_neg]

lemma totalPreorder_strcmpLe (order : ℤ) : TotalPreorder (strcmpLe order) := by
  rcases lt_trichotomy order 0 with h | rfl | h
  · constructor
    · intro a b c hab hbc
      rw [strcmpLe_of_neg h] at hab hbc ⊢
      exact List.le_trans hbc hab
    · intro a b
      rw [Bool.or_eq_true, strcmpLe_of_neg h, strcmpLe_of_neg h]
      exact List.le_total _ _
  · exact ⟨fun _ _ _ _ _ => strcmpLe_zero _ _, fun _ _ => by simp [strcmpLe_zero]⟩
  · constructor
    · intro a b c hab hbc
      rw [strcmpLe_of_pos h] at hab hbc ⊢
      exact List.le_trans hab hbc
    · intro a b
      rw [Bool.or_eq_true, strcmpLe_of_pos h, strcmpLe_of_pos h]
      exact List.le_total _ _

/-- Under a sign, strings tie exactly when they are equal. -/
lemma tie_strcmpLe {order : ℤ} (h : order ≠ 0) (s t : CString) :
    tie (strcmpLe order) s t = decide (s = t) := by
  rw [Bool.eq_iff_iff, tie, Bool.and_eq_true, decide_eq_true_iff, CString.ext_iff]
  rcases lt_or_gt_of_ne h with h | h
  · rw [strcmpLe_of_neg h, strcmpLe_of_neg h]
    exact ⟨fun hst => List.le_antisymm hst.2 hst.1, fun hst => by simp [hst]⟩
  · rw [strcmpLe_of_pos h, strcmpLe_of_pos h]
    exact ⟨fun hst => List.le_antisymm hst.1 hst.2, fun hst => by simp [hst]⟩

/-- The C string at distance `p`. -/
def MappedFile.cstring (m : MappedFile) (p : ℕ) : CString := ⟨m.text p, m.zero_notMem_text p⟩

/-- The comparison that `merge` makes: take the left entry when it holds. -/
def nameLe (m : MappedFile) (order : ℤ) (a b : TSymb) : Bool :=
  strcmpLe order (m.cstring a.name) (m.cstring b.name)

variable (m : MappedFile)

lemma nameLe_iff (order : ℤ) (a b : TSymb) :
    nameLe m order a b = true ↔ order * compareNames m a b ≤ 0 := decide_eq_true_iff

/-- Under a sign, the entries with a given name are a class of ties. -/
lemma filter_name {order : ℤ} (horder : order ≠ 0) {xs ys : List TSymb}
    (h : StableSortOf (nameLe m order) xs ys) (name : List UInt8) :
    ys.filter (fun s => m.text s.name = name) = xs.filter (fun s => m.text s.name = name) := by
  have htie : ∀ s t, tie (nameLe m order) s t = decide (m.text s.name = m.text t.name) := by
    intro s t
    exact (tie_strcmpLe horder _ _).trans (decide_eq_decide.mpr CString.ext_iff)
  exact h.filter_key (fun s => m.text s.name) htie name

lemma totalPreorder_nameLe (order : ℤ) : TotalPreorder (nameLe m order) :=
  (totalPreorder_strcmpLe order).comap fun s : TSymb => m.cstring s.name

/-! ## The loops -/

/-- A copy loop writes the rest of `src` at the cursor. -/
lemma copyLoop_eq (src array : List TSymb) (i k : ℕ)
    (h : k + (src.length - i) ≤ array.length) :
    copyLoop src array i k =
      (array.take k ++ src.drop i ++ array.drop (k + (src.length - i)), k + (src.length - i)) := by
  fun_induction copyLoop src array i k with
  | case1 array i k hi ih =>
    rw [ih (by rw [List.length_set]; omega), List.drop_eq_getElem_cons hi]
    have hk : k < array.length := by omega
    have hcount : k + 1 + (src.length - (i + 1)) = k + (src.length - i) := by omega
    rw [hcount, List.drop_set_of_lt (by omega), take_set_append array k _ hk]
    simp
  | case2 array i k hi =>
    have hzero : src.length - i = 0 := by omega
    simp [hzero, List.drop_eq_nil_of_le (Nat.le_of_not_lt hi)]

/-- The two copy loops of `merge`, from where its first loop stops. -/
def copyRest (left right : List TSymb) (r : List TSymb × ℕ × ℕ × ℕ) : List TSymb :=
  let (array, i, j, k) := r
  let (array, k) := copyLoop left array i k
  (copyLoop right array j k).1

/-- The three loops of `merge` together.  From cursors `i`, `j` and `k` on, they write the merge
of what is left of the halves, and touch nothing before `k` or after it. -/
lemma merge_loops (order : ℤ) (left right array : List TSymb) (i j k : ℕ)
    (h : k + ((left.length - i) + (right.length - j)) ≤ array.length) :
    copyRest left right (mergeLoop m order left right array i j k) =
      array.take k ++ (left.drop i).merge (right.drop j) (nameLe m order) ++
        array.drop (k + ((left.length - i) + (right.length - j))) := by
  fun_induction mergeLoop m order left right array i j k with
  | case1 array i j k hij hle ih =>
    have hle' : nameLe m order left[i] right[j] = true := decide_eq_true hle
    have hcount : k + 1 + ((left.length - (i + 1)) + (right.length - j)) =
        k + ((left.length - i) + (right.length - j)) := by omega
    rw [ih (by rw [List.length_set]; omega), hcount, take_set_append array k _ (by omega),
      List.drop_set_of_lt (by omega), List.drop_eq_getElem_cons hij.1,
      List.drop_eq_getElem_cons hij.2, List.cons_merge_cons_pos _ _ _ hle']
    simp
  | case2 array i j k hij hgt ih =>
    have hgt' : ¬nameLe m order left[i] right[j] = true :=
      fun hle => hgt (of_decide_eq_true hle)
    have hcount : k + 1 + ((left.length - i) + (right.length - (j + 1))) =
        k + ((left.length - i) + (right.length - j)) := by omega
    rw [ih (by rw [List.length_set]; omega), hcount, take_set_append array k _ (by omega),
      List.drop_set_of_lt (by omega), List.drop_eq_getElem_cons hij.1,
      List.drop_eq_getElem_cons hij.2, List.cons_merge_cons_neg _ _ _ hgt']
    simp
  | case3 array i j k hij =>
    have hleft := copyLoop_eq left array i k (by omega)
    have hlength : (array.take k ++ left.drop i).length = k + (left.length - i) := by
      rw [List.length_append, List.length_take, List.length_drop]
      omega
    have hright := copyLoop_eq right
      (array.take k ++ left.drop i ++ array.drop (k + (left.length - i))) j
      (k + (left.length - i)) (by
        rw [List.length_append, hlength, List.length_drop]
        omega)
    rw [copyRest, hleft]
    dsimp only
    rw [hright]
    dsimp only
    -- one of the halves is used up, so merging is appending
    have hmerge : (left.drop i).merge (right.drop j) (nameLe m order) =
        left.drop i ++ right.drop j := by
      rcases not_and_or.mp hij with hi | hj
      · simp [List.drop_eq_nil_of_le (Nat.le_of_not_lt hi)]
      · simp [List.drop_eq_nil_of_le (Nat.le_of_not_lt hj)]
    have hnil : (array.take k ++ left.drop i).drop (k + (left.length - i) + (right.length - j)) =
        [] := List.drop_eq_nil_of_le (by rw [hlength]; omega)
    rw [hmerge, List.take_left' hlength, ← Nat.add_assoc, List.drop_append, hnil, hlength,
      List.drop_drop, Nat.add_sub_cancel_left, List.nil_append]
    simp only [List.append_assoc, Nat.add_assoc]

lemma merge_eq (order : ℤ) (array left right : List TSymb)
    (h : left.length + right.length ≤ array.length) :
    merge m order array left right =
      left.merge right (nameLe m order) ++ array.drop (left.length + right.length) := by
  have hloops := merge_loops m order left right array 0 0 0 (by simpa using h)
  show copyRest left right (mergeLoop m order left right array 0 0 0) = _
  simpa using hloops

/-! ## The sort -/

/-- **The merge sort.**  It replaces the first `size` entries by their stable sort. -/
lemma mergeSort_spec (order : ℤ) (array : List TSymb) (size : ℕ) (h : size ≤ array.length) :
    ∃ sorted, StableSortOf (nameLe m order) (array.take size) sorted ∧
      mergeSort m order array size = sorted ++ array.drop size := by
  induction size using Nat.strong_induction_on generalizing array with
  | _ size ih =>
    unfold mergeSort
    by_cases hsize : size ≤ 1
    · refine ⟨array.take size, .of_length_le_one ?_, ?_⟩
      · rw [List.length_take]
        omega
      · rw [if_pos hsize, List.take_append_drop]
    · rw [if_neg hsize]
      have hmid : size / 2 ≤ size := Nat.div_le_self size 2
      have hrest : ((array.drop (size / 2)).take (size - size / 2)).length = size - size / 2 := by
        rw [List.length_take, List.length_drop]
        omega
      have hhalf : (array.take (size / 2)).length = size / 2 := by
        rw [List.length_take]
        omega
      obtain ⟨left, hleft, hleftEq⟩ := ih (size / 2) (by omega) (array.take (size / 2)) hhalf.ge
      obtain ⟨right, hright, hrightEq⟩ := ih (size - size / 2) (by omega)
        ((array.drop (size / 2)).take (size - size / 2)) hrest.ge
      rw [List.take_of_length_le hhalf.le] at hleft
      rw [List.take_of_length_le hrest.le] at hright
      rw [List.drop_eq_nil_of_le hhalf.le, List.append_nil] at hleftEq
      rw [List.drop_eq_nil_of_le hrest.le, List.append_nil] at hrightEq
      have hlengths : left.length + right.length = size := by
        rw [hleft.perm.length_eq, hright.perm.length_eq, hhalf, hrest]
        omega
      have hsplit : array.take size =
          array.take (size / 2) ++ (array.drop (size / 2)).take (size - size / 2) := by
        rw [← List.take_add, Nat.add_sub_cancel' hmid]
      refine ⟨left.merge right (nameLe m order), ?_, ?_⟩
      · rw [hsplit]
        exact hleft.merge (totalPreorder_nameLe m order) hright
      · dsimp only
        rw [hleftEq, hrightEq, merge_eq m order array left right (by omega), hlengths]

lemma mergeSort_perm (order : ℤ) (array : List TSymb) (size : ℕ) (h : size ≤ array.length) :
    (mergeSort m order array size).Perm array := by
  obtain ⟨sorted, hsorted, heq⟩ := mergeSort_spec m order array size h
  rw [heq]
  have hperm := hsorted.perm.append_right (array.drop size)
  rwa [List.take_append_drop] at hperm

/-- On the whole array the result is the stable sort of the array. -/
lemma mergeSort_stable (order : ℤ) (array : List TSymb) :
    StableSortOf (nameLe m order) array (mergeSort m order array array.length) := by
  obtain ⟨sorted, hsorted, heq⟩ := mergeSort_spec m order array array.length (Nat.le_refl _)
  rw [List.take_length] at hsorted
  rwa [heq, List.drop_length, List.append_nil]

end FtNm
