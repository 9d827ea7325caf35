import Mathlib.Tactic

/-!
# Positional numerals and padding

`numeral b digit n` is the numeral of `n` in base `b`, most significant digit first and without
leading zeros; `0` has the empty one.  `padLeft c k s` fills a list up to the length `k` on its
left.  The digits and the fill are of any type.

* `numeral_step` splits off the last digit, which is how a program that divides by the base
  produces it.
* `padLeft_padLeft` composes two paddings with the same fill.
-/

namespace Numeral

variable {α β : Type}

/-- The numeral of `n` in base `b`. -/
def numeral (b : ℕ) (digit : ℕ → α) (n : ℕ) : List α := (b.digits n).reverse.map digit

/-- Fill up to the length `k` on the left. -/
def padLeft (c : α) (k : ℕ) (s : List α) : List α := List.replicate (k - s.length) c ++ s

/-! ## Numerals -/

@[simp] lemma numeral_zero (b : ℕ) (digit : ℕ → α) : numeral b digit 0 = [] := by
  simp [numeral]

/-- The last digit is the remainder. -/
lemma numeral_step {b n : ℕ} (hb : 1 < b) (hn : n ≠ 0) (digit : ℕ → α) :
    numeral b digit n = numeral b digit (n / b) ++ [digit (n % b)] := by
  unfold numeral
  rw [Nat.digits_def' hb (Nat.pos_of_ne_zero hn), List.reverse_cons, List.map_append]
  rfl

lemma numeral_ne_nil {b n : ℕ} (hb : 1 < b) (hn : n ≠ 0) (digit : ℕ → α) :
    numeral b digit n ≠ [] := by
  rw [numeral_step hb hn]
  exact List.append_ne_nil_of_right_ne_nil _ (List.cons_ne_nil _ _)

lemma mem_numeral {b n : ℕ} (hb : 1 < b) {digit : ℕ → α} {c : α} (hc : c ∈ numeral b digit n) :
    ∃ d < b, digit d = c := by
  obtain ⟨d, hd, rfl⟩ := List.mem_map.mp hc
  exact ⟨d, Nat.digits_lt_base hb (List.mem_reverse.mp hd), rfl⟩

lemma map_numeral (f : α → β) (b : ℕ) (digit : ℕ → α) (n : ℕ) :
    (numeral b digit n).map f = numeral b (fun d => f (digit d)) n := by
  unfold numeral
  rw [List.map_map]
  rfl

/-- Only the digits below the base matter. -/
lemma numeral_congr {b : ℕ} (hb : 1 < b) {digit digit' : ℕ → α}
    (h : ∀ d < b, digit d = digit' d) (n : ℕ) : numeral b digit n = numeral b digit' n := by
  unfold numeral
  apply List.map_congr_left
  intro d hd
  exact h d (Nat.digits_lt_base hb (List.mem_reverse.mp hd))

lemma length_numeral_le {b n k : ℕ} (hb : 1 < b) (h : n < b ^ k) (digit : ℕ → α) :
    (numeral b digit n).length ≤ k := by
  unfold numeral
  rw [List.length_map, List.length_reverse]
  exact (Nat.digits_length_le_iff hb n).mpr h

/-! ## Padding -/

lemma length_padLeft (c : α) (k : ℕ) (s : List α) : (padLeft c k s).length = max k s.length := by
  unfold padLeft
  rw [List.length_append, List.length_replicate]
  omega

lemma padLeft_of_le {c : α} {k : ℕ} {s : List α} (h : k ≤ s.length) : padLeft c k s = s := by
  unfold padLeft
  rw [Nat.sub_eq_zero_of_le h, List.replicate_zero, List.nil_append]

/-- The longer of two paddings decides. -/
lemma padLeft_padLeft (c : α) (j k : ℕ) (s : List α) :
    padLeft c k (padLeft c j s) = padLeft c (max j k) s := by
  unfold padLeft
  rw [List.length_append, List.length_replicate, ← List.append_assoc, ← List.replicate_add]
  congr 2
  omega

lemma mem_padLeft {c x : α} {k : ℕ} {s : List α} (h : x ∈ padLeft c k s) : x = c ∨ x ∈ s := by
  rcases List.mem_append.mp h with h | h
  · exact .inl (List.eq_of_mem_replicate h)
  · exact .inr h

end Numeral
