import Mathlib.Tactic
import Mathlib.Data.List.Sort

/-!
# Stable sorting by merging

What a stable sort promises, stated for an arbitrary Boolean comparison, and the rules by
which a divide-and-conquer sort keeps the promise.

* `TotalPreorder le` is what a comparison has to satisfy; elements may tie.
* `StableSortOf le xs ys` says that `ys` is `xs` sorted by `le` with ties in input order.
  Stability is the equality, for every element, of the subsequences of its ties.
* `StableSortOf.merge` is the induction step of a merge sort, `StableSortOf.of_length_le_one`
  its base.
* `StableSortOf.mergeSort`: the merge sort of lists is one.
* `StableSortOf.unique`: the result is determined by the input, so two stable sorts agree
  whatever their splitting points.
* `StableSortOf.filter`, `StableSortOf.map` and `StableSortOf.filter_key` carry a stable sort
  through a filter, through a map that reflects the comparison, and to the classes of a key.
-/

namespace StableMerge

variable {α β κ : Type}

/-- `a` and `b` compare below each other in both directions. -/
def tie (le : α → α → Bool) (a b : α) : Bool := le a b && le b a

/-- A comparison under which any two elements compare, transitively. -/
structure TotalPreorder (le : α → α → Bool) : Prop where
  trans : ∀ a b c, le a b = true → le b c = true → le a c = true
  total : ∀ a b, (le a b || le b a) = true

/-- `ys` is the stable sort of `xs`. -/
structure StableSortOf (le : α → α → Bool) (xs ys : List α) : Prop where
  perm : ys.Perm xs
  sorted : ys.Pairwise (fun a b => le a b = true)
  stable : ∀ a, ys.filter (tie le a) = xs.filter (tie le a)

/-! ## Ties -/

namespace TotalPreorder

variable {le : α → α → Bool} (hle : TotalPreorder le)

include hle

/-- A comparison of keys is one of the things that have them. -/
lemma comap (key : β → α) : TotalPreorder fun a b => le (key a) (key b) where
  trans a b c := hle.trans (key a) (key b) (key c)
  total a b := hle.total (key a) (key b)

lemma tie_self (a : α) : tie le a a = true := by
  simpa [tie] using hle.total a a

/-- Tied elements have the same ties. -/
lemma tie_congr {a b : α} (hab : tie le a b = true) (c : α) : tie le a c = tie le b c := by
  simp only [tie, Bool.and_eq_true] at hab
  rw [Bool.eq_iff_iff]
  simp only [tie, Bool.and_eq_true]
  constructor
  · rintro ⟨hac, hca⟩
    exact ⟨hle.trans b a c hab.2 hac, hle.trans c a b hca hab.1⟩
  · rintro ⟨hbc, hcb⟩
    exact ⟨hle.trans a b c hab.1 hbc, hle.trans c b a hcb hab.2⟩

/-- An element of one list occurs in every list with the same classes of ties. -/
lemma mem_of_filter_tie {ys zs : List α}
    (h : ∀ a, ys.filter (tie le a) = zs.filter (tie le a)) {a : α} (ha : a ∈ ys) : a ∈ zs := by
  have hmem : a ∈ ys.filter (tie le a) := List.mem_filter.mpr ⟨ha, hle.tie_self a⟩
  rw [h a] at hmem
  exact List.mem_of_mem_filter hmem

/-- Two sorted lists with the same classes of ties are equal. -/
lemma eq_of_filter_tie {ys zs : List α} (hys : ys.Pairwise (fun a b => le a b = true))
    (hzs : zs.Pairwise (fun a b => le a b = true))
    (h : ∀ a, ys.filter (tie le a) = zs.filter (tie le a)) : ys = zs := by
  induction ys generalizing zs with
  | nil =>
    symm
    apply List.eq_nil_iff_forall_not_mem.mpr
    intro a ha
    exact List.not_mem_nil (hle.mem_of_filter_tie (fun a => (h a).symm) ha)
  | cons y ys ih =>
    match zs, hzs, h with
    | [], _, h => exact absurd (hle.mem_of_filter_tie h List.mem_cons_self) List.not_mem_nil
    | z :: zs, hzs, h =>
      -- each head occurs in the other list, so the heads tie and open the same class
      have hyz : le y z = true := by
        rcases List.mem_cons.mp
          (hle.mem_of_filter_tie (fun a => (h a).symm) List.mem_cons_self) with rfl | hz
        · simpa using hle.total z z
        · exact List.rel_of_pairwise_cons hys hz
      have hzy : le z y = true := by
        rcases List.mem_cons.mp (hle.mem_of_filter_tie h List.mem_cons_self) with rfl | hy
        · simpa using hle.total y y
        · exact List.rel_of_pairwise_cons hzs hy
      have htie : tie le y z = true := by simp [tie, hyz, hzy]
      have hclass := h y
      rw [List.filter_cons_of_pos (hle.tie_self y), List.filter_cons_of_pos htie] at hclass
      obtain ⟨rfl, -⟩ := List.cons_eq_cons.mp hclass
      congr 1
      apply ih hys.tail hzs.tail
      intro a
      have ha := h a
      by_cases hay : tie le a y = true
      · rw [List.filter_cons_of_pos hay, List.filter_cons_of_pos hay] at ha
        exact (List.cons_eq_cons.mp ha).2
      · rwa [List.filter_cons_of_neg hay, List.filter_cons_of_neg hay] at ha

end TotalPreorder

/-! ## Merging -/

section Merge

variable {le : α → α → Bool}

/-- In a sorted list whose head is not below `y`, nothing ties with `y`'s ties. -/
lemma filter_tie_eq_nil (hle : TotalPreorder le) {x y a : α} {xs : List α}
    (hsorted : (x :: xs).Pairwise (fun a b => le a b = true)) (hxy : ¬le x y = true)
    (hay : tie le a y = true) : (x :: xs).filter (tie le a) = [] := by
  rw [List.filter_eq_nil_iff]
  intro b hb hab
  have hxb : le x b = true := by
    rcases List.mem_cons.mp hb with rfl | hb
    · simpa using hle.total b b
    · exact List.rel_of_pairwise_cons hsorted hb
  simp only [tie, Bool.and_eq_true] at hab hay
  exact hxy (hle.trans x b y hxb (hle.trans b a y hab.2 hay.1))

/-- Merging two sorted lists keeps each class of ties, left ties first. -/
lemma filter_tie_merge (hle : TotalPreorder le) (a : α) (xs ys : List α)
    (hxs : xs.Pairwise (fun a b => le a b = true))
    (hys : ys.Pairwise (fun a b => le a b = true)) :
    (xs.merge ys le).filter (tie le a) = xs.filter (tie le a) ++ ys.filter (tie le a) := by
  induction xs generalizing ys with
  | nil => simp
  | cons x xs ihx =>
    induction ys with
    | nil => simp
    | cons y ys ihy =>
      rw [List.cons_merge_cons]
      split_ifs with hxy
      · rw [List.filter_cons, List.filter_cons, ihx (y :: ys) hxs.tail hys]
        split_ifs <;> simp
      · rw [List.filter_cons, ihy hys.tail]
        by_cases hay : tie le a y = true
        · rw [if_pos hay, filter_tie_eq_nil hle hxs hxy hay, List.filter_cons_of_pos hay]
          simp
        · rw [if_neg hay, List.filter_cons_of_neg hay]

namespace StableSortOf

/-- The base case: nothing to sort. -/
lemma of_length_le_one {xs : List α} (h : xs.length ≤ 1) : StableSortOf le xs xs where
  perm := .refl xs
  sorted := by
    match xs, h with
    | [], _ => exact .nil
    | [a], _ => exact List.pairwise_singleton _ a
  stable _ := rfl

/-- **Induction step of a merge sort.**  Merging the stable sorts of two halves is the stable
sort of the whole. -/
lemma merge (hle : TotalPreorder le) {xs ys xs' ys' : List α}
    (hx : StableSortOf le xs xs') (hy : StableSortOf le ys ys') :
    StableSortOf le (xs ++ ys) (xs'.merge ys' le) where
  perm := (List.merge_perm_append le).trans (hx.perm.append hy.perm)
  sorted := List.pairwise_merge hle.trans hle.total xs' ys' hx.sorted hy.sorted
  stable a := by
    rw [filter_tie_merge hle a xs' ys' hx.sorted hy.sorted, hx.stable, hy.stable,
      List.filter_append]

/-! ## Consequences -/

/-- When everything ties, a stable sort is the identity. -/
lemma eq_of_all_le {xs ys : List α} (h : StableSortOf le xs ys)
    (hall : ∀ a b, le a b = true) : ys = xs := by
  match xs, h with
  | [], h => exact h.perm.eq_nil
  | a :: xs, h =>
    have htie : tie le a = fun _ => true := funext fun b => by simp [tie, hall]
    simpa [htie] using h.stable a

lemma filter {xs ys : List α} (h : StableSortOf le xs ys) (p : α → Bool) :
    StableSortOf le (xs.filter p) (ys.filter p) where
  perm := h.perm.filter p
  sorted := h.sorted.filter p
  stable a := by
    rw [List.filter_filter, List.filter_filter]
    simp only [Bool.and_comm (tie le a _)]
    rw [← List.filter_filter, ← List.filter_filter, h.stable]

/-- A predicate that is either false throughout or picks out one class of ties selects the
same subsequence before and after the sort. -/
lemma filter_class {xs ys : List α} (h : StableSortOf le xs ys) (p : α → Bool)
    (hp : ∀ a, p a = true → ∀ b, p b = tie le a b) : ys.filter p = xs.filter p := by
  by_cases hex : ∃ a ∈ xs, p a = true
  · obtain ⟨a, -, ha⟩ := hex
    rw [show p = tie le a from funext (hp a ha)]
    exact h.stable a
  · push Not at hex
    have hxs : xs.filter p = [] := List.filter_eq_nil_iff.mpr hex
    have hys : ys.filter p = [] :=
      List.filter_eq_nil_iff.mpr fun a ha => hex a (h.perm.mem_iff.mp ha)
    rw [hxs, hys]

/-- When ties are the classes of a key, every class keeps its order. -/
lemma filter_key [DecidableEq κ] {xs ys : List α} (h : StableSortOf le xs ys) (key : α → κ)
    (hkey : ∀ a b, tie le a b = decide (key a = key b)) (k : κ) :
    ys.filter (fun a => key a = k) = xs.filter (fun a => key a = k) := by
  apply h.filter_class
  intro a ha b
  rw [hkey, ← of_decide_eq_true ha]
  exact decide_eq_decide.mpr eq_comm

lemma map {le' : β → β → Bool} (hle' : TotalPreorder le') {xs ys : List α}
    (h : StableSortOf le xs ys) (f : α → β) (hf : ∀ a b, le' (f a) (f b) = le a b) :
    StableSortOf le' (xs.map f) (ys.map f) where
  perm := h.perm.map f
  sorted := by
    rw [List.pairwise_map]
    simpa only [hf] using h.sorted
  stable b := by
    rw [List.filter_map, List.filter_map]
    congr 1
    apply h.filter_class
    intro a ha c
    have hac : tie le a c = tie le' (f a) (f c) := by simp only [tie, hf]
    rw [hac]
    exact hle'.tie_congr ha (f c)

/-- The merge sort of lists is a stable sort. -/
lemma mergeSort (hle : TotalPreorder le) (xs : List α) :
    StableSortOf le xs (xs.mergeSort le) where
  perm := List.mergeSort_perm xs le
  sorted := List.pairwise_mergeSort hle.trans hle.total xs
  stable a := by
    have hties : (xs.filter (tie le a)).Pairwise (fun b c => le b c = true) := by
      rw [List.pairwise_filter]
      refine List.pairwise_of_forall fun b c hb hc => ?_
      simp only [tie, Bool.and_eq_true] at hb hc
      exact hle.trans b a c hb.2 hc.1
    have hsublist := (List.sublist_mergeSort hle.trans hle.total hties List.filter_sublist).filter
      (tie le a)
    rw [List.filter_filter] at hsublist
    simp only [Bool.and_self] at hsublist
    refine (hsublist.eq_of_length ?_).symm
    exact (((List.mergeSort_perm xs le).filter (tie le a)).length_eq).symm

/-- **Uniqueness.**  The stable sort of a list is determined by the list. -/
lemma unique (hle : TotalPreorder le) {xs ys zs : List α} (hy : StableSortOf le xs ys)
    (hz : StableSortOf le xs zs) : ys = zs := by
  have hfilter : ∀ a, ys.filter (tie le a) = zs.filter (tie le a) := fun a =>
    (hy.stable a).trans (hz.stable a).symm
  exact hle.eq_of_filter_tie hy.sorted hz.sorted hfilter

end StableSortOf

end Merge

end StableMerge
