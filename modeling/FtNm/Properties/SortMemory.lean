import FtNm.Construction.MergeSort
import FtNm.Properties.Decoding

/-!
# The merge sort stays inside its memory

`mergeSortAt` refines `mergeSort`: whatever addresses `malloc` hands out, the sort ends with the
sorted entries in the array and the rest of memory as it was, the copies freed again.  It never
reads or writes outside a live block and never reads a cell that has not been written.  The one
thing that can stop it is a request that is refused, since the pointer is not looked at before it
is followed.  And it calls `ft_strcmp` at most `n` times for each halving of `n`.

The loops go through the lists of `mergeLoop` and `copyLoop` step by step, so the induction is
that of these functions.
-/

namespace FtNm

open BlockHeap Command

/-! ## The loops -/

section Loops

variable {N : Prop} {m : MappedFile} {order : ℤ} {array left right : ℕ} {s : Store TSymb}
  {ls rs : List TSymb}

/-- A copy loop leaves the array of `copyLoop`. -/
lemma copyLoopAt_leads (hne : array ≠ left) (ys : List TSymb) (i k : ℕ)
    (harray : s.Holds array ys) (hleft : s.Holds left ls) (hk : k + (ls.length - i) ≤ ys.length) :
    (copyLoopAt (some array) (some left) ls.length i k).Leads N s fun r t =>
      r = (copyLoop ls ys i k).2 ∧ t = s.after array (copyLoop ls ys i k).1 0 := by
  induction hn : ls.length - i generalizing s ys i k with
  | zero =>
    have hi : ¬i < ls.length := by omega
    unfold copyLoopAt copyLoop
    rw [dif_neg hi, dif_neg hi]
    exact leads_pure ⟨rfl, (Store.after_self harray).symm⟩
  | succ n ih =>
    have hi : i < ls.length := by omega
    unfold copyLoopAt copyLoop
    rw [dif_pos hi, dif_pos hi]
    refine leads_load_bind hleft hi (leads_store_bind harray (by omega) ?_)
    have hrest := ih (s := s.after array (ys.set k ls[i]) 0) (ys.set k ls[i]) (i + 1) (k + 1)
      Store.holds_after (hleft.after hne.symm) (by rw [List.length_set]; omega) (by omega)
    refine hrest.mono ?_
    rintro r t ⟨hr, ht⟩
    exact ⟨hr, by rw [ht, Store.after_after]⟩

/-- The first loop of `merge` leaves the array and the cursors of `mergeLoop`.  Each call of
`ft_strcmp` takes an entry. -/
lemma mergeLoopAt_leads (hl : array ≠ left) (hr : array ≠ right) (ys : List TSymb) (i j k : ℕ)
    (harray : s.Holds array ys) (hleft : s.Holds left ls) (hright : s.Holds right rs)
    (hk : k + ((ls.length - i) + (rs.length - j)) ≤ ys.length) :
    (mergeLoopAt m order (some array) (some left) (some right) ls.length rs.length i j k).Leads N s
      fun r t => r = (mergeLoop m order ls rs ys i j k).2 ∧
        ∃ c ≤ (ls.length - i) + (rs.length - j),
          t = s.after array (mergeLoop m order ls rs ys i j k).1 c := by
  induction hn : (ls.length - i) + (rs.length - j) using Nat.strong_induction_on
    generalizing s ys i j k with
  | _ n ih =>
    unfold mergeLoopAt mergeLoop
    by_cases hij : i < ls.length ∧ j < rs.length
    · rw [dif_pos hij, dif_pos hij]
      refine leads_load_bind hleft hij.1 (leads_load_bind hright hij.2 (leads_tick_bind ?_))
      have harray' : s.tick.Holds array ys := harray
      have hleft' : s.tick.Holds left ls := hleft
      have hright' : s.tick.Holds right rs := hright
      split_ifs with hle
      · refine leads_load_bind hleft' hij.1 (leads_store_bind harray' (by omega) ?_)
        have hrest := ih ((ls.length - (i + 1)) + (rs.length - j)) (by omega)
          (s := s.tick.after array (ys.set k ls[i]) 0) (ys.set k ls[i]) (i + 1) j (k + 1)
          Store.holds_after (hleft'.after hl.symm) (hright'.after hr.symm)
          (by rw [List.length_set]; omega) rfl
        refine hrest.mono ?_
        rintro r t ⟨hr, c, hc, ht⟩
        refine ⟨hr, c + 1, by omega, ?_⟩
        rw [ht, Store.after_after, Store.tick_after, Nat.zero_add]
      · refine leads_load_bind hright' hij.2 (leads_store_bind harray' (by omega) ?_)
        have hrest := ih ((ls.length - i) + (rs.length - (j + 1))) (by omega)
          (s := s.tick.after array (ys.set k rs[j]) 0) (ys.set k rs[j]) i (j + 1) (k + 1)
          Store.holds_after (hleft'.after hl.symm) (hright'.after hr.symm)
          (by rw [List.length_set]; omega) rfl
        refine hrest.mono ?_
        rintro r t ⟨hr, c, hc, ht⟩
        refine ⟨hr, c + 1, by omega, ?_⟩
        rw [ht, Store.after_after, Store.tick_after, Nat.zero_add]
    · rw [dif_neg hij, dif_neg hij]
      exact leads_pure ⟨rfl, 0, Nat.zero_le _, (Store.after_self harray).symm⟩

/-- What the first loop leaves to the copy loops fits behind its cursor. -/
lemma mergeLoop_cursors (ys : List TSymb) (i j k : ℕ) :
    (mergeLoop m order ls rs ys i j k).1.length = ys.length ∧
      (mergeLoop m order ls rs ys i j k).2.2.2 +
        ((ls.length - (mergeLoop m order ls rs ys i j k).2.1) +
          (rs.length - (mergeLoop m order ls rs ys i j k).2.2.1)) =
        k + ((ls.length - i) + (rs.length - j)) := by
  fun_induction mergeLoop m order ls rs ys i j k with
  | case1 ys i j k hij hle ih =>
    rw [List.length_set] at ih
    exact ⟨ih.1, by omega⟩
  | case2 ys i j k hij hgt ih =>
    rw [List.length_set] at ih
    exact ⟨ih.1, by omega⟩
  | case3 ys i j k hij => exact ⟨rfl, rfl⟩

/-- `merge` leaves the array of `merge` on lists. -/
lemma mergeAt_leads (hl : array ≠ left) (hr : array ≠ right) (ys : List TSymb)
    (harray : s.Holds array ys) (hleft : s.Holds left ls) (hright : s.Holds right rs)
    (hk : ls.length + rs.length ≤ ys.length) :
    (mergeAt m order (some array) (some left) ls.length (some right) rs.length).Leads N s
      fun _ t => ∃ c ≤ ls.length + rs.length, t = s.after array (merge m order ys ls rs) c := by
  have hcursors : (mergeLoop m order ls rs ys 0 0 0).1.length = ys.length ∧ _ :=
    mergeLoop_cursors ys 0 0 0
  obtain ⟨hlength, hcursor⟩ := hcursors
  unfold mergeAt
  refine (mergeLoopAt_leads hl hr ys 0 0 0 harray hleft hright (by omega)).bind ?_
  rintro _ _ ⟨rfl, c, hc, rfl⟩
  unfold merge
  generalize mergeLoop m order ls rs ys 0 0 0 = r at hlength hcursor ⊢
  obtain ⟨zs, i, j, k⟩ := r
  dsimp only at hlength hcursor ⊢
  refine (copyLoopAt_leads hl zs i k Store.holds_after (hleft.after hl.symm) (by omega)).bind ?_
  rintro _ _ ⟨rfl, rfl⟩
  have hcopy := copyLoop_eq ls zs i k (by omega)
  refine (copyLoopAt_leads hr _ j _ Store.holds_after ((hright.after hr.symm).after hr.symm)
    ?_).bind ?_
  · rw [hcopy, List.length_append, List.length_append, List.length_take, List.length_drop,
      List.length_drop]
    dsimp only
    omega
  rintro _ _ ⟨-, rfl⟩
  refine leads_pure ⟨c, by omega, ?_⟩
  simp only [Store.after_after, Nat.add_zero]

end Loops

/-! ## The sort -/

/-- The calls for the two halves and for the merge. -/
lemma halves_clog {n : ℕ} (h : 2 ≤ n) :
    n / 2 * Nat.clog 2 (n / 2) + (n - n / 2) * Nat.clog 2 (n - n / 2) + n ≤ n * Nat.clog 2 n := by
  have hceil : (n + 2 - 1) / 2 = n - n / 2 := by omega
  have hclog : Nat.clog 2 n = Nat.clog 2 (n - n / 2) + 1 := by
    rw [Nat.clog_of_two_le (by norm_num) h, hceil]
  have hmono : Nat.clog 2 (n / 2) ≤ Nat.clog 2 (n - n / 2) := Nat.clog_mono_right 2 (by omega)
  have hleft : n / 2 * Nat.clog 2 (n / 2) ≤ n / 2 * Nat.clog 2 (n - n / 2) :=
    Nat.mul_le_mul_left _ hmono
  have hsum : n / 2 * Nat.clog 2 (n - n / 2) + (n - n / 2) * Nat.clog 2 (n - n / 2) =
      n * Nat.clog 2 (n - n / 2) := by
    rw [← Nat.add_mul]
    congr 1
    omega
  rw [hclog, Nat.mul_add, Nat.mul_one]
  omega

section MergeSort

variable {N : Prop} {A : Allocator TSymb} {m : MappedFile} {order : ℤ}

/-- The call for a block of `size` entries ends with the sorted entries there. -/
def SortsAt (N : Prop) (A : Allocator TSymb) (m : MappedFile) (order : ℤ) (size : ℕ) : Prop :=
  ∀ (s : Store TSymb) (a : ℕ) (ys : List TSymb), s.heap.Fits → s.Holds a ys →
    size ≤ ys.length → (mergeSortAt A m order (some a) size).Leads N s fun _ t =>
      ∃ c ≤ size * Nat.clog 2 size, t = s.after a (mergeSort m order ys size) c

/-- What follows the copying: the halves are sorted in their blocks and merged. -/
lemma sortHalves_leads {s : Store TSymb} {a l r : ℕ} {ys xs zs : List TSymb}
    (hxs : SortsAt N A m order xs.length) (hzs : SortsAt N A m order zs.length)
    (hal : a ≠ l) (har : a ≠ r) (hlr : l ≠ r) (hfits : s.heap.Fits) (harray : s.Holds a ys)
    (hleft : s.Holds l xs) (hright : s.Holds r zs) (hsize : xs.length + zs.length ≤ ys.length) :
    (do
      mergeSortAt A m order (some l) xs.length
      mergeSortAt A m order (some r) zs.length
      mergeAt m order (some a) (some l) xs.length (some r) zs.length
      free (some l)
      free (some r) : Command TSymb Unit).Leads N s fun _ t =>
        ∃ c ≤ xs.length * Nat.clog 2 xs.length + zs.length * Nat.clog 2 zs.length +
            (xs.length + zs.length),
          t.ticks = s.ticks + c ∧ t.heap = Function.update (Function.update (Function.update s.heap
            a (some ((merge m order ys (mergeSort m order xs xs.length)
              (mergeSort m order zs zs.length)).map some))) l none) r none := by
  have hxsLength : (mergeSort m order xs xs.length).length = xs.length :=
    (mergeSort_perm m order xs _ (Nat.le_refl _)).length_eq
  have hzsLength : (mergeSort m order zs zs.length).length = zs.length :=
    (mergeSort_perm m order zs _ (Nat.le_refl _)).length_eq
  refine (hxs s l xs hfits hleft (Nat.le_refl _)).bind ?_
  rintro _ _ ⟨c₁, hc₁, rfl⟩
  refine (hzs _ r zs (Store.after_fits hfits) (hright.after hlr.symm) (Nat.le_refl _)).bind ?_
  rintro _ _ ⟨c₂, hc₂, rfl⟩
  have hmerge : (mergeAt m order (some a) (some l) (mergeSort m order xs xs.length).length (some r)
      (mergeSort m order zs zs.length).length).Leads N
        ((s.after l (mergeSort m order xs xs.length) c₁).after r
          (mergeSort m order zs zs.length) c₂) _ :=
    mergeAt_leads hal har ys ((harray.after hal).after har) (Store.holds_after.after hlr)
      Store.holds_after (by omega)
  rw [hxsLength, hzsLength] at hmerge
  refine hmerge.bind ?_
  rintro _ _ ⟨c₃, hc₃, rfl⟩
  refine leads_free_bind ((Store.holds_after.after hlr).after hal.symm) ?_
  refine leads_free ((Store.holds_after.after har.symm).set hlr.symm none) ?_
  refine ⟨c₁ + c₂ + c₃, by omega, ?_, ?_⟩
  · simp only [Store.set_ticks, Store.after_ticks]
    omega
  · -- each of the three blocks has been written last as it stands there
    funext x
    by_cases hr : x = r
    · simp [Store.set, hr]
    by_cases hl : x = l
    · simp [Store.set, hl, Function.update_of_ne hlr]
    by_cases ha : x = a
    · simp [Store.set, Store.after, ha, Function.update_of_ne hal, Function.update_of_ne har]
    · simp [Store.set, Store.after, Function.update_of_ne hr, Function.update_of_ne hl,
        Function.update_of_ne ha]

/-- **Run.**  The sort in memory, by induction on the size. -/
lemma mergeSortAt_leads (hN : ∀ h : Heap TSymb, h.Fits → ∀ n, A.pick h n = none → N)
    (size : ℕ) : SortsAt N A m order size := by
  induction size using Nat.strong_induction_on with
  | _ size ih =>
    intro s a ys hfits harray hsize
    unfold mergeSortAt mergeSort
    by_cases hone : size ≤ 1
    · rw [dif_pos hone, if_pos hone]
      exact leads_pure ⟨0, Nat.zero_le _, (Store.after_self harray).symm⟩
    rw [dif_neg hone, if_neg hone]
    dsimp only
    -- a refused request stops the run where its pointer is first followed
    have hnull (t : Store TSymb) (ht : t.Holds a ys) (off n : ℕ) (hn : N)
        (f : Unit → Command TSymb Unit) (Q : Unit → Store TSymb → Prop) :
        (memcpy none (some a) off n >>= f).Leads N t Q :=
      Leads.bind (Q := fun _ _ => False) (leads_memcpy_null ht hn) fun _ _ h => h.elim
    refine leads_malloc_bind (fun hrefused => ?_) fun l hl => ?_
    · refine leads_malloc_bind (fun _ => hnull s harray _ _ (hN _ hfits _ hrefused) _ _)
        fun r hr => hnull _ (harray.set (harray.ne hr) _) _ _ (hN _ hfits _ hrefused) _ _
    have hal : a ≠ l := harray.ne hl
    have harray₁ := harray.set hal (some (List.replicate (size / 2) none))
    have hfits₁ := Store.set_fits hfits l (some (List.replicate (size / 2) none))
    refine leads_malloc_bind (fun hrefused => ?_) fun r hr => ?_
    · refine leads_memcpy_bind harray₁ (Store.set_heap_self s l _) (by omega)
        List.length_replicate ?_
      exact hnull _ (harray₁.after hal) _ _ (hN _ hfits₁ _ hrefused) _ _
    have har : a ≠ r := harray₁.ne hr
    have hlr : l ≠ r := by
      rintro rfl
      rw [Store.set_heap_self] at hr
      cases hr
    have harray₂ := harray₁.set har (some (List.replicate (size - size / 2) none))
    have hfits₂ := Store.set_fits hfits₁ r (some (List.replicate (size - size / 2) none))
    have hleft₂ := (Store.set_heap_ne (s.set l (some (List.replicate (size / 2) none))) hlr
      (some (List.replicate (size - size / 2) none))).trans (Store.set_heap_self s l _)
    refine leads_memcpy_bind harray₂ hleft₂ (by omega) List.length_replicate ?_
    refine leads_memcpy_bind (harray₂.after hal)
      ((Store.after_heap_ne hlr.symm).trans (Store.set_heap_self _ r _)) (by omega)
      List.length_replicate ?_
    rw [List.drop_zero]
    have hxs : (ys.take (size / 2)).length = size / 2 := by
      rw [List.length_take]
      omega
    have hzs : ((ys.drop (size / 2)).take (size - size / 2)).length = size - size / 2 := by
      rw [List.length_take, List.length_drop]
      omega
    have hsortXs : SortsAt N A m order (ys.take (size / 2)).length := ih _ (by omega)
    have hsortZs : SortsAt N A m order ((ys.drop (size / 2)).take (size - size / 2)).length :=
      ih _ (by omega)
    have hhalves := sortHalves_leads hsortXs hsortZs hal har hlr
      (Store.after_fits (n := 0) (Store.after_fits (n := 0) hfits₂)) ((harray₂.after hal).after har)
      (Store.holds_after.after hlr) Store.holds_after (by omega)
    rw [hxs, hzs] at hhalves
    refine hhalves.mono ?_
    rintro _ t ⟨c, hc, hticks, hheap⟩
    have hclog := halves_clog (n := size) (by omega)
    refine ⟨c, by omega, ?_⟩
    ext1
    · -- the two copies were not there before, and are not there any more
      have hfresh : s.heap r = none := (Store.set_heap_ne s hlr.symm _).symm.trans hr
      rw [hheap]
      funext x
      by_cases hxr : x = r
      · simp [Store.after, hxr, Function.update_of_ne har.symm, hfresh]
      by_cases hxl : x = l
      · simp [Store.after, hxl, Function.update_of_ne hlr, Function.update_of_ne hal.symm, hl]
      by_cases hxa : x = a
      · simp [Store.after, hxa, Function.update_of_ne har, Function.update_of_ne hal]
      · simp [Store.after, Store.set, Function.update_of_ne hxr, Function.update_of_ne hxl,
          Function.update_of_ne hxa]
    · rw [hticks]
      rfl

end MergeSort

/-! ## All arrays -/

/-- **The sort in memory.**  It ends with the sorted array and nothing else changed, after at most
`n⌈log₂ n⌉` calls of `ft_strcmp`, or it follows the null pointer of a request that was refused. -/
theorem mergeSortAt_refines (A : Allocator TSymb) (m : MappedFile) (order : ℤ)
    (s : Store TSymb) (a size : ℕ) (ys : List TSymb) (hfits : s.heap.Fits) (harray : s.Holds a ys)
    (hsize : size ≤ ys.length) :
    (∃ calls ≤ size * Nat.clog 2 size, mergeSortAt A m order (some a) size s =
        .ok ((), s.after a (mergeSort m order ys size) calls)) ∨
      (mergeSortAt A m order (some a) size s = .error .null ∧
        ∃ h n, Heap.Fits h ∧ A.pick h n = none) := by
  have hsorts : SortsAt (∃ h n, Heap.Fits h ∧ A.pick h n = none) A m order size :=
    mergeSortAt_leads (fun h hh n hn => ⟨h, n, hh, hn⟩) size
  have hleads := hsorts s a ys hfits harray hsize
  rcases hleads.cases with ⟨_, _, hrun, c, hc, rfl⟩ | hnull
  · exact .inl ⟨c, hc, hrun⟩
  · exact .inr hnull

/-- An allocator with eight addresses, which hands out the first one that is free. -/
def firstFit : Allocator TSymb where
  pick h _ := (List.range 8).find? fun a => (h a).isNone
  fresh h _ a hpick := by
    have hnone : (h a).isNone = true := List.find?_some (p := fun a => (h a).isNone) hpick
    exact Option.isNone_iff_eq_none.mp hnone

/-- A store with the symbol array of a file and nothing else. -/
def storeOf (m : MappedFile) : Store TSymb where
  heap := Function.update (fun _ => none) 0 (some (m.syms.symb.map some))
  ticks := 0

lemma fits_storeOf (m : MappedFile) : (storeOf m).heap.Fits := by
  refine (Set.finite_singleton 0).subset fun a ha => ?_
  by_contra hne
  have hne' : a ≠ 0 := hne
  exact ha (by simp [storeOf, Function.update_of_ne hne'])

/-- There is room for all copies, so the sort ends. -/
theorem mergeSortAt_refines_sampleImage :
    ∃ calls ≤ 4 * Nat.clog 2 4,
      mergeSortAt firstFit (sampleImage true) 1 (some 0) 4 (storeOf (sampleImage true)) =
        .ok ((), (storeOf (sampleImage true)).after 0
          (mergeSort (sampleImage true) 1 (sampleImage true).syms.symb 4) calls) := by
  have hends : (mergeSortAt firstFit (sampleImage true) 1 (some 0) 4
      (storeOf (sampleImage true))).isOk = true := by
    decide +kernel
  rcases mergeSortAt_refines firstFit (sampleImage true) 1 (storeOf (sampleImage true)) 0 4
    (sampleImage true).syms.symb (fits_storeOf _) (by simp [Store.Holds, storeOf])
    (by decide +kernel) with hsorted | ⟨hnull, -⟩
  · exact hsorted
  · rw [hnull] at hends
    cases hends

end FtNm
