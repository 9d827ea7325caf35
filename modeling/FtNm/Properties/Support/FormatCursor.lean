import FtNm.Construction.FormatScan
import FtNm.Properties.Support.FormatItems

/-!
# The cursors of the format

Each scanner of `FtNm.Construction.FormatScan`, started at a cursor inside a short enough
format, reads inside and leaves its cursor inside, where its counterpart on suffixes leaves off.
From these specifications follow the rounds of the outer loop: one lemma for every kind of item,
which says at which cursor the next round starts.
-/

namespace FtNm

open AccessLog

/-- A subscript of a character of the format, its NUL included. -/
def InFormat (str : List UInt8) (k : ℤ) : Prop := 0 ≤ k ∧ k ≤ str.length

/-! ## Characters and loops -/

lemma intSub_eq {k : ℕ} (hk : k < 2 ^ 31) : intSub k = k :=
  int32_of_mem (by omega) (by exact_mod_cast hk)

lemma atollSub_eq {j k : ℕ} (hj : j ≤ k) (hk : k < 2 ^ 31) : atollSub j k = k := by
  unfold atollSub
  rw [int32_of_mem (by omega) (by omega)]
  omega

lemma charAt_finishes {str : List UInt8} {sub : ℕ → ℤ} {k : ℕ} (hsub : sub k = k)
    (hk : k ≤ str.length) :
    (charAt str sub k).Finishes (InFormat str) fun c => c.1 = str.getD k 0 := by
  refine ⟨?_, ⟨str.getD k 0, hk⟩, dif_pos ⟨hsub, hk⟩, rfl⟩
  intro i hi
  rw [List.mem_singleton.mp hi, hsub]
  exact ⟨by omega, by exact_mod_cast hk⟩

lemma drop_eq_getD_cons {str : List UInt8} {k : ℕ} (hk : k < str.length) :
    str.drop k = str.getD k 0 :: str.drop (k + 1) := by
  rw [List.drop_eq_getElem_cons hk]
  simp [hk]

/-- The cursor of a suffix that begins with `c`. -/
lemma cons_of_drop {str cs : List UInt8} {c : UInt8} {k : ℕ} (h : str.drop k = c :: cs) :
    k < str.length ∧ str.getD k 0 = c ∧ str.drop (k + 1) = cs := by
  have hk : k < str.length := by
    by_contra hge
    rw [List.drop_eq_nil_of_le (Nat.le_of_not_lt hge)] at h
    cases h
  rw [drop_eq_getD_cons hk] at h
  exact ⟨hk, List.cons.inj h⟩

lemma getD_of_end {str : List UInt8} {k : ℕ} (hk : k = str.length) : str.getD k 0 = 0 := by
  simp [hk]

/-- A cursor on a character that passes a test which the NUL fails. -/
lemma lt_of_test {str : List UInt8} {p : UInt8 → Prop} (hp : ¬p 0) {k : ℕ} (hk : k ≤ str.length)
    (h : p (str.getD k 0)) : k < str.length := by
  have hend : k ≠ str.length := fun hend => hp (getD_of_end hend ▸ h)
  omega

/-- The loop stops at the first character that fails the test, at the NUL at the latest. -/
lemma scanWhile_finishes {str : List UInt8} {sub : ℕ → ℤ} {p : UInt8 → Bool} (hp : p 0 = false)
    {k : ℕ} (hsub : ∀ j, k ≤ j → j ≤ str.length → sub j = j) (hk : k ≤ str.length) :
    (scanWhile str sub p k).Finishes (InFormat str) fun j =>
      j.1 = k + ((str.drop k).takeWhile p).length := by
  induction hn : str.length - k generalizing k with
  | zero =>
    have hend : k = str.length := by omega
    rw [scanWhile]
    refine (charAt_finishes (hsub k le_rfl hk) hk).bind fun c hc => ?_
    have hnul : p c.1 = false := by rw [hc, getD_of_end hend, hp]
    rw [if_neg (by simp [hnul])]
    refine Run.finishes_pure ?_
    simp [hend]
  | succ n ih =>
    have hlt : k < str.length := by omega
    rw [scanWhile]
    refine (charAt_finishes (hsub k le_rfl hk) hk).bind fun c hc => ?_
    rw [drop_eq_getD_cons hlt, List.takeWhile_cons, ← hc]
    split_ifs with hpc
    · refine (ih (k := k + 1) (fun j hj => hsub j (by omega)) hlt (by omega)).bind fun j hj => ?_
      refine Run.finishes_pure ?_
      show j.1 = k + ((str.drop (k + 1)).takeWhile p).length.succ
      omega
    · exact Run.finishes_pure rfl

/-- Where such a loop leaves off. -/
lemma drop_takeWhile {str : List UInt8} (p : UInt8 → Bool) (k : ℕ) :
    str.drop (k + ((str.drop k).takeWhile p).length) = (str.drop k).dropWhile p := by
  have hsplit : (str.drop k).takeWhile p ++ (str.drop k).dropWhile p = str.drop k :=
    List.takeWhile_append_dropWhile
  rw [← List.drop_drop]
  nth_rewrite 2 [← hsplit]
  rw [List.drop_left]

lemma takeWhile_le {str : List UInt8} (p : UInt8 → Bool) {k : ℕ} (hk : k ≤ str.length) :
    k + ((str.drop k).takeWhile p).length ≤ str.length := by
  have hle := (List.takeWhile_sublist (l := str.drop k) p).length_le
  rw [List.length_drop] at hle
  omega

/-! ## The counterparts on suffixes -/

lemma getFlags_rest (cs : List UInt8) (flag : ℕ) :
    (getFlags cs flag).2 = cs.dropWhile (ftContains "-+#0 ") := by
  induction cs generalizing flag with
  | nil => rfl
  | cons c cs ih =>
    rw [getFlags, List.dropWhile_cons]
    split_ifs
    · exact ih _
    · rfl

/-- The characters that `get_width` consumes. -/
def inWidth (c : UInt8) : Bool := ftIsdigit c || c = '*'.toUInt8

lemma inWidth_digit {c : UInt8} (h : ftIsdigit c = true) : inWidth c = true := by
  rw [inWidth, h, Bool.true_or]

lemma inWidth_other {c : UInt8} (h : ¬ftIsdigit c = true) (hstar : c ≠ '*'.toUInt8) :
    inWidth c = false := by
  rw [inWidth, Bool.eq_false_iff.mpr h, Bool.false_or, decide_eq_false hstar]

lemma dropWhile_digits (cs : List UInt8) :
    cs.dropWhile inWidth = (cs.dropWhile ftIsdigit).dropWhile inWidth := by
  induction cs with
  | nil => rfl
  | cons c cs ih =>
    by_cases hdigit : ftIsdigit c = true
    · rw [List.dropWhile_cons_of_pos (inWidth_digit hdigit), List.dropWhile_cons_of_pos hdigit, ih]
    · rw [List.dropWhile_cons_of_neg (p := ftIsdigit) hdigit]

lemma getWidth_rest (cs : List UInt8) (digits : Bool) (args : TArgs) (va : List VaArg) :
    (getWidth cs digits args va).2.1 = cs.dropWhile inWidth := by
  induction cs generalizing digits args va with
  | nil => rfl
  | cons c cs ih =>
    by_cases hdigit : ftIsdigit c = true
    · rw [getWidth, if_pos hdigit, List.dropWhile_cons_of_pos (inWidth_digit hdigit)]
      exact ih _ _ _
    · by_cases hstar : c = '*'.toUInt8
      · have hin : inWidth c = true := by
          rw [hstar]
          decide
        rw [getWidth, if_neg hdigit, if_pos hstar, List.dropWhile_cons_of_pos hin]
        exact ih _ _ _
      · rw [getWidth, if_neg hdigit, if_neg hstar, List.dropWhile_cons_of_neg]
        simp [inWidth_other hdigit hstar]

lemma getPrecision_dot (cs : List UInt8) (args : TArgs) (va : List VaArg) :
    (getPrecision ('.'.toUInt8 :: cs) args va).2.1 = cs.dropWhile ftIsdigit := rfl

lemma getPrecision_absent {cs : List UInt8} (h : cs.head? ≠ some '.'.toUInt8) (args : TArgs)
    (va : List VaArg) : (getPrecision cs args va).2.1 = cs := by
  cases cs with
  | nil => rfl
  | cons c cs =>
    have hc : c ≠ '.'.toUInt8 := fun hc => h (by simp [hc])
    rw [getPrecision, if_neg hc]

/-- The characters that `get_specifier` passes over. -/
def beforeSpecifier (c : UInt8) : Bool :=
  ftContains "-+#* .jzhlL" c || ftContains "0123456789" c

lemma getSpecifier_cons (c : UInt8) (cs : List UInt8) :
    getSpecifier (c :: cs) =
      if beforeSpecifier c then (getSpecifier cs).map fun p => (p.1 + 1, p.2)
      else some (0, c) := rfl

lemma getSpecifier_none {cs : List UInt8} (h : getSpecifier cs = none) :
    (cs.takeWhile beforeSpecifier).length = cs.length := by
  induction cs with
  | nil => rfl
  | cons c cs ih =>
    rw [getSpecifier_cons] at h
    split_ifs at h with hc
    rw [List.takeWhile_cons_of_pos hc, List.length_cons, List.length_cons,
      ih (Option.map_eq_none_iff.mp h)]

lemma getSpecifier_some {cs : List UInt8} {k : ℕ} {spec : UInt8}
    (h : getSpecifier cs = some (k, spec)) :
    (cs.takeWhile beforeSpecifier).length = k ∧ cs[k]? = some spec := by
  induction cs generalizing k with
  | nil => cases h
  | cons c cs ih =>
    rw [getSpecifier_cons] at h
    split_ifs at h with hc
    · obtain ⟨⟨k', spec'⟩, hrest, heq⟩ := Option.map_eq_some_iff.mp h
      obtain ⟨rfl, rfl⟩ := Prod.mk.inj heq
      rw [List.takeWhile_cons_of_pos hc]
      exact ⟨congrArg (· + 1) (ih hrest).1, (ih hrest).2⟩
    · obtain ⟨rfl, rfl⟩ := Prod.mk.inj (Option.some.inj h)
      rw [List.takeWhile_cons_of_neg hc]
      exact ⟨rfl, rfl⟩

/-- The characters that the look-ahead of `set_color` passes over. -/
def inName (c : UInt8) : Bool := c ≠ '}'.toUInt8 && !(c = '%'.toUInt8 || c = 0)

lemma colorName_cons {c : UInt8} {cs : List UInt8} (hnul : c ≠ 0) :
    colorName (c :: cs) =
      if inName c then (colorName cs).map (c :: ·)
      else if c = '}'.toUInt8 then some []
      else none := by
  unfold inName
  by_cases hbrace : c = '}'.toUInt8
  · simp [colorName, hbrace]
  · by_cases hpercent : c = '%'.toUInt8
    · simp [colorName, hpercent]
    · simp [colorName, hbrace, hpercent, hnul]

lemma colorName_none {cs : List UInt8} (hnul : 0 ∉ cs) (h : colorName cs = none) :
    cs[(cs.takeWhile inName).length]? ≠ some '}'.toUInt8 := by
  induction cs with
  | nil => simp
  | cons c cs ih =>
    rw [List.mem_cons, not_or] at hnul
    rw [colorName_cons (Ne.symm hnul.1)] at h
    split_ifs at h with hc hbrace
    · rw [List.takeWhile_cons_of_pos hc]
      exact ih hnul.2 (Option.map_eq_none_iff.mp h)
    · rw [List.takeWhile_cons_of_neg hc]
      exact fun hsome => hbrace (Option.some.inj hsome)

lemma colorName_some {cs name : List UInt8} (hnul : 0 ∉ cs) (h : colorName cs = some name) :
    (cs.takeWhile inName).length = name.length ∧ cs[name.length]? = some '}'.toUInt8 := by
  induction cs generalizing name with
  | nil => cases h
  | cons c cs ih =>
    rw [List.mem_cons, not_or] at hnul
    rw [colorName_cons (Ne.symm hnul.1)] at h
    split_ifs at h with hc hbrace
    · obtain ⟨name', hrest, rfl⟩ := Option.map_eq_some_iff.mp h
      rw [List.takeWhile_cons_of_pos hc]
      exact ⟨congrArg (· + 1) (ih hnul.2 hrest).1, (ih hnul.2 hrest).2⟩
    · obtain rfl := Option.some.inj h
      rw [List.takeWhile_cons_of_neg hc]
      exact ⟨rfl, congrArg some hbrace⟩

/-- A character of a suffix, as a character of the format. -/
lemma getD_of_drop {str : List UInt8} {j k : ℕ} {c : UInt8} (h : (str.drop j)[k]? = some c) :
    j + k < str.length ∧ str.getD (j + k) 0 = c := by
  rw [List.getElem?_drop] at h
  refine ⟨(List.getElem?_eq_some_iff.mp h).1, ?_⟩
  rw [List.getD_eq_getElem?_getD, h]
  rfl

lemma getElem?_of_getD {str : List UInt8} {k : ℕ} {c : UInt8} (hc : c ≠ 0)
    (h : str.getD k 0 = c) : str[k]? = some c := by
  rw [List.getD_eq_getElem?_getD] at h
  cases hk : str[k]? with
  | none =>
    rw [hk] at h
    exact absurd h.symm hc
  | some c' =>
    rw [hk] at h
    rw [← h]
    rfl

section Scanners

variable {str : List UInt8} (hlen : str.length < 2 ^ 31)

include hlen

lemma intAt_finishes {k : ℕ} (hk : k ≤ str.length) :
    (charAt str intSub k).Finishes (InFormat str) fun c => c.1 = str.getD k 0 :=
  charAt_finishes (intSub_eq (by omega)) hk

lemma intWhile_finishes {p : UInt8 → Bool} (hp : p 0 = false) {k : ℕ} (hk : k ≤ str.length) :
    (scanWhile str intSub p k).Finishes (InFormat str) fun j =>
      j.1 = k + ((str.drop k).takeWhile p).length :=
  scanWhile_finishes hp (fun _ _ hj => intSub_eq (by omega)) hk

/-! ## The scanners of a directive -/

lemma ftAtollAt_finishes {j : ℕ} (hj : j ≤ str.length) :
    (ftAtollAt str j).Finishes (InFormat str) fun _ => True := by
  have hsub (k : ℕ) (hjk : j ≤ k) (hk : k ≤ str.length) : atollSub j k = k :=
    atollSub_eq hjk (by omega)
  unfold ftAtollAt
  refine (scanWhile_finishes (by decide) hsub hj).bind fun k hk => ?_
  have hle : k.1 ≤ str.length := hk ▸ takeWhile_le _ hj
  refine (charAt_finishes (hsub k.1 k.2 hle) hle).bind fun c hc => ?_
  -- the sign is a character of the format, so the digits still start inside
  have hdigits : j ≤ (if c.1 = '-'.toUInt8 ∨ c.1 = '+'.toUInt8 then k.1 + 1 else k.1) ∧
      (if c.1 = '-'.toUInt8 ∨ c.1 = '+'.toUInt8 then k.1 + 1 else k.1) ≤ str.length := by
    have hjk := k.2
    split_ifs with hsign
    · have hne : k.1 ≠ str.length := by
        intro hend
        rw [hc, getD_of_end hend] at hsign
        exact absurd hsign (by decide)
      omega
    · omega
  refine (scanWhile_finishes (by decide) (fun i hi => hsub i (hdigits.1.trans hi))
    hdigits.2).bind fun _ _ => ?_
  exact Run.finishes_pure trivial

/-- `get_flags` leaves `j` where its counterpart leaves off. -/
lemma getFlagsAt_finishes {j : ℕ} (hj : j ≤ str.length) (flag : ℕ) :
    (getFlagsAt str j).Finishes (InFormat str) fun k =>
      k.1 ≤ str.length ∧ (getFlags (str.drop j) flag).2 = str.drop k.1 := by
  refine (intWhile_finishes hlen (by decide) hj).mono fun k hk => ?_
  rw [hk]
  exact ⟨takeWhile_le _ hj, by rw [drop_takeWhile, getFlags_rest]⟩

/-- `get_width` moves `j` over digits and stars. -/
lemma getWidthAt_dropWhile {j : ℕ} (hj : j ≤ str.length) :
    (getWidthAt str j).Finishes (InFormat str) fun k =>
      k ≤ str.length ∧ (str.drop j).dropWhile inWidth = str.drop k := by
  induction hn : str.length - j using Nat.strong_induction_on generalizing j with
  | _ n ih =>
    -- a round ends at a later cursor, and what lies between belongs to the width
    have hround (k : ℕ) (hjk : j < k) (hk : k ≤ str.length)
        (hrest : (str.drop j).dropWhile inWidth = (str.drop k).dropWhile inWidth) :
        (getWidthAt str k).Finishes (InFormat str) fun k =>
          k ≤ str.length ∧ (str.drop j).dropWhile inWidth = str.drop k := by
      rw [hrest]
      exact ih _ (by omega) hk rfl
    unfold getWidthAt
    refine (intAt_finishes hlen hj).bind fun c hc => ?_
    rw [hc]
    split_ifs with hdigit hstar
    · have hlt : j < str.length :=
        lt_of_test (p := fun c => ftIsdigit c = true) (by decide) hj hdigit
      have hfirst : (str.drop j).dropWhile inWidth = (str.drop (j + 1)).dropWhile inWidth := by
        rw [drop_eq_getD_cons hlt, List.dropWhile_cons_of_pos (inWidth_digit hdigit)]
      refine (ftAtollAt_finishes hlen hj).bind fun _ _ => ?_
      refine (intWhile_finishes hlen (by decide) hlt).bind fun k hk => ?_
      have hle : k.1 ≤ str.length := hk ▸ takeWhile_le _ hlt
      have hdigits : (str.drop (j + 1)).dropWhile inWidth = (str.drop k.1).dropWhile inWidth := by
        rw [hk, drop_takeWhile]
        exact dropWhile_digits _
      have hjk : j < k.1 := k.2
      refine (intAt_finishes hlen hle).bind fun c' hc' => ?_
      rw [hc']
      split_ifs with hstar
      · have hlt' : k.1 < str.length :=
          lt_of_test (p := fun c => c = '*'.toUInt8) (by decide) hle hstar
        refine hround _ (by omega) hlt' ?_
        rw [hfirst, hdigits, drop_eq_getD_cons hlt', hstar]
        rfl
      · exact hround _ hjk hle (hfirst.trans hdigits)
    · have hlt : j < str.length := lt_of_test (p := fun c => c = '*'.toUInt8) (by decide) hj hstar
      refine hround _ (Nat.lt_succ_self j) hlt ?_
      rw [drop_eq_getD_cons hlt, hstar]
      rfl
    · refine Run.finishes_pure ⟨hj, ?_⟩
      have hout := inWidth_other hdigit hstar
      rcases hj.lt_or_eq with hlt | hend
      · rw [drop_eq_getD_cons hlt, List.dropWhile_cons_of_neg (by rw [hout]; decide)]
      · rw [hend, List.drop_length]
        rfl

/-- `get_width` leaves `j` where its counterpart leaves off. -/
lemma getWidthAt_finishes {j : ℕ} (hj : j ≤ str.length) (digits : Bool) (args : TArgs)
    (va : List VaArg) :
    (getWidthAt str j).Finishes (InFormat str) fun k =>
      k ≤ str.length ∧ (getWidth (str.drop j) digits args va).2.1 = str.drop k := by
  rw [getWidth_rest]
  exact getWidthAt_dropWhile hlen hj

/-- `get_precision` leaves `j` where its counterpart leaves off. -/
lemma getPrecisionAt_finishes {j : ℕ} (hj : j ≤ str.length) (args : TArgs) (va : List VaArg) :
    (getPrecisionAt str j).Finishes (InFormat str) fun k =>
      k ≤ str.length ∧ (getPrecision (str.drop j) args va).2.1 = str.drop k := by
  unfold getPrecisionAt
  refine (intAt_finishes hlen hj).bind fun c hc => ?_
  rw [hc]
  split_ifs with hdot
  · have hlt : j < str.length := lt_of_test (p := fun c => c = '.'.toUInt8) (by decide) hj hdot
    refine (intAt_finishes hlen hlt).bind fun c' _ => ?_
    have hdigits : (do
        let k ← scanWhile str intSub ftIsdigit (j + 1)
        pure k.1 : Scan ℕ).Finishes (InFormat str) fun k =>
          k ≤ str.length ∧ (getPrecision (str.drop j) args va).2.1 = str.drop k := by
      refine (intWhile_finishes hlen (by decide) hlt).bind fun k hk => ?_
      refine Run.finishes_pure ⟨hk ▸ takeWhile_le _ hlt, ?_⟩
      rw [drop_eq_getD_cons hlt, hdot, getPrecision_dot, hk, drop_takeWhile]
    dsimp only
    split_ifs
    · exact hdigits
    · exact (ftAtollAt_finishes hlen hlt).bind fun _ _ => hdigits
  · refine Run.finishes_pure ⟨hj, getPrecision_absent ?_ _ _⟩
    rcases hj.lt_or_eq with hlt | hend
    · rw [drop_eq_getD_cons hlt]
      exact fun h => hdot (Option.some.inj h)
    · rw [hend, List.drop_length]
      exact fun h => absurd h (by simp)

/-- `get_modifier` leaves `j` where its counterpart leaves off. -/
lemma getModifierAt_finishes {j : ℕ} (hj : j ≤ str.length) :
    (getModifierAt str j).Finishes (InFormat str) fun k =>
      k ≤ str.length ∧ afterModifier (str.drop j) = str.drop k := by
  induction hn : str.length - j generalizing j with
  | zero =>
    have hend : j = str.length := by omega
    unfold getModifierAt
    refine (intAt_finishes hlen hj).bind fun c hc => ?_
    rw [hc, getD_of_end hend]
    refine Run.finishes_pure ⟨hj, ?_⟩
    rw [hend, List.drop_length]
    rfl
  | succ n ih =>
    have hlt : j < str.length := by omega
    have hnext := ih (j := j + 1) hlt (by omega)
    unfold getModifierAt
    refine (intAt_finishes hlen hj).bind fun c hc => ?_
    rw [drop_eq_getD_cons hlt, ← hc]
    by_cases hletter : ftContains "hlLzj" c.1 = true
    · have hrest : afterModifier (c.1 :: str.drop (j + 1)) = afterModifier (str.drop (j + 1)) :=
        List.dropWhile_cons_of_pos hletter
      rw [if_pos hletter, hrest]
      split_ifs
      · exact (intAt_finishes hlen hlt).bind fun _ _ => hnext
      · exact hnext
    · have hrest : afterModifier (c.1 :: str.drop (j + 1)) = c.1 :: str.drop (j + 1) :=
        List.dropWhile_cons_of_neg hletter
      rw [if_neg hletter]
      refine Run.finishes_pure ⟨hj, ?_⟩
      rw [hrest, hc, ← drop_eq_getD_cons hlt]

lemma getSpecifierAt_stuck {j : ℕ} (hj : j ≤ str.length) (h : getSpecifier (str.drop j) = none) :
    (getSpecifierAt str j).Finishes (InFormat str) fun found =>
      found.1.1 = str.length ∧ found.2 = false := by
  unfold getSpecifierAt
  refine (intWhile_finishes hlen (by decide) hj).bind fun k hk => ?_
  have hend : k.1 = str.length := by
    have hall : ((str.drop j).takeWhile beforeSpecifier).length = (str.drop j).length :=
      getSpecifier_none h
    rw [List.length_drop] at hall
    exact hk.trans (by
      show j + ((str.drop j).takeWhile beforeSpecifier).length = _
      omega)
  refine (intAt_finishes hlen hend.le).bind fun c hc => ?_
  rw [getD_of_end hend] at hc
  exact Run.finishes_pure ⟨hend, by simp [hc]⟩

lemma getSpecifierAt_found {j k : ℕ} {spec : UInt8} (hj : j ≤ str.length) (hnul : 0 ∉ str)
    (h : getSpecifier (str.drop j) = some (k, spec)) :
    (getSpecifierAt str j).Finishes (InFormat str) fun found =>
      found.1.1 = j + k ∧ found.2 = true := by
  obtain ⟨hlength, hspec⟩ := getSpecifier_some h
  obtain ⟨hlt, hchar⟩ := getD_of_drop hspec
  unfold getSpecifierAt
  refine (intWhile_finishes hlen (by decide) hj).bind fun k' hk' => ?_
  have hend : k'.1 = j + k := hk'.trans (congrArg (j + ·) hlength)
  refine (intAt_finishes hlen (by omega)).bind fun c hc => ?_
  have hmem : spec ∈ str := List.mem_of_mem_drop (List.mem_of_getElem? hspec)
  have hc' : c.1 = spec := by rw [hc, hend, hchar]
  refine Run.finishes_pure ⟨hend, decide_eq_true fun hzero => hnul ?_⟩
  rw [← hzero, hc']
  exact hmem

omit hlen in
lemma copyAt_finishes {start len : ℕ} (hend : start + len ≤ str.length) :
    (copyAt str len start).Finishes (InFormat str) fun _ => True := by
  induction len generalizing start with
  | zero => exact Run.finishes_pure trivial
  | succ len ih =>
    rw [copyAt]
    refine (charAt_finishes rfl (by omega)).bind fun _ _ => ?_
    exact ih (by omega)

omit hlen in
lemma ftStrsubAt_finishes (start len : ℕ) :
    (ftStrsubAt str start len).Finishes (InFormat str) fun _ => True := by
  unfold ftStrsubAt
  refine (scanWhile_finishes (by decide) (fun _ _ _ => rfl) (Nat.zero_le _)).bind
    fun size hsize => ?_
  have hle : size.1 ≤ str.length := hsize ▸ takeWhile_le _ (Nat.zero_le _)
  split_ifs with hlong
  · exact Run.finishes_pure trivial
  · exact copyAt_finishes (by omega)

lemma setColorAt_literal {i : ℕ} (hi : i < str.length) (hnul : 0 ∉ str)
    (h : str.getD i 0 = '{'.toUInt8 → colorName (str.drop (i + 1)) = none) :
    (setColorAt str i).Finishes (InFormat str) fun k => k.1 = i := by
  unfold setColorAt
  refine (intAt_finishes hlen hi.le).bind fun c hc => ?_
  rw [hc]
  split_ifs with hbrace
  · refine (intWhile_finishes hlen (by decide) hi).bind fun j hj => ?_
    have hle : j.1 ≤ str.length := hj ▸ takeWhile_le _ hi
    refine (intAt_finishes hlen hle).bind fun c' hc' => ?_
    have hne : c'.1 ≠ '}'.toUInt8 := by
      intro hclose
      refine colorName_none (fun hmem => hnul (List.mem_of_mem_drop hmem)) (h hbrace) ?_
      have hj' : j.1 = i + 1 + ((str.drop (i + 1)).takeWhile inName).length := hj
      rw [List.getElem?_drop, ← hj']
      exact getElem?_of_getD (by decide) (hc'.symm.trans hclose)
    rw [if_neg hne]
    exact Run.finishes_pure rfl
  · exact Run.finishes_pure rfl

lemma setColorAt_tag {i : ℕ} {name : List UInt8} (hi : i < str.length) (hnul : 0 ∉ str)
    (hbrace : str.getD i 0 = '{'.toUInt8) (h : colorName (str.drop (i + 1)) = some name) :
    (setColorAt str i).Finishes (InFormat str) fun k => k.1 = i + 1 + name.length := by
  obtain ⟨hlength, hclose⟩ := colorName_some (fun hmem => hnul (List.mem_of_mem_drop hmem)) h
  obtain ⟨hlt, hchar⟩ := getD_of_drop hclose
  unfold setColorAt
  refine (intAt_finishes hlen hi.le).bind fun c hc => ?_
  rw [if_pos (hc.trans hbrace)]
  refine (intWhile_finishes hlen (by decide) hi).bind fun j hj => ?_
  have hend : j.1 = i + 1 + name.length := hj.trans (congrArg (i + 1 + ·) hlength)
  refine (intAt_finishes hlen (by omega)).bind fun c' hc' => ?_
  rw [if_pos (by rw [hc', hend, hchar])]
  refine (ftStrsubAt_finishes _ _).bind fun _ _ => ?_
  exact Run.finishes_pure hend

/-! ## The rounds of the loop -/

lemma ftPrintfHelperAt_end : (ftPrintfHelperAt str str.length).Finishes (InFormat str)
    fun _ => True := by
  unfold ftPrintfHelperAt
  refine (intAt_finishes hlen le_rfl).bind fun c hc => ?_
  rw [if_pos (hc.trans (getD_of_end rfl))]
  exact Run.finishes_pure trivial

section Rounds

variable {i : ℕ} (hi : i < str.length) (hnul : 0 ∉ str)

include hi hnul

omit hlen in
lemma getD_ne_zero : str.getD i 0 ≠ 0 := by
  intro hzero
  rw [List.getD_eq_getElem?_getD, List.getElem?_eq_getElem hi] at hzero
  exact hnul (hzero ▸ List.getElem_mem hi)

lemma ftPrintfHelperAt_directive {k : ℕ} {spec : UInt8} (hpercent : str.getD i 0 = '%'.toUInt8)
    (h : getSpecifier (str.drop (i + 1)) = some (k, spec)) :
    (ftPrintfHelperAt str i).Reaches (InFormat str) (ftPrintfHelperAt str (i + 1 + k + 1)) := by
  rw [ftPrintfHelperAt.eq_def str i]
  refine (intAt_finishes hlen hi.le).reaches fun c hc => ?_
  rw [if_neg (by rw [hc, hpercent]; decide), if_pos (hc.trans hpercent)]
  refine (intAt_finishes hlen hi).reaches fun next hnext => ?_
  have hlt : i + 1 < str.length := by
    have hcs := (getD_of_drop (getSpecifier_some h).2).1
    omega
  rw [if_neg (by rw [hnext]; exact getD_ne_zero hlt hnul)]
  refine (getSpecifierAt_found hlen hi hnul h).reaches fun found hfound => ?_
  rw [if_pos hfound.2, hfound.1]
  refine (getFlagsAt_finishes hlen hi 0).reaches fun j hj => ?_
  refine (getWidthAt_finishes hlen hj.1 false initializeArgs []).reaches fun j hj => ?_
  refine (getPrecisionAt_finishes hlen hj.1 initializeArgs []).reaches fun j hj => ?_
  refine (getModifierAt_finishes hlen hj.1).reaches fun _ _ => ?_
  exact Run.Reaches.refl _ _

lemma ftPrintfHelperAt_stuck (hpercent : str.getD i 0 = '%'.toUInt8) (hlt : i + 1 < str.length)
    (h : getSpecifier (str.drop (i + 1)) = none) :
    (ftPrintfHelperAt str i).Reaches (InFormat str) (ftPrintfHelperAt str (str.length + 1)) := by
  rw [ftPrintfHelperAt.eq_def str i]
  refine (intAt_finishes hlen hi.le).reaches fun c hc => ?_
  rw [if_neg (by rw [hc, hpercent]; decide), if_pos (hc.trans hpercent)]
  refine (intAt_finishes hlen hi).reaches fun next hnext => ?_
  rw [if_neg (by rw [hnext]; exact getD_ne_zero hlt hnul)]
  refine (getSpecifierAt_stuck hlen hi h).reaches fun found hfound => ?_
  rw [if_neg (by simp [hfound.2]), hfound.1]
  exact Run.Reaches.refl _ _

omit hnul in
lemma ftPrintfHelperAt_last (hpercent : str.getD i 0 = '%'.toUInt8) (hend : i + 1 = str.length) :
    (ftPrintfHelperAt str i).Finishes (InFormat str) fun _ => True := by
  unfold ftPrintfHelperAt
  refine (intAt_finishes hlen hi.le).bind fun c hc => ?_
  rw [if_neg (by rw [hc, hpercent]; decide), if_pos (hc.trans hpercent)]
  refine (intAt_finishes hlen hi).bind fun next hnext => ?_
  rw [if_pos (hnext.trans (getD_of_end hend))]
  exact Run.finishes_pure trivial

lemma ftPrintfHelperAt_literal (hpercent : str.getD i 0 ≠ '%'.toUInt8)
    (h : str.getD i 0 = '{'.toUInt8 → colorName (str.drop (i + 1)) = none) :
    (ftPrintfHelperAt str i).Reaches (InFormat str) (ftPrintfHelperAt str (i + 1)) := by
  rw [ftPrintfHelperAt.eq_def str i]
  refine (intAt_finishes hlen hi.le).reaches fun c hc => ?_
  rw [if_neg (by rw [hc]; exact getD_ne_zero hi hnul), if_neg (by rw [hc]; exact hpercent)]
  refine (setColorAt_literal hlen hi hnul h).reaches fun k hk => ?_
  rw [hk]
  exact Run.Reaches.refl _ _

lemma ftPrintfHelperAt_tag {name : List UInt8} (hbrace : str.getD i 0 = '{'.toUInt8)
    (h : colorName (str.drop (i + 1)) = some name) :
    (ftPrintfHelperAt str i).Reaches (InFormat str)
      (ftPrintfHelperAt str (i + 1 + name.length + 1)) := by
  rw [ftPrintfHelperAt.eq_def str i]
  refine (intAt_finishes hlen hi.le).reaches fun c hc => ?_
  rw [if_neg (by rw [hc, hbrace]; decide), if_neg (by rw [hc, hbrace]; decide)]
  refine (setColorAt_tag hlen hi hnul hbrace h).reaches fun k hk => ?_
  rw [hk]
  exact Run.Reaches.refl _ _

end Rounds

end Scanners

end FtNm
