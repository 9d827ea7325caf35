import FtNm.Properties.Support.FormatCursor

/-!
# Reading the format inside its bounds

The scanners all stop at the NUL of the format.  The loop around them does not: a directive that
reaches no specifier leaves `i` on the NUL, and the pre-increment of the loop condition steps
over it.

`scanSafe_iff` says when that happens: the reads stay inside and the loop ends exactly when
every directive is complete and the format is short enough for an `int` cursor.
-/

namespace FtNm

open AccessLog

/-- `ft_printf_helper` reads the format at subscripts up to that of the NUL, and ends. -/
def ScanSafe (format : CString) : Prop :=
  (ftPrintfHelperAt format.bytes 0).All (InFormat format.bytes) ∧
    (ftPrintfHelperAt format.bytes 0).out = .ok ()

/-! ## All rounds -/

/-- From the cursor `i` on, the loop ends inside the format, or reads behind its NUL. -/
def EndsAs (str : List UInt8) (i : ℕ) : Prop :=
  (FormatItem.unfinished ∉ formatItems 0 (str.drop i) →
      (ftPrintfHelperAt str i).Finishes (InFormat str) fun _ => True) ∧
    (FormatItem.unfinished ∈ formatItems 0 (str.drop i) →
      intSub (str.length + 1) ∈ (ftPrintfHelperAt str i).log)

lemma EndsAs.of_reaches {str : List UInt8} {i k : ℕ} {item : FormatItem}
    (hitem : item ≠ .unfinished)
    (hitems : formatItems 0 (str.drop i) = item :: formatItems 0 (str.drop k))
    (hreaches : (ftPrintfHelperAt str i).Reaches (InFormat str) (ftPrintfHelperAt str k))
    (hk : EndsAs str k) : EndsAs str i := by
  unfold EndsAs
  rw [hitems, List.mem_cons, or_iff_right (Ne.symm hitem)]
  exact ⟨fun h => hreaches.finishes (hk.1 h), fun h => hreaches.mem_log (hk.2 h)⟩

/-- The read that follows a directive without a specifier. -/
lemma mem_log_overrun (str : List UInt8) :
    intSub (str.length + 1) ∈ (ftPrintfHelperAt str (str.length + 1)).log := by
  unfold ftPrintfHelperAt
  exact Run.mem_log_bind (List.mem_singleton_self _) _

lemma endsAs {str : List UInt8} (hlen : str.length < 2 ^ 31) (hnul : 0 ∉ str) {i : ℕ}
    (hi : i ≤ str.length) : EndsAs str i := by
  generalize hsuffix : str.drop i = suffix
  induction suffix using formatInduction generalizing i with
  | nil =>
    obtain rfl : i = str.length := le_antisymm hi (List.drop_eq_nil_iff.mp hsuffix)
    refine ⟨fun _ => ftPrintfHelperAt_end hlen, fun h => ?_⟩
    rw [hsuffix] at h
    cases h
  | last =>
    obtain ⟨hlt, hpercent, hnil⟩ := cons_of_drop hsuffix
    have hend : i + 1 = str.length := le_antisymm hlt (List.drop_eq_nil_iff.mp hnil)
    refine ⟨fun _ => ftPrintfHelperAt_last hlen hlt hpercent hend, fun h => ?_⟩
    rw [hsuffix, formatItems_last] at h
    cases h
  | unfinished cs hcs hspec =>
    obtain ⟨hlt, hpercent, rfl⟩ := cons_of_drop hsuffix
    have hlt' : i + 1 < str.length := Nat.lt_of_not_le (List.drop_eq_nil_iff.not.mp hcs)
    have hitems := formatItems_unfinished hcs hspec
    rw [← hsuffix] at hitems
    refine ⟨fun h => absurd (hitems ▸ List.mem_singleton_self _) h, fun _ => ?_⟩
    exact (ftPrintfHelperAt_stuck hlen hlt hnul hpercent hlt' hspec).mem_log (mem_log_overrun str)
  | directive cs k spec hspec ih =>
    obtain ⟨hlt, hpercent, rfl⟩ := cons_of_drop hsuffix
    have hk := (getD_of_drop (getSpecifier_some hspec).2).1
    have hitems := formatItems_directive hspec
    rw [← hsuffix, List.drop_drop] at hitems
    refine EndsAs.of_reaches (by simp) hitems
      (ftPrintfHelperAt_directive hlen hlt hnul hpercent hspec) (ih ?_ ?_)
    · omega
    · exact List.drop_drop.symm
  | literal c cs hpercent hname ih =>
    obtain ⟨hlt, rfl, rfl⟩ := cons_of_drop hsuffix
    have hitems := formatItems_literal hpercent hname
    rw [← hsuffix] at hitems
    exact EndsAs.of_reaches (by simp) hitems
      (ftPrintfHelperAt_literal hlen hlt hnul hpercent hname) (ih hlt rfl)
  | tag cs name htag ih =>
    obtain ⟨hlt, hbrace, rfl⟩ := cons_of_drop hsuffix
    have hk := (getD_of_drop (colorName_some
      (fun hmem => hnul (List.mem_of_mem_drop hmem)) htag).2).1
    have hitems := formatItems_tag htag
    rw [← hsuffix, List.drop_drop] at hitems
    refine EndsAs.of_reaches (by simp) hitems
      (ftPrintfHelperAt_tag hlen hlt hnul hbrace htag) (ih ?_ ?_)
    · omega
    · exact List.drop_drop.symm

/-- What a read that succeeds says of its cursor. -/
lemma charAt_returns (str : List UInt8) (sub : ℕ → ℤ) (k : ℕ) :
    (charAt str sub k).Returns fun c => sub k = k ∧ c.1 = str.getD k 0 := by
  intro c h
  unfold charAt at h
  split_ifs at h with hin
  exact ⟨hin.1, congrArg Subtype.val (Except.ok.inj h).symm⟩

/-- A NUL read at a cursor inside is the one at the end. -/
lemma intSub_length_of_nul {str : List UInt8} (hnul : 0 ∉ str) {k : ℕ} (hk : k ≤ str.length)
    (hsub : intSub k = k) (h : str.getD k 0 = 0) : intSub str.length = str.length := by
  rcases hk.lt_or_eq with hlt | rfl
  · exact absurd h (getD_ne_zero hlt hnul)
  · exact hsub

/-- The loop ends at the NUL only, and its cursor is an `int`. -/
lemma ftPrintfHelperAt_returns {str : List UInt8} (hnul : 0 ∉ str) (i : ℕ) :
    (ftPrintfHelperAt str i).Returns fun _ => intSub str.length = str.length := by
  induction hn : str.length + 1 - i using Nat.strong_induction_on generalizing i with
  | _ n ih =>
    have hnext (k : ℕ) (hi : i ≤ str.length) (hk : i < k) :
        (ftPrintfHelperAt str k).Returns fun _ => intSub str.length = str.length :=
      ih _ (by omega) k rfl
    rw [ftPrintfHelperAt.eq_def]
    refine (charAt_returns _ _ _).bind fun c hc => ?_
    split_ifs with hend hpercent
    · exact Run.returns_pure (intSub_length_of_nul hnul c.2 hc.1 (hc.2.symm.trans hend))
    · refine (charAt_returns _ _ _).bind fun next hn' => ?_
      split_ifs with hend'
      · exact Run.returns_pure (intSub_length_of_nul hnul next.2 hn'.1 (hn'.2.symm.trans hend'))
      · refine Run.returns_bind fun found => ?_
        have hlater : i < found.1.1 + 1 := Nat.lt_succ_of_lt found.1.2
        split_ifs
        · refine Run.returns_bind fun j => ?_
          refine Run.returns_bind fun j => ?_
          refine Run.returns_bind fun j => ?_
          refine Run.returns_bind fun _ => ?_
          exact hnext _ c.2 hlater
        · exact hnext _ c.2 hlater
    · refine Run.returns_bind fun k => ?_
      exact hnext _ c.2 (Nat.lt_succ_of_le k.2)

/-- An `int` subscript equal to its cursor. -/
lemma lt_of_intSub_eq {k : ℕ} (h : intSub k = k) : k < 2 ^ 31 := by
  have hlt := (int32_le k).2
  unfold intSub at h
  omega

/-- The subscript behind the NUL is none of the format. -/
lemma not_inFormat_overrun {str : List UInt8} (hlen : str.length < 2 ^ 31) :
    ¬InFormat str (intSub (str.length + 1)) := by
  rintro ⟨hnonneg, hle⟩
  rcases (Nat.succ_le_of_lt hlen).lt_or_eq with hlt | hlast
  · rw [intSub_eq hlt] at hle
    omega
  · have hwrap : intSub (2 ^ 31) = -2 ^ 31 := by decide
    have hcursor : str.length + 1 = 2 ^ 31 := hlast
    rw [hcursor, hwrap] at hnonneg
    exact absurd hnonneg (by decide)

/-- **When the format is read inside its bounds.**  Exactly when every directive reaches a
specifier and the NUL has an `int` subscript. -/
theorem scanSafe_iff (format : CString) :
    ScanSafe format ↔ DirectivesComplete format ∧ format.bytes.length < 2 ^ 31 := by
  constructor
  · rintro ⟨hall, hout⟩
    have hlen := lt_of_intSub_eq (ftPrintfHelperAt_returns format.nulFree 0 _ hout)
    refine ⟨fun hmem => ?_, hlen⟩
    have hread := (endsAs hlen format.nulFree (Nat.zero_le _)).2 hmem
    exact not_inFormat_overrun hlen (hall _ hread)
  · rintro ⟨hcomplete, hlen⟩
    obtain ⟨hall, ⟨⟩, hout, -⟩ := (endsAs hlen format.nulFree (Nat.zero_le _)).1 hcomplete
    exact ⟨hall, hout⟩

/-- A format that ends in a width. -/
def widthOnly : CString where
  bytes := cstr "%5"
  nulFree := by decide

/-- The format ends at the subscript `2`, and the loop reads at `3`. -/
theorem not_scanSafe_widthOnly :
    3 ∈ (ftPrintfHelperAt widthOnly.bytes 0).log ∧ ¬ScanSafe widthOnly := by
  have hlen : widthOnly.bytes.length = 2 := by decide
  have hlt : widthOnly.bytes.length < 2 ^ 31 := by
    rw [hlen]
    norm_num
  have hread := (endsAs hlt widthOnly.nulFree (Nat.zero_le _)).2 (by decide)
  have hsafe : ¬ScanSafe widthOnly := fun h => not_inFormat_overrun hlt (h.1 _ hread)
  rw [hlen] at hread
  exact ⟨hread, hsafe⟩

end FtNm
