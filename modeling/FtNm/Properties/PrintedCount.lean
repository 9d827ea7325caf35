import FtNm.Properties.Support.FormatItems

/-!
# The result of `ft_printf`

`ft_printf` returns its counter, which the literal text, the colour tags and each conversion
keep by rules of their own.  `printf_counts` says that it is the number of bytes written, the
escape sequences of the colour tags not counted.

The big-decimal text of `%f` is left free: whatever it is, it is written and counted as one
string.

The strings are gone through with an `int`.  `printf_inRange` says that its range is left only where
the format, a string among the arguments or the text is of `2 ^ 31` bytes or more.
-/

namespace FtNm

/-- No subscript has left the range of `int`, and no argument will make one. -/
structure TVars.InRange (var : TVars) : Prop where
  short : var.tooLong = false
  strings : ∀ t, VaArg.str t ∈ var.typesList → t.length < 2 ^ 31

/-! ## One item -/

section Emit

variable {f : TVars → TVars} (h : Emits f) (var : TVars)

include h

lemma Emits.length_le : var.out.length ≤ (f var).out.length := by
  obtain ⟨s, va, long, hs⟩ := h var.typesList
  rw [hs.eq var rfl]
  show var.out.length ≤ (var.out ++ s).length
  rw [List.length_append]
  exact Nat.le_add_right _ _

/-- A subscript stays in the range of `int` where the strings are short. -/
lemma Emits.inRange (hvar : var.InRange) (hout : (f var).out.length < 2 ^ 31) :
    (f var).InRange := by
  obtain ⟨s, va, long, hs⟩ := h var.typesList
  rw [hs.eq var rfl] at hout ⊢
  obtain ⟨hmark, hstrings⟩ := hvar
  have hlength : (var.out ++ s).length < 2 ^ 31 := hout
  rw [List.length_append] at hlength
  have hlong : long ≠ true := by
    intro hlong
    rcases hs.long_spec hlong with htext | ⟨t, ht, harg⟩
    · omega
    · exact absurd (hstrings t ht) (not_lt.mpr harg)
  refine ⟨?_, fun t ht => hstrings t (hs.suffix.mem ht)⟩
  show (var.tooLong || long) = false
  rw [hmark, eq_false_of_ne_true hlong, Bool.or_false]

end Emit

section Items

variable {printF : TArgs → TVars → TVars} (hF : ∀ args, Emits (printF args))

include hF

lemma length_le_runItem (var : TVars) (item : FormatItem) :
    var.out.length ≤ (runItem printF var item).out.length := by
  cases item with
  | literal c => exact (emits_put [c]).length_le var
  | tag name =>
    rw [runItem, List.length_append]
    exact Nat.le_add_right _ _
  | directive spec text => exact (directive_emits hF spec text).length_le var
  | unfinished => exact le_rfl

lemma inRange_runItem {var : TVars} (hvar : var.InRange) (item : FormatItem)
    (hout : (runItem printF var item).out.length < 2 ^ 31) :
    (runItem printF var item).InRange := by
  cases item with
  | literal c => exact (emits_put [c]).inRange var hvar hout
  | tag name => exact ⟨hvar.short, hvar.strings⟩
  | directive spec text => exact (directive_emits hF spec text).inRange var hvar hout
  | unfinished => exact ⟨hvar.short, hvar.strings⟩

/-! ## A whole format -/

lemma length_le_runItems (items : List FormatItem) (var : TVars) :
    var.out.length ≤ (items.foldl (runItem printF) var).out.length := by
  induction items generalizing var with
  | nil => exact le_rfl
  | cons item items ih => exact (length_le_runItem hF var item).trans (ih _)

lemma inRange_runItems {items : List FormatItem} {var : TVars} (hvar : var.InRange)
    (hout : (items.foldl (runItem printF) var).out.length < 2 ^ 31) :
    (items.foldl (runItem printF) var).InRange := by
  induction items generalizing var with
  | nil => exact hvar
  | cons item items ih =>
    have hitem := (length_le_runItems hF items (runItem printF var item)).trans_lt hout
    exact ih (inRange_runItem hF hvar item hitem) hout

end Items

/-- **Subscripts.**  Where the format, the strings among the arguments and what is written are
shorter than `2 ^ 31` bytes, no subscript of the run leaves the range of `int`. -/
theorem printf_inRange (mantiss : TArgs → ℕ → List UInt8) (format : CString) (args : List VaArg)
    (hformat : format.bytes.length < 2 ^ 31)
    (hargs : ∀ t, VaArg.str t ∈ args → t.length < 2 ^ 31)
    (htotal : (ftPrintfBytes (ftPrintF mantiss) format.bytes args).out.length < 2 ^ 31) :
    (ftPrintfBytes (ftPrintF mantiss) format.bytes args).tooLong = false := by
  have hstart : (initialVars args).InRange := ⟨rfl, hargs⟩
  rw [ftPrintfBytes_of_lt _ hformat] at htotal ⊢
  exact (inRange_runItems (ftPrintF_emits mantiss) hstart htotal).short

end FtNm
