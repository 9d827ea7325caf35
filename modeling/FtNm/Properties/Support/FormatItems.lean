import FtNm.Construction.FtPrintf

/-!
# A format as a list of items

What a format asks for does not depend on the arguments: literal characters, colour tags and
directives follow each other.  `formatItems` splits a format the way the outer loop walks over
it, and `ftPrintfHelper_eq_runItems` says that the loop runs the items one after the other.

`Emits s` is the effect that almost every piece of `ft_printf` has on the state: it writes `s`,
adds the length of `s` to the counter and takes some of the arguments.  `directive_emits` finds
it for every directive.
-/

namespace FtNm

/-- An item of a format.  A directive carries its specifier and the text behind its `%`. -/
inductive FormatItem
  | literal (c : UInt8)
  | tag (name : List UInt8)
  | directive (spec : UInt8) (text : List UInt8)
  | unfinished
  deriving DecidableEq, Repr

/-- The items of a format; the number is how many characters belong to the item before.  A `%`
at the very end is no item, and one that reaches no specifier is the last one. -/
def formatItems : ℕ → List UInt8 → List FormatItem
  | _, [] => []
  | skip + 1, _ :: cs => formatItems skip cs
  | 0, c :: cs =>
    if c = '%'.toUInt8 then
      if cs = [] then []
      else
        match getSpecifier cs with
        | none => [.unfinished]
        | some (k, spec) => .directive spec cs :: formatItems (k + 1) cs
    else
      match if c = '{'.toUInt8 then colorName cs else none with
      | none => .literal c :: formatItems 0 cs
      | some name => .tag name :: formatItems (name.length + 1) cs

/-- Every `%` of the format, one at its very end apart, begins a directive that reaches a
specifier. -/
def DirectivesComplete (format : CString) : Prop :=
  FormatItem.unfinished ∉ formatItems 0 format.bytes

instance decidableDirectivesComplete (format : CString) : Decidable (DirectivesComplete format) :=
  inferInstanceAs (Decidable (_ ∉ _))

/-! ## The items of a suffix -/

@[simp] lemma formatItems_nil (skip : ℕ) : formatItems skip [] = [] := by
  cases skip <;> rfl

lemma formatItems_skip (skip : ℕ) (cs : List UInt8) :
    formatItems skip cs = formatItems 0 (cs.drop skip) := by
  induction skip generalizing cs with
  | zero => rfl
  | succ skip ih =>
    cases cs with
    | nil => simp
    | cons c cs => exact ih cs

@[simp] lemma formatItems_last : formatItems 0 ['%'.toUInt8] = [] := rfl

lemma formatItems_directive {cs : List UInt8} {k : ℕ} {spec : UInt8}
    (h : getSpecifier cs = some (k, spec)) :
    formatItems 0 ('%'.toUInt8 :: cs) =
      .directive spec cs :: formatItems 0 (cs.drop (k + 1)) := by
  have hcs : cs ≠ [] := by
    rintro rfl
    cases h
  rw [formatItems, if_pos rfl, if_neg hcs, h]
  show _ :: formatItems (k + 1) cs = _
  rw [formatItems_skip]

lemma formatItems_unfinished {cs : List UInt8} (hcs : cs ≠ []) (h : getSpecifier cs = none) :
    formatItems 0 ('%'.toUInt8 :: cs) = [.unfinished] := by
  rw [formatItems, if_pos rfl, if_neg hcs, h]

lemma formatItems_literal {c : UInt8} (hc : c ≠ '%'.toUInt8) {cs : List UInt8}
    (h : c = '{'.toUInt8 → colorName cs = none) :
    formatItems 0 (c :: cs) = .literal c :: formatItems 0 cs := by
  have hname : (if c = '{'.toUInt8 then colorName cs else none) = none := by
    split_ifs with hbrace
    · exact h hbrace
    · rfl
  rw [formatItems, if_neg hc, hname]

lemma formatItems_tag {cs name : List UInt8} (h : colorName cs = some name) :
    formatItems 0 ('{'.toUInt8 :: cs) = .tag name :: formatItems 0 (cs.drop (name.length + 1)) := by
  rw [formatItems, if_neg (by decide), if_pos rfl, h]
  show _ :: formatItems (name.length + 1) cs = _
  rw [formatItems_skip]

/-- **Induction over a format**, with a case for each way in which a round of the loop goes. -/
@[elab_as_elim]
lemma formatInduction {motive : List UInt8 → Prop} (format : List UInt8) (nil : motive [])
    (last : motive ['%'.toUInt8])
    (unfinished : ∀ cs, cs ≠ [] → getSpecifier cs = none → motive ('%'.toUInt8 :: cs))
    (directive : ∀ cs k spec, getSpecifier cs = some (k, spec) → motive (cs.drop (k + 1)) →
      motive ('%'.toUInt8 :: cs))
    (literal : ∀ c cs, c ≠ '%'.toUInt8 → (c = '{'.toUInt8 → colorName cs = none) → motive cs →
      motive (c :: cs))
    (tag : ∀ cs name, colorName cs = some name → motive (cs.drop (name.length + 1)) →
      motive ('{'.toUInt8 :: cs)) : motive format := by
  -- the cursor only moves forward: strong induction on what is left of the format
  induction hn : format.length using Nat.strong_induction_on generalizing format with
  | _ n ih =>
    subst hn
    cases format with
    | nil => exact nil
    | cons c cs =>
      have hrest (k : ℕ) : motive (cs.drop k) := by
        refine ih _ ?_ _ rfl
        rw [List.length_drop, List.length_cons]
        omega
      by_cases hpercent : c = '%'.toUInt8
      · subst hpercent
        by_cases hcs : cs = []
        · subst hcs
          exact last
        · cases hspec : getSpecifier cs with
          | none => exact unfinished cs hcs hspec
          | some found => exact directive cs found.1 found.2 hspec (hrest _)
      · by_cases hname : c = '{'.toUInt8 → colorName cs = none
        · exact literal c cs hpercent hname (hrest 0)
        · obtain ⟨rfl, hsome⟩ := Classical.not_imp.mp hname
          obtain ⟨name, htag⟩ := Option.ne_none_iff_exists'.mp hsome
          exact tag cs name htag (hrest _)

/-! ## Running the items -/

/-- What the loop does at an item. -/
def runItem (printF : TArgs → TVars → TVars) (var : TVars) : FormatItem → TVars
  | .literal c => var.put [c]
  | .tag name => { var with out := var.out ++ (getColor name).getD [] }
  | .directive spec text => directive printF spec text var
  | .unfinished => { var with halt := some .overrun }

lemma setColor_literal {c : UInt8} {cs : List UInt8} (h : c = '{'.toUInt8 → colorName cs = none)
    (var : TVars) : setColor c cs var = (var.put [c], 0) := by
  unfold setColor
  split_ifs with hbrace
  · rw [h hbrace]
  · rfl

lemma setColor_tag {cs name : List UInt8} (h : colorName cs = some name) (var : TVars) :
    setColor '{'.toUInt8 cs var =
      ({ var with out := var.out ++ (getColor name).getD [] }, name.length + 1) := by
  rw [setColor, if_pos rfl, h]

/-- **The loop runs the items of the format.** -/
lemma ftPrintfHelper_eq_runItems (printF : TArgs → TVars → TVars) (format : List UInt8)
    (var : TVars) :
    ftPrintfHelper printF 0 format var =
      (formatItems 0 format).foldl (runItem printF) var := by
  induction format using formatInduction generalizing var with
  | nil => rfl
  | last => rfl
  | unfinished cs hcs hspec =>
    rw [ftPrintfHelper_stuck _ _ hcs hspec, formatItems_unfinished hcs hspec]
    rfl
  | directive cs k spec hspec ih =>
    rw [ftPrintfHelper_directive _ _ hspec, formatItems_directive hspec, List.foldl_cons]
    exact ih _
  | literal c cs hpercent hname ih =>
    rw [ftPrintfHelper_literal _ _ hpercent, setColor_literal hname,
      formatItems_literal hpercent hname, List.foldl_cons]
    exact ih _
  | tag cs name htag ih =>
    rw [ftPrintfHelper_literal _ _ (by decide), setColor_tag htag, formatItems_tag htag,
      List.foldl_cons]
    exact ih _

lemma ftPrintfBytes_eq_runItems (printF : TArgs → TVars → TVars) (format : List UInt8)
    (args : List VaArg) : ftPrintfBytes printF format args =
      (formatItems 0 format).foldl (runItem printF) ((initialVars args).indexed format) :=
  ftPrintfHelper_eq_runItems printF format _

/-- The cursors have the range of `int`. -/
lemma ftPrintfBytes_of_lt (printF : TArgs → TVars → TVars) {format : List UInt8}
    (h : format.length < 2 ^ 31) (args : List VaArg) : ftPrintfBytes printF format args =
      (formatItems 0 format).foldl (runItem printF) (initialVars args) := by
  rw [ftPrintfBytes_eq_runItems, TVars.indexed_of_lt _ h]

/-! ## What a conversion emits -/

/-- A conversion that finds the arguments `l` writes and counts the text `s` and leaves `va`, and
looks at nothing else of the state.  It comes to a string that is too long (`long`) only if that is
its text or one of its arguments. -/
structure EmitsOn (f : TVars → TVars) (l : List VaArg) (s : List UInt8) (va : List VaArg)
    (long : Bool) : Prop where
  eq : ∀ var : TVars, var.typesList = l →
    f var = { { var with typesList := va }.put s with tooLong := var.tooLong || long }
  suffix : va <:+ l
  long_spec : long = true → 2 ^ 31 ≤ s.length ∨ ∃ t, .str t ∈ l ∧ 2 ^ 31 ≤ t.length

/-- What is emitted depends on the arguments only. -/
def Emits (f : TVars → TVars) : Prop := ∀ l, ∃ s va long, EmitsOn f l s va long

section Emit

variable {f g : TVars → TVars} {l l' va : List VaArg} {s : List UInt8} {long : Bool}

lemma EmitsOn.of_put (hva : va <:+ l)
    (h : ∀ var : TVars, var.typesList = l → f var = { var with typesList := va }.put s) :
    EmitsOn f l s va false where
  eq var hvar := by
    rw [h var hvar, Bool.or_false]
    rfl
  suffix := hva
  long_spec h := Bool.noConfusion h

lemma EmitsOn.of_putstr (hva : va <:+ l)
    (h : ∀ var : TVars, var.typesList = l → f var = { var with typesList := va }.putstr s) :
    EmitsOn f l s va (decide (2 ^ 31 ≤ s.length)) where
  eq := h
  suffix := hva
  long_spec hlong := .inl (of_decide_eq_true hlong)

/-- Arguments taken before the text is written make no difference. -/
lemma EmitsOn.of_taken (h : EmitsOn f l' s va long) (hl : l' <:+ l)
    (hg : ∀ var : TVars, var.typesList = l → g var = f { var with typesList := l' }) :
    EmitsOn g l s va long where
  eq var hvar := (hg var hvar).trans (h.eq _ rfl)
  suffix := h.suffix.trans hl
  long_spec hlong := (h.long_spec hlong).imp_right fun ⟨t, ht, hlength⟩ => ⟨t, hl.mem ht, hlength⟩

end Emit

lemma emits_put (s : List UInt8) : Emits (·.put s) := fun l =>
  ⟨s, l, false, .of_put List.suffix_rfl fun var hvar => by rw [← hvar]⟩

lemma suffix_vaWord (l : List VaArg) : (vaWord l).2 <:+ l := by
  cases l with
  | nil => exact List.suffix_rfl
  | cons a l => cases a <;> exact List.suffix_cons _ _

lemma suffix_vaStr (l : List VaArg) : (vaStr l).2 <:+ l := by
  cases l with
  | nil => exact List.suffix_rfl
  | cons a l => cases a <;> exact List.suffix_cons _ _

/-- What is taken for a string is one of the arguments, unless it is short. -/
lemma mem_of_vaStr {l : List VaArg}
    (h : 2 ^ 31 ≤ ((vaStr l).1.getD (cstr "(null)")).length) :
    ∃ t, VaArg.str t ∈ l ∧ 2 ^ 31 ≤ t.length := by
  have hempty : ¬2 ^ 31 ≤ ([] : List UInt8).length := by decide
  have hnull : ¬2 ^ 31 ≤ (cstr "(null)").length := by decide
  cases l with
  | nil => exact absurd h hempty
  | cons a l =>
    cases a with
    | str t => exact ⟨t, List.mem_cons_self, h⟩
    | word w => exact absurd h hempty
    | null => exact absurd h hnull

lemma ftPrintD_emits (args : TArgs) : Emits (ftPrintD args) := by
  intro l
  let x := ftSigned args (vaWord l).1
  let start := { args with result := ftLtoa x }
  let filled :=
    if args.precision = 0 ∧ x = 0 then { args with result := [] } else ftPrecision start
  by_cases hplain : args.plain = true
  · refine ⟨ftLtoa x, _, _, .of_putstr (suffix_vaWord l) fun var hvar => ?_⟩
    rw [ftPrintD, hvar]
    exact if_pos hplain
  · refine ⟨(ftWidth filled).result, _, _, .of_putstr (suffix_vaWord l) fun var hvar => ?_⟩
    rw [ftPrintD, hvar]
    exact if_neg hplain

lemma ftPrintPoubx_emits (args : TArgs) : Emits (ftPrintPoubx args) := by
  intro l
  let numbered := { args with unsignEd := ftUnsigned args (vaWord l).1 }
  let start := { numbered with
    result := if numbered.unsignEd = 0 ∧ args.precision = 0 then [] else ftBase numbered }
  by_cases hplain : args.plain = true
  · refine ⟨if args.spec = 'p'.toUInt8 then cstr "0x" ++ start.result else start.result, _, _,
      .of_putstr (suffix_vaWord l) fun var hvar => ?_⟩
    rw [ftPrintPoubx, hvar]
    exact if_pos hplain
  · refine ⟨(ftWidth (ftPrecision start)).result, _, _,
      .of_putstr (suffix_vaWord l) fun var hvar => ?_⟩
    rw [ftPrintPoubx, hvar]
    exact if_neg hplain

/-- The argument is copied first. -/
lemma ftPrintS_emits (args : TArgs) : Emits (ftPrintS args) := by
  intro l
  let copied := (vaStr l).1.getD (cstr "(null)")
  obtain ⟨s, hs⟩ : ∃ s, ∀ var : TVars, var.typesList = l → ftPrintS args var =
      ({ var with typesList := (vaStr l).2 }.indexed copied).putstr s := by
    by_cases hplain : args.plain = true
    · refine ⟨copied, fun var hvar => ?_⟩
      rw [ftPrintS, hvar]
      exact if_pos hplain
    · refine ⟨(ftWidth (ftPrecision { args with result := copied })).result, fun var hvar => ?_⟩
      rw [ftPrintS, hvar]
      exact if_neg hplain
  refine ⟨s, _, decide (2 ^ 31 ≤ copied.length) || decide (2 ^ 31 ≤ s.length), ?_,
    suffix_vaStr l, ?_⟩
  · intro var hvar
    rw [hs var hvar, ← Bool.or_assoc]
    rfl
  · intro hlong
    rcases (Bool.or_eq_true _ _).mp hlong with harg | htext
    · exact .inr (mem_of_vaStr (of_decide_eq_true harg))
    · exact .inl (of_decide_eq_true htext)

lemma ftPrintF_emits (mantiss : TArgs → ℕ → List UInt8) (args : TArgs) :
    Emits (ftPrintF mantiss args) := by
  intro l
  let text := mantiss args (vaWord l).1
  refine ⟨(ftWidth { args with result := text }).result, _, _,
    .of_putstr (suffix_vaWord l) fun var hvar => ?_⟩
  rw [ftPrintF, hvar]

/-- A character is counted by its width, and the padding fills exactly that. -/
lemma ftPrintC_emits (args : TArgs) : Emits (ftPrintC args) := by
  intro l
  obtain ⟨c, va, htaken, hva⟩ : ∃ c va, (if args.spec = 'c'.toUInt8 then
      (UInt8.ofNat (vaWord l).1, (vaWord l).2) else (args.spec, l)) = (c, va) ∧ va <:+ l := by
    split_ifs
    · exact ⟨_, _, rfl, suffix_vaWord l⟩
    · exact ⟨_, _, rfl, List.suffix_rfl⟩
  let pad := if args.has MASK_ZERO then '0' else ' '
  let left := !args.has MASK_MINUS
  by_cases hchar : ftContains "%c" args.spec = true <;> by_cases hwidth : args.width ≤ 0
  · refine ⟨[c], va, _, .of_put hva fun var hvar => ?_⟩
    simp only [ftPrintC, hvar, htaken, if_pos hchar, if_pos hwidth]
  · refine ⟨padd [c] (args.width - 1) pad left, va, _, .of_put hva fun var hvar => ?_⟩
    have hlength : ((padd [c] (args.width - 1) pad left).length : ℤ) = args.width := by
      rw [length_padd, List.length_singleton]
      omega
    simp only [ftPrintC, hvar, htaken, if_pos hchar, if_neg hwidth, TVars.put, hlength]
    rfl
  · refine ⟨[args.spec], va, _, .of_putstr hva fun var hvar => ?_⟩
    simp only [ftPrintC, hvar, htaken, if_neg hchar, if_pos hwidth]
  · refine ⟨padd [args.spec] (args.width - 1) pad left, va, _,
      .of_putstr hva fun var hvar => ?_⟩
    simp only [ftPrintC, hvar, htaken, if_neg hchar, if_neg hwidth]
    rfl

section Conversions

variable {printF : TArgs → TVars → TVars}

lemma manageArgs_emits (hF : ∀ args, Emits (printF args)) (args : TArgs) :
    Emits (manageArgs printF args) := by
  intro l
  unfold manageArgs
  split_ifs
  · exact ftPrintD_emits args l
  · exact ftPrintPoubx_emits args l
  · exact ftPrintS_emits args l
  · exact hF args l
  · exact ftPrintC_emits args l

lemma suffix_getWidth (cs : List UInt8) (digits : Bool) (args : TArgs) (va : List VaArg) :
    (getWidth cs digits args va).2.2 <:+ va := by
  induction cs generalizing digits args va with
  | nil => exact List.suffix_rfl
  | cons c cs ih =>
    rw [getWidth]
    by_cases hdigit : ftIsdigit c = true
    · rw [if_pos hdigit]
      exact ih _ _ _
    · rw [if_neg hdigit]
      by_cases hstar : c = '*'.toUInt8
      · rw [if_pos hstar]
        exact (ih _ _ _).trans (suffix_vaWord va)
      · rw [if_neg hstar]

lemma suffix_vaArgPrecision (cs : List UInt8) (args : TArgs) (va : List VaArg) :
    (vaArgPrecision cs args va).2 <:+ va := by
  unfold vaArgPrecision
  by_cases hstar : cs.head? = some '*'.toUInt8
  · rw [if_pos hstar]
    exact suffix_vaWord va
  · rw [if_neg hstar]
    dsimp only
    split_ifs <;> exact List.suffix_rfl

lemma suffix_getPrecision (cs : List UInt8) (args : TArgs) (va : List VaArg) :
    (getPrecision cs args va).2.2 <:+ va := by
  cases cs with
  | nil => exact List.suffix_rfl
  | cons c cs =>
    rw [getPrecision]
    by_cases hdot : c = '.'.toUInt8
    · rw [if_pos hdot]
      exact suffix_vaArgPrecision cs args va
    · rw [if_neg hdot]

/-- The scanners write nothing; the conversion at the end does. -/
lemma directive_emits (hF : ∀ args, Emits (printF args)) (spec : UInt8) (text : List UInt8) :
    Emits (directive printF spec text) := by
  intro l
  obtain ⟨args, va, hva, hdirective⟩ : ∃ args va, va <:+ l ∧ ∀ var : TVars, var.typesList = l →
      directive printF spec text var = manageArgs printF args { var with typesList := va } := by
    refine ⟨_, _, ?_, fun var hvar => by rw [directive, hvar]⟩
    exact (suffix_getPrecision _ _ _).trans (suffix_getWidth _ _ _ _)
  obtain ⟨s, va', long, hemits⟩ := manageArgs_emits hF args va
  exact ⟨s, va', long, hemits.of_taken hva hdirective⟩

end Conversions

/-! ## Where a run ends -/

lemma Emits.halt {f : TVars → TVars} (h : Emits f) (var : TVars) : (f var).halt = var.halt := by
  obtain ⟨s, va, long, hs⟩ := h var.typesList
  rw [hs.eq var rfl]
  rfl

section Halt

variable {printF : TArgs → TVars → TVars} (hF : ∀ args, Emits (printF args))

include hF

end Halt

end FtNm
