import FtNm.Properties.IntegerConversions
import FtNm.Properties.LiteralText
import FtNm.Properties.Support.TextDirectives

/-!
# The meaning of a format

A format is written piece by piece: characters that stand for themselves, colour tags, and
directives with the arguments they take.  Each piece has a text of its own, which for the
directives is the one of C, and `ftPrintfBytes_pieces` says that `ft_printf` is the homomorphism
between the two: it prints the texts in order, gives every directive its own arguments, leaves
those that belong to none of them, and counts what it prints.  No piece gets into the way of
another, although the loop looks for the end of a tag and for a specifier in the whole rest of the
format.

The escape sequences of the colours are printed and not counted.  The counter, the cursors and the
subscripts are of type `int`, so the format, its strings and what is counted have to be shorter than
`2 ^ 31` bytes.
-/

namespace FtNm

/-! ## Pieces -/

/-- A piece of a format, with the arguments that it is given. -/
inductive Piece
  | literal (s : List UInt8)
  | tag (name : List UInt8)
  | integer (d : IntDirective) (slot : ℕ)
  | text (d : Directive) (wslot pslot : ℕ) (t : TextArg)

namespace Piece

/-- How it is written. -/
def format : Piece → List UInt8
  | .literal s => s
  | .tag name => '{'.toUInt8 :: (name ++ ['}'.toUInt8])
  | .integer d _ => '%'.toUInt8 :: d.text
  | .text d _ _ _ => '%'.toUInt8 :: d.text

/-- The arguments that it takes: those of the stars, and the one that is converted. -/
def args : Piece → List VaArg
  | .literal _ | .tag _ => []
  | .integer _ slot => [.word slot]
  | .text d wslot pslot t => d.stars wslot pslot ++ t.taken

/-- What it stands for. -/
def shown : Piece → List UInt8
  | .literal s => s
  | .tag name => (getColor name).getD []
  | .integer d slot => d.cText slot
  | .text d wslot pslot t => d.shown (toInt wslot) (toInt pslot) t

/-- What it adds to the result of `ft_printf`. -/
def counted : Piece → ℕ
  | .tag _ => 0
  | piece => piece.shown.length

/-- A piece that can be told from what stands around it.  A width of stars must have an absolute
value, and a string that is copied the length of an `int`. -/
def Ok : Piece → Prop
  | .literal s => ∀ c ∈ s, c ≠ '%'.toUInt8 ∧ c ≠ '{'.toUInt8
  | .tag name => PlainName name
  | .integer _ _ => True
  | .text d wslot _ t => d.spec = t.spec ∧ ¬(d.width = .star ∧ toInt wslot = -2 ^ 31) ∧
      (t.body none).length < 2 ^ 31

/-- The state behind a piece whose arguments are gone. -/
def after (piece : Piece) (var : TVars) (va : List VaArg) : TVars where
  counter := var.counter + piece.counted
  out := var.out ++ piece.shown
  typesList := va
  halt := var.halt
  tooLong := var.tooLong

end Piece

/-! ## One piece -/

section Step

variable (printF : TArgs → TVars → TVars) (rest : List UInt8)

/-- Characters that stand for themselves. -/
lemma ftPrintfHelper_plain {s : List UInt8}
    (h : ∀ c ∈ s, c ≠ '%'.toUInt8 ∧ c ≠ '{'.toUInt8) (var : TVars) :
    ftPrintfHelper printF 0 (s ++ rest) var = ftPrintfHelper printF 0 rest (var.put s) := by
  induction s generalizing var with
  | nil =>
    rw [List.nil_append, TVars.put]
    simp
  | cons c s ih =>
    obtain ⟨hpercent, hbrace⟩ := h c List.mem_cons_self
    have hcolor : setColor c (s ++ rest) var = (var.put [c], 0) := if_neg hbrace
    rw [List.cons_append, ftPrintfHelper_literal printF var hpercent, hcolor, List.drop_zero,
      ih fun c hc => h c (List.mem_cons_of_mem _ hc), TVars.put_put, List.singleton_append]

/-- A tag, whatever comes behind it. -/
lemma ftPrintfHelper_tag {name : List UInt8} (h : PlainName name) (var : TVars) :
    ftPrintfHelper printF 0 ('{'.toUInt8 :: (name ++ '}'.toUInt8 :: rest)) var =
      ftPrintfHelper printF 0 rest { var with out := var.out ++ (getColor name).getD [] } := by
  have hpercent : '{'.toUInt8 ≠ '%'.toUInt8 := by decide
  have hcolor : setColor '{'.toUInt8 (name ++ '}'.toUInt8 :: rest) var =
      ({ var with out := var.out ++ (getColor name).getD [] }, name.length + 1) := by
    rw [setColor, if_pos rfl, colorName_append h]
  have hdrop : (name ++ '}'.toUInt8 :: rest).drop (name.length + 1) = rest := by
    rw [List.drop_append, List.drop_eq_nil_of_le (Nat.le_succ _), Nat.add_sub_cancel_left]
    rfl
  rw [ftPrintfHelper_literal printF var hpercent, hcolor, hdrop]

/-- **The rounds of the loop at a piece.** -/
lemma ftPrintfHelper_piece {piece : Piece} (h : piece.Ok) (hcounted : piece.counted < 2 ^ 31)
    {var : TVars} {va : List VaArg} (hvar : var.typesList = piece.args ++ va) :
    ftPrintfHelper printF 0 (piece.format ++ rest) var =
      ftPrintfHelper printF 0 rest (piece.after var va) := by
  cases piece with
  | literal s =>
    obtain rfl : var.typesList = va := hvar
    exact ftPrintfHelper_plain printF rest h var
  | tag name =>
    obtain rfl : var.typesList = va := hvar
    rw [Piece.format, List.cons_append, List.append_assoc, List.singleton_append,
      ftPrintfHelper_tag printF rest h]
    simp [Piece.after, Piece.counted, Piece.shown]
  | integer d slot =>
    have htypes : var = { var with typesList := .word slot :: va } := by
      rw [← List.singleton_append, ← show var.typesList = [VaArg.word slot] ++ va from hvar]
    have hlen : (d.cText slot).length < 2 ^ 31 := hcounted
    rw [Piece.format, List.cons_append, d.ftPrintfHelper_text, htypes,
      d.manageArgs_cText slot hlen, TVars.putstr_of_lt _ hlen]
    rfl
  | text d wslot pslot t =>
    obtain ⟨hspec, hwidth, hlen⟩ := h
    have htypes : var.typesList = d.stars wslot pslot ++ (t.taken ++ va) := by
      rw [hvar, Piece.args, List.append_assoc]
    rw [Piece.format, List.cons_append,
      Directive.ftPrintfHelper_textDirective hspec hwidth hlen printF rest htypes]
    rfl

end Step

/-! ## All pieces -/

/-- What the loop does with a format that is written in pieces, in front of more of it. -/
lemma ftPrintfHelper_pieces (printF : TArgs → TVars → TVars) {pieces : List Piece}
    (h : ∀ piece ∈ pieces, piece.Ok) (htotal : (pieces.map Piece.counted).sum < 2 ^ 31)
    (rest : List UInt8) {var : TVars} {va : List VaArg}
    (hvar : var.typesList = pieces.flatMap Piece.args ++ va) :
    ftPrintfHelper printF 0 (pieces.flatMap Piece.format ++ rest) var =
      ftPrintfHelper printF 0 rest
        { counter := var.counter + (pieces.map Piece.counted).sum
          out := var.out ++ pieces.flatMap Piece.shown
          typesList := va
          halt := var.halt
          tooLong := var.tooLong } := by
  induction pieces generalizing var with
  | nil =>
    obtain rfl : var.typesList = va := hvar
    simp
  | cons piece pieces ih =>
    rw [List.map_cons, List.sum_cons] at htotal
    have hpieces : ∀ piece ∈ pieces, piece.Ok := fun piece hp => h piece (List.mem_cons_of_mem _ hp)
    have htail : ftPrintfHelper printF 0 (pieces.flatMap Piece.format ++ rest)
        (piece.after var (pieces.flatMap Piece.args ++ va)) = _ := ih hpieces (by omega) rfl
    have htypes : var.typesList = piece.args ++ (pieces.flatMap Piece.args ++ va) := by
      rw [hvar, List.flatMap_cons, List.append_assoc]
    rw [List.flatMap_cons, List.append_assoc,
      ftPrintfHelper_piece printF _ (h piece List.mem_cons_self) (by omega) htypes, htail]
    simp [Piece.after, Int.add_assoc]

/-- **Formats.**  `ft_printf` comes to the end of the format, prints the texts of the pieces, one
after the other, takes their arguments and no others, and returns how much it has printed, the
colours aside. -/
theorem ftPrintfBytes_pieces (printF : TArgs → TVars → TVars) (pieces : List Piece)
    (h : ∀ piece ∈ pieces, piece.Ok) (hformat : (pieces.flatMap Piece.format).length < 2 ^ 31)
    (htotal : (pieces.map Piece.counted).sum < 2 ^ 31) (va : List VaArg) :
    ∃ counter, ftPrintfBytes printF (pieces.flatMap Piece.format)
        (pieces.flatMap Piece.args ++ va) =
          { counter := counter
            out := pieces.flatMap Piece.shown
            typesList := va
            halt := none
            tooLong := false } ∧
      int32 counter = (pieces.map Piece.counted).sum := by
  have hrun : ftPrintfHelper printF 0 (pieces.flatMap Piece.format ++ [])
      (initialVars (pieces.flatMap Piece.args ++ va)) = _ :=
    ftPrintfHelper_pieces printF h htotal [] rfl
  rw [List.append_nil, ftPrintfHelper_nil] at hrun
  rw [ftPrintfBytes, TVars.indexed_of_lt _ hformat, hrun]
  refine ⟨_, rfl, ?_⟩
  show int32 (0 + ((pieces.map Piece.counted).sum : ℕ)) = _
  rw [zero_add]
  exact int32_of_mem (by omega) (by exact_mod_cast htotal)

/-- `%#lx`. -/
def sampleHex : IntDirective :=
  { IntDirective.longestHex with
    modifier := .l
    precision := none
    precision_digits := nofun
    precision_lt := nofun }

/-- `%*.2s`. -/
def sampleString : Directive :=
  { Directive.starLong with
    width := .star
    precision := some (.number ⟨cstr "2", by decide, forall_mem_of_all (by decide), by decide⟩)
    modifier := .integer .absent
    spec := 's'.toUInt8
    width_head := by decide
    spec_not_mem := by decide
    spec_ne := by decide }

/-- `{red}%*.2s{eoc} at %#lx`. -/
def samplePieces : List Piece := [
  .tag (cstr "red"), .text sampleString 5 0 (.str (cstr "main")), .tag (cstr "eoc"),
  .literal (cstr " at "), .integer sampleHex 255]

theorem ftPrintfBytes_pieces_samplePieces :
    (∀ piece ∈ samplePieces, piece.Ok) ∧
    ∃ counter, ftPrintfBytes noFloat (cstr "{red}%*.2s{eoc} at %#lx")
      [.word 5, .str (cstr "main"), .word 255, .null] =
        { counter := counter
          out := 27 :: cstr "[31m   ma" ++ 27 :: cstr "[39m at 0xff"
          typesList := [.null]
          halt := none
          tooLong := false } ∧ int32 counter = 13 := by
  have hok : ∀ piece ∈ samplePieces, piece.Ok := by
    intro piece hpiece
    simp only [samplePieces, List.mem_cons, List.not_mem_nil, or_false] at hpiece
    rcases hpiece with rfl | rfl | rfl | rfl | rfl
    · exact (by decide : PlainName (cstr "red"))
    · exact ⟨rfl, fun h => absurd h.2 (by decide), by decide⟩
    · exact (by decide : PlainName (cstr "eoc"))
    · exact forall_mem_of_all (by decide)
    · trivial
  have htotal : (samplePieces.map Piece.counted).sum = 13 := by decide
  have hout : samplePieces.flatMap Piece.shown =
      27 :: cstr "[31m   ma" ++ 27 :: cstr "[39m at 0xff" := by decide
  obtain ⟨counter, hrun, hcounter⟩ := ftPrintfBytes_pieces noFloat samplePieces hok (by decide)
    (by rw [htotal]; norm_num) [.null]
  rw [hout] at hrun
  rw [htotal] at hcounter
  exact ⟨hok, counter, hrun, hcounter⟩

end FtNm
