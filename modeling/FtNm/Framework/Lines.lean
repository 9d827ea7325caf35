import Mathlib.Tactic

/-!
# Lines of a text that comes in pieces

A separator cuts a text over any alphabet into lines: `linesOf`.  The separators do not belong
to the lines, and what stands behind the last of them is a line if it is not empty.

A reader that gets the text in pieces can take one line out after each piece, if there is one.
`backlog` is what has come and has not been taken.

* `linesOf_append`, `linesOf_last` and `linesOf_nil` are the rules of `linesOf`; `linesOf_rows`
  puts a text together from rows and takes it apart again.
* `not_mem_backlog_iff`: no whole line is left in the end exactly if every last run of pieces
  has at most as many separators as pieces.
* `Paced` says the same piece by piece, with a bound on the sizes; `paced_iff` takes it apart.
* `handed` is what such a reader hands over, with the backlog at the end as it is; `handed_spec`
  says that the text is what has been handed over.
-/

namespace Lines

variable {α : Type} [DecidableEq α] (sep : α)

/-- The lines of a text. -/
def linesOf : List α → List (List α)
  | [] => []
  | c :: cs =>
    if c = sep then [] :: linesOf cs
    else
      match linesOf cs with
      | [] => [[c]]
      | l :: ls => (c :: l) :: ls

/-- The text without its first line, if that line has ended. -/
def takeLine (s : List α) : List α := if sep ∈ s then s.drop (s.idxOf sep + 1) else s

/-- What is left of `s` and the pieces when a line is taken out after each piece. -/
def backlog (s : List α) (pieces : List (List α)) : List α :=
  pieces.foldl (fun s piece => takeLine sep (s ++ piece)) s

variable {sep} {l r s : List α}

/-! ## Lines -/

@[simp] lemma linesOf_nil : linesOf sep ([] : List α) = [] := rfl

lemma linesOf_append (h : sep ∉ l) (r : List α) :
    linesOf sep (l ++ sep :: r) = l :: linesOf sep r := by
  induction l with
  | nil => rw [List.nil_append, linesOf, if_pos rfl]
  | cons c l ih =>
    rw [List.mem_cons, not_or] at h
    rw [List.cons_append, linesOf, if_neg (Ne.symm h.1), ih h.2]

lemma linesOf_last (h : sep ∉ s) (hs : s ≠ []) : linesOf sep s = [s] := by
  induction s with
  | nil => exact absurd rfl hs
  | cons c s ih =>
    rw [List.mem_cons, not_or] at h
    rw [linesOf, if_neg (Ne.symm h.1)]
    cases s with
    | nil => rfl
    | cons c' s => rw [ih h.2 (List.cons_ne_nil _ _)]

lemma linesOf_ne_nil (hs : s ≠ []) : linesOf sep s ≠ [] := by
  by_cases h : sep ∈ s
  · obtain ⟨l, r, rfl, hl⟩ := List.eq_append_cons_of_mem h
    rw [linesOf_append hl]
    exact List.cons_ne_nil _ _
  · rw [linesOf_last h hs]
    exact List.cons_ne_nil _ _

lemma idxOf_append_cons (h : sep ∉ l) (r : List α) : (l ++ sep :: r).idxOf sep = l.length := by
  rw [List.idxOf_append_of_notMem h, List.idxOf_cons_self, Nat.add_zero]

lemma takeLine_append (h : sep ∉ l) (r : List α) : takeLine sep (l ++ sep :: r) = r := by
  rw [takeLine, if_pos (by simp), idxOf_append_cons h, ← List.drop_drop, List.drop_left]
  rfl

lemma takeLine_none (h : sep ∉ s) : takeLine sep s = s := if_neg h

lemma count_takeLine (s : List α) : (takeLine sep s).count sep = s.count sep - 1 := by
  by_cases h : sep ∈ s
  · obtain ⟨l, r, rfl, hl⟩ := List.eq_append_cons_of_mem h
    rw [takeLine_append hl, List.count_append, List.count_eq_zero_of_not_mem hl,
      List.count_cons_self]
    omega
  · rw [takeLine_none h, List.count_eq_zero_of_not_mem h]

/-! ## The backlog -/

@[simp] lemma backlog_nil (s : List α) : backlog sep s [] = s := rfl

@[simp] lemma backlog_cons (s piece : List α) (pieces : List (List α)) :
    backlog sep s (piece :: pieces) = backlog sep (takeLine sep (s ++ piece)) pieces := rfl

/-- Pieces keep pace with their separators if every last run of them does. -/
lemma not_mem_backlog (s : List α) (pieces : List (List α)) :
    sep ∉ backlog sep s pieces ↔ s.count sep + pieces.flatten.count sep ≤ pieces.length ∧
      ∀ t, t <:+ pieces → t.flatten.count sep ≤ t.length := by
  induction pieces generalizing s with
  | nil => simp [List.count_eq_zero]
  | cons piece pieces ih =>
    rw [backlog_cons, ih, count_takeLine, List.count_append, List.flatten_cons, List.count_append,
      List.length_cons]
    have hsuffix : (∀ t, t <:+ piece :: pieces → t.flatten.count sep ≤ t.length) ↔
        piece.count sep + pieces.flatten.count sep ≤ pieces.length + 1 ∧
          ∀ t, t <:+ pieces → t.flatten.count sep ≤ t.length := by
      simp [List.suffix_cons_iff, or_imp, forall_and]
    rw [hsuffix]
    constructor
    · rintro ⟨hle, hlast⟩
      have hrest := hlast pieces List.suffix_rfl
      exact ⟨by omega, by omega, hlast⟩
    · rintro ⟨hle, -, hlast⟩
      have hrest := hlast pieces List.suffix_rfl
      exact ⟨by omega, hlast⟩

lemma not_mem_backlog_iff (pieces : List (List α)) : sep ∉ backlog sep [] pieces ↔
    ∀ t, t <:+ pieces → t.flatten.count sep ≤ t.length := by
  rw [not_mem_backlog]
  refine ⟨And.right, fun h => ⟨?_, h⟩⟩
  rw [List.count_nil, Nat.zero_add]
  exact h pieces List.suffix_rfl

/-! ## Sizes -/

variable (sep) in
/-- A line is taken out after each piece, no whole line is left in the end, and neither a line
nor what is left ever comes to the size `bound`. -/
def Paced (bound : ℕ) : List α → List (List α) → Prop
  | s, [] => sep ∉ s
  | s, piece :: pieces => (s ++ piece).idxOf sep < bound ∧
      (takeLine sep (s ++ piece)).length < bound ∧ Paced bound (takeLine sep (s ++ piece)) pieces

/-- Lines are measured one after the other. -/
lemma length_lines_iff {bound : ℕ} (s rest : List α) :
    (∀ l ∈ linesOf sep (s ++ rest), l.length < bound) ↔
      (sep ∈ s → s.idxOf sep < bound) ∧
        ∀ l ∈ linesOf sep (takeLine sep s ++ rest), l.length < bound := by
  by_cases hmem : sep ∈ s
  · obtain ⟨l, r, rfl, hl⟩ := List.eq_append_cons_of_mem hmem
    rw [takeLine_append hl, idxOf_append_cons hl, List.append_assoc, List.cons_append,
      linesOf_append hl]
    simp
  · rw [takeLine_none hmem]
    exact ⟨fun h => ⟨fun h' => absurd h' hmem, h⟩, And.right⟩

/-- The first backlog is that of no piece at all. -/
lemma length_backlog_cons_iff {bound : ℕ} (hs : s.length < bound) (piece : List α)
    (pieces : List (List α)) :
    (∀ t, t <+: piece :: pieces → (backlog sep s t).length < bound) ↔
      ∀ t, t <+: pieces → (backlog sep (takeLine sep (s ++ piece)) t).length < bound := by
  constructor
  · exact fun h t ht => h (piece :: t) (List.cons_prefix_cons.mpr ⟨rfl, ht⟩)
  · intro h t ht
    rcases List.prefix_cons_iff.mp ht with rfl | ⟨t', rfl, ht'⟩
    · exact hs
    · exact h t' ht'

lemma paced_iff {bound : ℕ} (hs : s.length < bound) (pieces : List (List α)) :
    Paced sep bound s pieces ↔ sep ∉ backlog sep s pieces ∧
      (∀ t, t <+: pieces → (backlog sep s t).length < bound) ∧
        ∀ l ∈ linesOf sep (s ++ pieces.flatten), l.length < bound := by
  induction pieces generalizing s with
  | nil =>
    rw [Paced, backlog_nil, List.flatten_nil, List.append_nil]
    refine ⟨fun h => ⟨h, ?_, ?_⟩, And.left⟩
    · intro t ht
      rw [List.prefix_nil.mp ht]
      exact hs
    · rcases eq_or_ne s [] with rfl | hne
      · simp
      · rw [linesOf_last h hne]
        simpa using hs
  | cons piece pieces ih =>
    rw [Paced, backlog_cons, length_backlog_cons_iff hs, List.flatten_cons, ← List.append_assoc,
      length_lines_iff]
    constructor
    · rintro ⟨hidx, hlength, hpaced⟩
      obtain ⟨hend, hsizes, hrest⟩ := (ih hlength).mp hpaced
      exact ⟨hend, hsizes, fun _ => hidx, hrest⟩
    · rintro ⟨hend, hsizes, hidx, hrest⟩
      have hlength : (takeLine sep (s ++ piece)).length < bound := hsizes [] List.nil_prefix
      refine ⟨?_, hlength, (ih hlength).mpr ⟨hend, hsizes, hrest⟩⟩
      by_cases hmem : sep ∈ s ++ piece
      · exact hidx hmem
      · rw [List.idxOf_eq_length hmem]
        rwa [takeLine_none hmem] at hlength

/-! ## What is handed over -/

variable (sep) in
/-- The lines that are taken out, and in the end what is left, if anything is. -/
def handed : List α → List (List α) → List (List α)
  | s, [] => if s = [] then [] else [s]
  | s, piece :: pieces =>
    if sep ∈ s ++ piece then
      (s ++ piece).take ((s ++ piece).idxOf sep) :: handed (takeLine sep (s ++ piece)) pieces
    else handed (s ++ piece) pieces

lemma handed_line {piece : List α} (hjoined : s ++ piece = l ++ sep :: r) (hl : sep ∉ l)
    (pieces : List (List α)) : handed sep s (piece :: pieces) = l :: handed sep r pieces := by
  rw [handed, hjoined, if_pos (by simp), idxOf_append_cons hl, takeLine_append hl, List.take_left]

lemma handed_read {piece : List α} (h : sep ∉ s ++ piece) (pieces : List (List α)) :
    handed sep s (piece :: pieces) = handed sep (s ++ piece) pieces := by
  rw [handed, if_neg h]

/-- **Nothing is lost.**  The text is the lines that have been taken out, a separator behind each,
and what is left in the end. -/
lemma handed_spec (s : List α) (pieces : List (List α)) :
    ∃ lines last, handed sep s pieces = lines ++ (if last = [] then [] else [last]) ∧
      s ++ pieces.flatten = lines.flatMap (· ++ [sep]) ++ last ∧ ∀ l ∈ lines, sep ∉ l := by
  induction pieces generalizing s with
  | nil => exact ⟨[], s, rfl, by simp, by simp⟩
  | cons piece pieces ih =>
    rw [List.flatten_cons, ← List.append_assoc]
    by_cases hmem : sep ∈ s ++ piece
    · obtain ⟨l, r, hjoined, hl⟩ := List.eq_append_cons_of_mem hmem
      obtain ⟨lines, last, hhanded, htext, hlines⟩ := ih r
      refine ⟨l :: lines, last, ?_, ?_, ?_⟩
      · rw [handed_line hjoined hl, hhanded, List.cons_append]
      · rw [hjoined, List.append_assoc, List.cons_append, htext, List.flatMap_cons]
        simp
      · exact List.forall_mem_cons.mpr ⟨hl, hlines⟩
    · obtain ⟨lines, last, hhanded, htext, hlines⟩ := ih (s ++ piece)
      exact ⟨lines, last, by rw [handed_read hmem, hhanded], htext, hlines⟩

end Lines
