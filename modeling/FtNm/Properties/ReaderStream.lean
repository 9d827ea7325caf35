import FtNm.Properties.LineReader

/-!
# Nothing of the stream is lost

`get_next_line` does not return the lines of every stream, since it hands over at the end what it
has not got round to (`LineReader.lean`).  But it hands it over: `successive_lossless` says that
the answers of the calls are always the whole stream, in order and in one piece, whatever the
reads deliver.  Only the last answer can have line feeds in it.  The bytes behind a NUL would be
lost, and a `Chunk` has none.
-/

namespace FtNm

open Lines

/-- The calls hand over `lines`, and then always return `0`. -/
def HandsOver (fd : ℤ) (reader : Reader) (lines : List (List UInt8)) : Prop :=
  ∀ n, successive fd (lines.length + n) reader =
    some (lines.map (fun l => ⟨1, some l⟩) ++ List.replicate n ⟨0, none⟩)

section Calls

variable {fd : ℤ} {reader reader' : Reader} {lines : List (List UInt8)}

lemma handsOver_congr (h : getNextLine fd reader = getNextLine fd reader')
    (hnext : HandsOver fd reader' lines) : HandsOver fd reader lines := by
  intro n
  have hcalls := hnext n
  cases hn : lines.length + n with
  | zero =>
    rw [hn] at hcalls
    exact hcalls
  | succ k =>
    rw [hn, successive, ← h] at hcalls
    rw [successive, hcalls]

lemma handsOver_line {l : List UInt8} (h : getNextLine fd reader = some (⟨1, some l⟩, reader'))
    (hnext : HandsOver fd reader' lines) : HandsOver fd reader (l :: lines) := by
  intro n
  rw [List.length_cons, Nat.add_right_comm, successive_succ h, hnext n, List.map_cons,
    List.cons_append, Option.map_some]

lemma handsOver_end (h : getNextLine fd reader = some (⟨0, none⟩, reader'))
    (h' : getNextLine fd reader' = some (⟨0, none⟩, reader')) : HandsOver fd reader [] :=
  returns_end h h'

end Calls

section Run

variable {fd : ℤ} (hfd : 0 ≤ fd ∧ fd < 4864)

include hfd

/-- At the end of the stream, what is left is handed over. -/
lemma handsOver_nil {rest : Rest} {s : List UInt8} (hrest : rest.orNew = some s)
    (hs : s.length < 2 ^ 31) : HandsOver fd ⟨rest, []⟩ (handed lineFeed s []) := by
  have hcall := nextLine_end hrest hs
  have hempty : getNextLine fd ⟨.null, []⟩ = some (⟨0, none⟩, ⟨.null, []⟩) := by
    rw [getNextLine_eq hfd]
    rfl
  rw [← getNextLine_eq hfd] at hcall
  rw [handed]
  split_ifs at hcall ⊢ with hnil
  · exact handsOver_end hcall hempty
  · exact handsOver_line hcall (handsOver_end hempty hempty)

/-- **Run.**  From any state on, the calls hand over what a reader of pieces does. -/
lemma handsOver_handed {rest : Rest} {s : List UInt8} (hrest : rest.orNew = some s)
    (chunks : List Chunk) (hsize : (s ++ (pieces chunks).flatten).length < 2 ^ 31) :
    HandsOver fd ⟨rest, chunks⟩ (handed lineFeed s (pieces chunks)) := by
  induction chunks generalizing rest s with
  | nil =>
    rw [pieces, List.map_nil, List.flatten_nil, List.append_nil] at hsize
    exact handsOver_nil hfd hrest hsize
  | cons chunk chunks ih =>
    have hpieces : pieces (chunk :: chunks) = chunk.bytes :: pieces chunks := rfl
    rw [hpieces, List.flatten_cons, ← List.append_assoc] at hsize
    have hlength : (s ++ chunk.bytes).length < 2 ^ 31 := by
      rw [List.length_append] at hsize
      omega
    have hs : s.length < 2 ^ 31 := by
      rw [List.length_append] at hlength
      omega
    by_cases hmem : lineFeed ∈ s ++ chunk.bytes
    · obtain ⟨l, r, hjoined, hl⟩ := List.eq_append_cons_of_mem hmem
      have hcall : nextLine ⟨rest, chunk :: chunks⟩ = _ := nextLine_line hrest hs hjoined hl
      rw [hjoined, List.length_append, List.length_cons] at hlength
      rw [if_pos ⟨by omega, by omega⟩, ← getNextLine_eq hfd] at hcall
      rw [hpieces, handed_line hjoined hl]
      refine handsOver_line hcall (ih rfl ?_)
      rw [hjoined] at hsize
      simp only [List.length_append, List.length_cons] at hsize ⊢
      omega
    · have hcall : nextLine ⟨rest, chunk :: chunks⟩ = _ := nextLine_read hrest hs hmem hlength
      rw [← getNextLine_eq hfd, ← getNextLine_eq hfd] at hcall
      rw [hpieces, handed_read hmem]
      exact handsOver_congr hcall (ih rfl hsize)

end Run

/-- **Nothing is lost.**  The answers are the stream: lines, each with its line feed behind it, and
what comes behind the last of them, if anything does. -/
theorem successive_lossless {fd : ℤ} (hfd : 0 ≤ fd ∧ fd < 4864) (chunks : List Chunk)
    (hsize : (pieces chunks).flatten.length < 2 ^ 31) :
    ∃ lines last, (pieces chunks).flatten = lines.flatMap (· ++ [lineFeed]) ++ last ∧
      (∀ l ∈ lines, lineFeed ∉ l) ∧
      HandsOver fd ⟨.null, chunks⟩ (lines ++ if last = [] then [] else [last]) := by
  have hnull : Rest.null.orNew = some [] := rfl
  have hcalls := handsOver_handed hfd hnull chunks hsize
  obtain ⟨lines, last, hhanded, htext, hlines⟩ := handed_spec [] (pieces chunks)
  rw [hhanded] at hcalls
  exact ⟨lines, last, htext, hlines, hcalls⟩

theorem successive_lossless_twoLineFeeds :
    ∃ lines last, (pieces [.twoLineFeeds]).flatten = lines.flatMap (· ++ [lineFeed]) ++ last ∧
      (∀ l ∈ lines, lineFeed ∉ l) ∧
      HandsOver 0 ⟨.null, [.twoLineFeeds]⟩ (lines ++ if last = [] then [] else [last]) :=
  successive_lossless (by decide) [.twoLineFeeds] (by decide)

end FtNm
