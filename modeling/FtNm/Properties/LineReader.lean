import FtNm.Construction.GetNextLine
import FtNm.Framework.Lines

/-!
# The lines of a descriptor

`ReturnsLines` says that the calls of `get_next_line` return the lines of the stream one after
the other, and nothing more once they are through.

They do as long as the reader keeps pace.  A call looks at its remainder only after it has read,
and at the end of the stream it hands over the whole remainder as one line; so a line is taken
out after each `read`, and no whole line may be left when the stream has ended.  Apart from that
the indices of the strings have to be of type `int`, and the descriptor needs an entry in
`the_rest`.  Descriptors above `4864` are turned down, and `4864` itself passes the test and has no
entry.

`returnsLines_iff` says that these are the exceptions.  The step is one chunk, whether a call
ends behind it or reads on, and `Lines.Paced` is what has to hold from there on.
-/

namespace FtNm

open Lines

/-! ## What the calls should return -/

/-- The bytes of the reads. -/
def pieces (chunks : List Chunk) : List (List UInt8) := chunks.map Chunk.bytes

/-- The answers to all further calls are the lines of `text`, and then always `0`. -/
def Returns (fd : ℤ) (reader : Reader) (text : List UInt8) : Prop :=
  ∀ n, successive fd ((linesOf lineFeed text).length + n) reader =
    some ((linesOf lineFeed text).map (fun l => ⟨1, some l⟩) ++ List.replicate n ⟨0, none⟩)

/-- The calls return the lines of the stream. -/
def ReturnsLines (fd : ℤ) (chunks : List Chunk) : Prop :=
  Returns fd ⟨.null, chunks⟩ (pieces chunks).flatten

/-! ## Call after call -/

section Calls

variable {fd : ℤ} {reader reader' : Reader} {text text' l : List UInt8}

lemma successive_succ {answer : Answer} (h : getNextLine fd reader = some (answer, reader'))
    (n : ℕ) :
    successive fd (n + 1) reader = (successive fd n reader').map (answer :: ·) := by
  rw [successive, h]
  show (do
    let answers ← successive fd n reader'
    some (answer :: answers)) = _
  cases successive fd n reader' <;> rfl

lemma successive_none (h : getNextLine fd reader = none) (n : ℕ) :
    successive fd (n + 1) reader = none := by
  rw [successive, h]
  rfl

lemma not_returns_of_none (h : getNextLine fd reader = none) : ¬Returns fd reader text := by
  intro hreturns
  have hnext := hreturns 1
  rw [successive_none h] at hnext
  cases hnext

/-- The call on a descriptor without an entry returns neither `1` nor `0`. -/
lemma not_returns_of_outside (h : ¬(0 ≤ fd ∧ fd < 4864)) : ¬Returns fd reader text := by
  by_cases hlast : fd = 4864
  · subst hlast
    exact not_returns_of_none rfl
  · have hcall : getNextLine fd reader = some (⟨-1, none⟩, reader) := if_pos (by omega)
    intro hreturns
    have hnext := hreturns 1
    rw [successive_succ hcall] at hnext
    obtain ⟨answers, -, heq⟩ := Option.map_eq_some_iff.mp hnext
    have hanswer : (⟨-1, none⟩ : Answer) ∈ (linesOf lineFeed text).map (fun l => ⟨1, some l⟩) ++
        List.replicate 1 ⟨0, none⟩ := heq ▸ List.mem_cons_self
    simp at hanswer

/-- Only the next call looks at the state. -/
lemma returns_congr (h : getNextLine fd reader = getNextLine fd reader') :
    Returns fd reader text ↔ Returns fd reader' text := by
  refine forall_congr' fun n => ?_
  cases (linesOf lineFeed text).length + n with
  | zero => rfl
  | succ n => rw [successive, successive, h]

/-- A call that returns the next line. -/
lemma returns_line (h : getNextLine fd reader = some (⟨1, some l⟩, reader'))
    (hlines : linesOf lineFeed text = l :: linesOf lineFeed text') :
    Returns fd reader text ↔ Returns fd reader' text' := by
  refine forall_congr' fun n => ?_
  rw [hlines, List.length_cons, Nat.add_right_comm, successive_succ h, List.map_cons,
    List.cons_append]
  constructor
  · intro heq
    obtain ⟨answers, hanswers, hcons⟩ := Option.map_eq_some_iff.mp heq
    rw [hanswers, (List.cons.inj hcons).2]
  · intro heq
    rw [heq, Option.map_some]

/-- A call that returns another line than the next one. -/
lemma not_returns_of_ne (h : getNextLine fd reader = some (⟨1, some l⟩, reader'))
    (hlines : l ∉ (linesOf lineFeed text).head?) (htext : text ≠ []) :
    ¬Returns fd reader text := by
  intro hreturns
  have hnext := hreturns 0
  have hne : linesOf lineFeed text ≠ [] := linesOf_ne_nil htext
  obtain ⟨l', ls, hcons⟩ := List.exists_cons_of_ne_nil hne
  rw [hcons] at hnext hlines
  rw [List.length_cons, Nat.add_zero, successive_succ h, List.map_cons, List.cons_append] at hnext
  obtain ⟨answers, -, heq⟩ := Option.map_eq_some_iff.mp hnext
  have hanswer := (List.cons.inj heq).1
  rw [Answer.mk.injEq, Option.some.injEq] at hanswer
  exact hlines (hanswer.2 ▸ rfl)

/-- A call that returns `0` and changes nothing any more. -/
lemma returns_end (h : getNextLine fd reader = some (⟨0, none⟩, reader'))
    (h' : getNextLine fd reader' = some (⟨0, none⟩, reader')) : Returns fd reader [] := by
  have hsame (n : ℕ) : successive fd n reader' = some (List.replicate n ⟨0, none⟩) := by
    induction n with
    | zero => rfl
    | succ n ih =>
      rw [successive_succ h', ih]
      rfl
  intro n
  rw [linesOf_nil, List.length_nil, Nat.zero_add, List.map_nil, List.nil_append]
  cases n with
  | zero => rfl
  | succ n =>
    rw [successive_succ h, hsame]
    rfl

end Calls

/-! ## The index of a line feed -/

lemma lineFeedFrom_eq (str : List UInt8) {i : ℕ} (hi : i < 2 ^ 31) :
    lineFeedFrom i str =
      if i + str.idxOf lineFeed < 2 ^ 31 then
        some (if lineFeed ∈ str then ((i + str.idxOf lineFeed : ℕ) : ℤ) else -1)
      else none := by
  induction str generalizing i with
  | nil => rw [lineFeedFrom, List.idxOf_nil, Nat.add_zero, if_pos hi, if_neg List.not_mem_nil]
  | cons c cs ih =>
    rw [lineFeedFrom]
    by_cases hc : c = lineFeed
    · subst hc
      rw [if_pos rfl, List.idxOf_cons_self, Nat.add_zero, if_pos hi, if_pos List.mem_cons_self]
    · have hidx : i + (c :: cs).idxOf lineFeed = i + 1 + cs.idxOf lineFeed := by
        rw [List.idxOf_cons_ne cs hc]
        omega
      have hmem : lineFeed ∈ c :: cs ↔ lineFeed ∈ cs :=
        List.mem_cons.trans (or_iff_right (Ne.symm hc))
      rw [if_neg hc, hidx, if_congr hmem rfl rfl]
      by_cases hnext : i + 1 < 2 ^ 31
      · rw [if_pos hnext, ih hnext]
      · rw [if_neg hnext, if_neg (by omega)]

/-- The index is the one of the first line feed, and an `int`. -/
lemma getIndexOfLineFeed_eq (str : List UInt8) : getIndexOfLineFeed str =
    if str.idxOf lineFeed < 2 ^ 31 then
      some (if lineFeed ∈ str then (str.idxOf lineFeed : ℤ) else -1)
    else none := by
  rw [getIndexOfLineFeed, lineFeedFrom_eq str (by norm_num), Nat.zero_add]

lemma getIndexOfLineFeed_append {l : List UInt8} (h : lineFeed ∉ l) (r : List UInt8) :
    getIndexOfLineFeed (l ++ lineFeed :: r) =
      if l.length < 2 ^ 31 then some (l.length : ℤ) else none := by
  have hmem : lineFeed ∈ l ++ lineFeed :: r := List.mem_append_right l List.mem_cons_self
  rw [getIndexOfLineFeed_eq, idxOf_append_cons h, if_pos hmem]

lemma getIndexOfLineFeed_none {s : List UInt8} (h : lineFeed ∉ s) :
    getIndexOfLineFeed s = if s.length < 2 ^ 31 then some (-1) else none := by
  rw [getIndexOfLineFeed_eq, List.idxOf_eq_length h, if_neg h]

/-! ## One call -/

/-- The test whether the line ends the remainder, in `int`. -/
lemma index_eq_iff {l r : List UInt8} (hl : l.length < 2 ^ 31) (hr : r.length < 2 ^ 32) :
    (l.length : ℤ) = int32 (toInt (l ++ lineFeed :: r).length - 1) ↔ r = [] := by
  have hlength : ((l ++ lineFeed :: r).length : ℤ) - 1 = l.length + r.length := by
    rw [List.length_append, List.length_cons]
    omega
  have hint : int32 (toInt (l ++ lineFeed :: r).length - 1) = int32 (l.length + r.length) := by
    rw [toInt_eq_int32, ← hlength]
    exact Int.bmod_sub_bmod
  rw [hint]
  constructor
  · intro heq
    have hdvd : (2 ^ 32 : ℤ) ∣ r.length := by
      have hemod := Int.bmod_emod (x := (l.length + r.length : ℤ)) (m := 2 ^ 32)
      unfold int32 at heq
      rw [← heq] at hemod
      omega
    have hzero : r.length = 0 := by omega
    exact List.length_eq_zero_iff.mp hzero
  · rintro rfl
    rw [List.length_nil, Nat.cast_zero, add_zero]
    exact (int32_of_mem (by omega) (by exact_mod_cast hl)).symm

/-- The remainder begins with a line. -/
lemma manageLines_append {l r : List UInt8} (h : lineFeed ∉ l) (hl : l.length < 2 ^ 31)
    (hr : r.length < 2 ^ 32) : manageLines (.held (l ++ lineFeed :: r)) =
      if r.length < 2 ^ 31 then some (⟨1, some l⟩, .held r) else none := by
  have hindex : getIndexOfLineFeed (l ++ lineFeed :: r) = some (l.length : ℤ) := by
    rw [getIndexOfLineFeed_append h, if_pos hl]
  have hline : ftStrsub (l ++ lineFeed :: r) 0 l.length = some l := by
    have hle : (0 : ℤ) + l.length ≤ (l ++ lineFeed :: r).length := by
      rw [List.length_append]
      omega
    rw [ftStrsub, if_pos ⟨le_rfl, Int.natCast_nonneg _, hle, by exact_mod_cast hl⟩,
      Int.toNat_zero, List.drop_zero, Int.toNat_natCast, List.take_left]
  have hdrop : (l ++ lineFeed :: r).drop (l.length + 1) = r := by
    rw [← List.drop_drop, List.drop_left]
    rfl
  have htemp : (if (l.length : ℤ) = int32 (toInt (l ++ lineFeed :: r).length - 1) then some []
      else ftStrdup ((l ++ lineFeed :: r).drop (l.length + 1))) =
        if r.length < 2 ^ 31 then some r else none := by
    rw [if_congr (index_eq_iff hl hr) rfl rfl, hdrop]
    by_cases hnil : r = []
    · rw [if_pos hnil, hnil]
      rfl
    · rw [if_neg hnil]
      rfl
  have hne : (l.length : ℤ) ≠ -1 := by omega
  simp only [manageLines, hindex, Option.bind_eq_bind, Option.bind_some, if_pos hne,
    Int.toNat_natCast, hline, htemp]
  split_ifs <;> rfl

/-- A loop that a line feed has ended leaves the line to `manage_lines`. -/
lemma nextLine_loop {reader : Reader} {rest : Rest} {unread : List Chunk}
    (hloop : readLoop reader.rest reader.unread = some (rest, false, unread)) :
    nextLine reader = (manageLines rest).bind fun (answer, rest) =>
      if answer.ret = 1 then some (answer, ⟨rest, unread⟩)
      else some (⟨0, none⟩, ⟨rest, unread⟩) := by
  rw [nextLine, hloop]
  cases rest with
  | null | freed => rfl
  | held s => cases s <;> rfl

section Step

variable {rest : Rest} {s : List UInt8} (hrest : rest.orNew = some s) (hs : s.length < 2 ^ 31)
  {chunk : Chunk} {unread : List Chunk}

include hrest hs

/-- The stream has ended: what is left is handed over as it is. -/
lemma nextLine_end : nextLine ⟨rest, []⟩ =
    some (if s = [] then (⟨0, none⟩, ⟨.null, []⟩) else (⟨1, some s⟩, ⟨.null, []⟩)) := by
  cases rest with
  | null =>
    obtain rfl := Option.some.inj hrest
    rfl
  | freed => cases hrest
  | held s' =>
    obtain rfl := Option.some.inj hrest
    cases s' with
    | nil => rfl
    | cons c cs =>
      have hdup : ftStrdup (c :: cs) = some (c :: cs) := if_pos hs
      simp only [nextLine, readLoop, hdup, Option.bind_eq_bind, Option.bind_some]
      rfl

omit hrest in
/-- The next chunk is joined to the remainder. -/
lemma ftStrjoin_chunk : ftStrjoin s chunk.bytes = some (s ++ chunk.bytes) := by
  have hle : chunk.bytes.length ≤ 2 := chunk.length_le
  rw [ftStrjoin, if_pos ⟨hs, by omega⟩]

lemma readLoop_cons : readLoop rest (chunk :: unread) =
    (getIndexOfLineFeed (s ++ chunk.bytes)).bind fun index =>
      if index ≠ -1 then some (.held (s ++ chunk.bytes), false, unread)
      else readLoop (.held (s ++ chunk.bytes)) unread := by
  rw [readLoop, hrest]
  simp only [Option.bind_eq_bind, Option.bind_some, ftStrjoin_chunk hs]

/-- No line has ended yet, and the call reads on. -/
lemma nextLine_read (hmem : lineFeed ∉ s ++ chunk.bytes)
    (hlen : (s ++ chunk.bytes).length < 2 ^ 31) :
    nextLine ⟨rest, chunk :: unread⟩ = nextLine ⟨.held (s ++ chunk.bytes), unread⟩ := by
  have hindex := getIndexOfLineFeed_none hmem
  rw [if_pos hlen] at hindex
  have hloop : readLoop rest (chunk :: unread) = readLoop (.held (s ++ chunk.bytes)) unread := by
    rw [readLoop_cons hrest hs, hindex]
    rfl
  rw [nextLine, nextLine, hloop]

lemma nextLine_overflow (hindex : getIndexOfLineFeed (s ++ chunk.bytes) = none) :
    nextLine ⟨rest, chunk :: unread⟩ = none := by
  have hloop : readLoop rest (chunk :: unread) = none := by
    rw [readLoop_cons hrest hs, hindex]
    rfl
  rw [nextLine, hloop]
  rfl

/-- A line has ended, and is handed over. -/
lemma nextLine_line {l r : List UInt8} (hjoined : s ++ chunk.bytes = l ++ lineFeed :: r)
    (hl : lineFeed ∉ l) : nextLine ⟨rest, chunk :: unread⟩ =
      if l.length < 2 ^ 31 ∧ r.length < 2 ^ 31 then
        some (⟨1, some l⟩, ⟨.held r, unread⟩)
      else none := by
  have hindex := getIndexOfLineFeed_append hl r
  rw [← hjoined] at hindex
  by_cases hlength : l.length < 2 ^ 31
  · rw [if_pos hlength] at hindex
    have hr : r.length < 2 ^ 32 := by
      have hle : chunk.bytes.length ≤ 2 := chunk.length_le
      have hlengths := congrArg List.length hjoined
      rw [List.length_append, List.length_append, List.length_cons] at hlengths
      omega
    have hne : (l.length : ℤ) ≠ -1 := by omega
    have hloop : readLoop rest (chunk :: unread) =
        some (.held (l ++ lineFeed :: r), false, unread) := by
      rw [readLoop_cons hrest hs, hindex, Option.bind_some, if_pos hne, hjoined]
    have hlines := manageLines_append hl hlength hr
    rw [nextLine_loop hloop, hlines]
    simp only [hlength, true_and]
    split_ifs <;> rfl
  · rw [if_neg hlength] at hindex
    rw [nextLine_overflow hrest hs hindex, if_neg fun h => hlength h.1]

end Step

/-! ## All calls -/

section Run

variable {fd : ℤ} (hfd : 0 ≤ fd ∧ fd < 4864)

include hfd

lemma getNextLine_eq (reader : Reader) : getNextLine fd reader = nextLine reader := by
  rw [getNextLine, if_neg (by omega), if_neg (by omega)]

/-- At the end of the stream, the remainder has to be free of line feeds. -/
lemma returns_nil_iff {rest : Rest} {s : List UInt8} (hrest : rest.orNew = some s)
    (hs : s.length < 2 ^ 31) : Returns fd ⟨rest, []⟩ s ↔ lineFeed ∉ s := by
  have hcall := nextLine_end hrest hs
  have hempty : getNextLine fd ⟨.null, []⟩ = some (⟨0, none⟩, ⟨.null, []⟩) := by
    rw [getNextLine_eq hfd]
    rfl
  rw [← getNextLine_eq hfd] at hcall
  by_cases hnil : s = []
  · subst hnil
    rw [if_pos rfl] at hcall
    exact iff_of_true (returns_end hcall hempty) List.not_mem_nil
  · rw [if_neg hnil] at hcall
    constructor
    · intro hreturns hmem
      obtain ⟨l, r, rfl, hl⟩ := List.eq_append_cons_of_mem hmem
      refine not_returns_of_ne hcall ?_ hnil hreturns
      rw [linesOf_append hl, List.head?_cons, Option.mem_some_iff]
      exact fun heq => hl (heq ▸ hmem)
    · intro hmem
      have hlines : linesOf lineFeed s = s :: linesOf lineFeed [] := by
        rw [linesOf_last hmem hnil, linesOf_nil]
      exact (returns_line hcall hlines).mpr (returns_end hempty hempty)

/-- A read that ends a line: the call returns it, if the sizes are of type `int`. -/
lemma returns_line_iff {rest : Rest} {s : List UInt8} (hrest : rest.orNew = some s)
    (hs : s.length < 2 ^ 31) {chunk : Chunk} {chunks : List Chunk} {l r : List UInt8}
    (hjoined : s ++ chunk.bytes = l ++ lineFeed :: r) (hl : lineFeed ∉ l) (text : List UInt8) :
    Returns fd ⟨rest, chunk :: chunks⟩ (s ++ chunk.bytes ++ text) ↔
      l.length < 2 ^ 31 ∧ r.length < 2 ^ 31 ∧ Returns fd ⟨.held r, chunks⟩ (r ++ text) := by
  have hcall : nextLine ⟨rest, chunk :: chunks⟩ = _ := nextLine_line hrest hs hjoined hl
  rw [← getNextLine_eq hfd] at hcall
  by_cases hlength : l.length < 2 ^ 31 ∧ r.length < 2 ^ 31
  · rw [if_pos hlength] at hcall
    have hlines : linesOf lineFeed (s ++ chunk.bytes ++ text) =
        l :: linesOf lineFeed (r ++ text) := by
      rw [hjoined, List.append_assoc, List.cons_append, linesOf_append hl]
    rw [returns_line hcall hlines]
    exact ⟨fun h => ⟨hlength.1, hlength.2, h⟩, fun h => h.2.2⟩
  · rw [if_neg hlength] at hcall
    exact iff_of_false (not_returns_of_none hcall) fun h => hlength ⟨h.1, h.2.1⟩

/-- A read that ends no line: the call reads on, if the size is of type `int`. -/
lemma returns_read_iff {rest : Rest} {s : List UInt8} (hrest : rest.orNew = some s)
    (hs : s.length < 2 ^ 31) {chunk : Chunk} {chunks : List Chunk}
    (hmem : lineFeed ∉ s ++ chunk.bytes) (text : List UInt8) :
    Returns fd ⟨rest, chunk :: chunks⟩ text ↔
      (s ++ chunk.bytes).length < 2 ^ 31 ∧ Returns fd ⟨.held (s ++ chunk.bytes), chunks⟩ text := by
  by_cases hlength : (s ++ chunk.bytes).length < 2 ^ 31
  · have hcall : nextLine ⟨rest, chunk :: chunks⟩ = _ := nextLine_read hrest hs hmem hlength
    rw [← getNextLine_eq hfd, ← getNextLine_eq hfd] at hcall
    rw [returns_congr hcall]
    exact ⟨fun h => ⟨hlength, h⟩, And.right⟩
  · have hindex := getIndexOfLineFeed_none hmem
    rw [if_neg hlength] at hindex
    have hcall : nextLine ⟨rest, chunk :: chunks⟩ = none := nextLine_overflow hrest hs hindex
    rw [← getNextLine_eq hfd] at hcall
    exact iff_of_false (not_returns_of_none hcall) fun h => hlength h.1

/-- **Run.**  From any state on, the calls return the lines exactly if the reader keeps pace. -/
lemma returns_iff {rest : Rest} {s : List UInt8} (hrest : rest.orNew = some s)
    (hs : s.length < 2 ^ 31) (chunks : List Chunk) :
    Returns fd ⟨rest, chunks⟩ (s ++ (pieces chunks).flatten) ↔
      Paced lineFeed (2 ^ 31) s (pieces chunks) := by
  induction chunks generalizing rest s with
  | nil =>
    have htext : s ++ (pieces []).flatten = s := List.append_nil s
    rw [htext]
    exact returns_nil_iff hfd hrest hs
  | cons chunk chunks ih =>
    have htext : s ++ (pieces (chunk :: chunks)).flatten =
        s ++ chunk.bytes ++ (pieces chunks).flatten := by
      rw [pieces, List.map_cons, List.flatten_cons, ← List.append_assoc]
      rfl
    have hpaced : Paced lineFeed (2 ^ 31) s (pieces (chunk :: chunks)) ↔
        (s ++ chunk.bytes).idxOf lineFeed < 2 ^ 31 ∧
          (takeLine lineFeed (s ++ chunk.bytes)).length < 2 ^ 31 ∧
            Paced lineFeed (2 ^ 31) (takeLine lineFeed (s ++ chunk.bytes)) (pieces chunks) :=
      Iff.rfl
    rw [htext, hpaced]
    by_cases hmem : lineFeed ∈ s ++ chunk.bytes
    · obtain ⟨l, r, hjoined, hl⟩ := List.eq_append_cons_of_mem hmem
      rw [returns_line_iff hfd hrest hs hjoined hl, hjoined, idxOf_append_cons hl,
        takeLine_append hl]
      exact and_congr_right fun _ => and_congr_right fun hr => ih rfl hr
    · rw [returns_read_iff hfd hrest hs hmem, takeLine_none hmem, List.idxOf_eq_length hmem]
      exact ⟨fun h => ⟨h.1, h.1, (ih rfl h.1).mp h.2⟩, fun h => ⟨h.1, (ih rfl h.1).mpr h.2.2⟩⟩

end Run

/-- **Lines.**  The calls return the lines of the stream exactly if the descriptor has an entry,
every last run of reads has at most as many line feeds as reads, and no line and no backlog comes to
`2 ^ 31` bytes. -/
theorem returnsLines_iff (fd : ℤ) (chunks : List Chunk) : ReturnsLines fd chunks ↔
    (0 ≤ fd ∧ fd < 4864) ∧
      (∀ t, t <:+ pieces chunks → t.flatten.count lineFeed ≤ t.length) ∧
      (∀ l ∈ linesOf lineFeed (pieces chunks).flatten, l.length < 2 ^ 31) ∧
      ∀ t, t <+: pieces chunks → (backlog lineFeed [] t).length < 2 ^ 31 := by
  by_cases hfd : 0 ≤ fd ∧ fd < 4864
  · have hnull : Rest.null.orNew = some [] := rfl
    have hpaced := returns_iff hfd hnull (by norm_num) chunks
    rw [paced_iff (by norm_num), not_mem_backlog_iff, List.nil_append] at hpaced
    rw [ReturnsLines, hpaced]
    exact ⟨fun ⟨h, hsizes, hlines⟩ => ⟨hfd, h, hlines, hsizes⟩,
      fun ⟨_, h, hlines, hsizes⟩ => ⟨h, hsizes, hlines⟩⟩
  · exact iff_of_false (not_returns_of_outside hfd) fun h => hfd h.1

/-- Two line feeds in one read. -/
def Chunk.twoLineFeeds : Chunk where
  bytes := [lineFeed, lineFeed]
  bytes_ne := List.cons_ne_nil _ _
  length_le := le_rfl
  nulFree := by decide

/-- The second empty line is returned with its line feed. -/
theorem not_returnsLines_twoLineFeeds : ¬ReturnsLines 0 [.twoLineFeeds] := by
  intro hreturns
  exact absurd (hreturns 0) (by decide)

end FtNm
