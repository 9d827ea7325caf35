import FtNm.Properties.ListingDecoding
import FtNm.Properties.ListingOrder

/-!
# The order of the symbol table

A linker may put the symbols into the table in any order.  Every option except `-p` sorts them by
name, so what is left of that order is how the symbols of one name follow each other.
`sameLines_iff` says that nothing else is: two files of one class get the same lines exactly if,
name by name, they show the same symbols in the same order.
-/

namespace FtNm

open StableMerge AccessLog

/-- The symbols of one name that are shown, in the order of the table. -/
def MappedFile.named (m : MappedFile) (option : EOption) (name : CString) : List Entry :=
  m.entries.filter fun e => e.Shown option ∧ name = e.name

/-! ## Sorting the entries -/

lemma sortOrder_ne_zero {option : EOption} (h : option ≠ .noSort) : sortOrder option ≠ 0 := by
  cases option with
  | noSort => exact absurd rfl h
  | _ => decide

/-- The listing of a file is the stable sort of the entries that are shown. -/
lemma listing_entries_stable (m : MappedFile) (h : m.syms.nSymsCount < 2 ^ 31)
    (option : EOption) :
    StableSortOf (entryLe (sortOrder option)) (m.entries.filter fun e => e.Shown option)
      ((m.listing option).map m.entryOf) := by
  have hstable := ((m.sorted_stable (sortOrder option) h).map
    (totalPreorder_entryLe (sortOrder option)) m.entryOf fun _ _ => rfl).filter
      fun e => e.Shown option
  have hlisting : (m.listing option).map m.entryOf =
      ((m.sorted (sortOrder option)).map m.entryOf).filter fun e => e.Shown option := by
    rw [MappedFile.listing, List.filter_map]
    congr 1
    apply List.filter_congr
    intro s _
    exact decide_eq_decide.mpr (shown_entryOf m option s)
  rw [hlisting]
  exact hstable

/-- The entries of one name are listed in the order of the table. -/
lemma filter_name_listing (m : MappedFile) (h : m.syms.nSymsCount < 2 ^ 31) {option : EOption}
    (hoption : option ≠ .noSort) (name : CString) :
    ((m.listing option).map m.entryOf).filter (fun e => e.name = name) = m.named option name := by
  rw [(listing_entries_stable m h option).filter_key Entry.name
    (fun a b => tie_strcmpLe (sortOrder_ne_zero hoption) a.name b.name), List.filter_filter,
    MappedFile.named]
  apply List.filter_congr
  intro e _
  rw [← Bool.decide_and]
  exact decide_eq_decide.mpr (and_comm.trans (and_congr_right fun _ => eq_comm))

/-! ## Lines and names -/

lemma length_column (is64 : Bool) (e : Entry) : (e.column is64).length = columnWidth is64 := by
  have hpos : 0 < columnWidth is64 := by cases is64 <;> decide
  have hpow : 256 ^ (columnWidth is64 / 2) = 16 ^ columnWidth is64 := by cases is64 <;> decide
  unfold Entry.column
  split_ifs
  · exact List.length_replicate
  · exact length_hexColumn hpos (hpow ▸ Nat.mod_lt _ (by positivity))

/-- A line tells the name of its entry. -/
lemma name_eq_of_text_eq {is64 : Bool} {a b : Entry} (h : a.text is64 = b.text is64) :
    a.name = b.name := by
  obtain ⟨-, hrest⟩ := List.append_inj h ((length_column is64 a).trans (length_column is64 b).symm)
  simp only [lineRest, List.cons_append, List.cons.injEq, List.append_cancel_right_eq] at hrest
  exact CString.ext hrest.2.2.2

/-- An entry's name with its line. -/
def Entry.nameAndText (is64 : Bool) (e : Entry) : CString × List UInt8 := (e.name, e.text is64)

/-- Stable sorts by name give the same lines if each name has the same lines. -/
lemma map_text_eq_of_stable {order : ℤ} (horder : order ≠ 0) (is64 : Bool)
    {xs xs' ys ys' : List Entry} (hy : StableSortOf (entryLe order) xs ys)
    (hy' : StableSortOf (entryLe order) xs' ys')
    (h : ∀ name, (xs.filter fun e => name = e.name).map (Entry.text is64) =
      (xs'.filter fun e => name = e.name).map (Entry.text is64)) :
    ys.map (Entry.text is64) = ys'.map (Entry.text is64) := by
  have hle := (totalPreorder_strcmpLe order).comap
    (Prod.fst : CString × List UInt8 → CString)
  have hsorted := hy.map hle (Entry.nameAndText is64) fun _ _ => rfl
  have hsorted' := hy'.map hle (Entry.nameAndText is64) fun _ _ => rfl
  -- the ties of a name are its lines, with the name put in front of each
  have hclass : ∀ (zs : List Entry) (a : CString × List UInt8),
      (zs.map (Entry.nameAndText is64)).filter (tie (fun a b => strcmpLe order a.1 b.1) a) =
        ((zs.filter fun e => a.1 = e.name).map (Entry.text is64)).map fun t => (a.1, t) := by
    intro zs a
    rw [List.filter_map, List.map_map]
    have hfilter : zs.filter (tie (fun a b => strcmpLe order a.1 b.1) a ∘ Entry.nameAndText is64) =
        zs.filter fun e => a.1 = e.name :=
      List.filter_congr fun e _ => tie_strcmpLe horder a.1 e.name
    rw [hfilter]
    apply List.map_congr_left
    intro e he
    have hname : a.1 = e.name := of_decide_eq_true (List.mem_filter.mp he).2
    rw [Function.comp_apply, hname, Entry.nameAndText]
  have hpairs : ys.map (Entry.nameAndText is64) = ys'.map (Entry.nameAndText is64) := by
    apply hle.eq_of_filter_tie hsorted.sorted hsorted'.sorted
    intro a
    rw [hsorted.stable, hsorted'.stable, hclass, hclass, h]
  have htexts := congrArg (List.map Prod.snd) hpairs
  rwa [List.map_map, List.map_map] at htexts

/-! ## Two files -/

/-- **What the order of the table decides.**  The lines are the same exactly if each name has the
same ones. -/
theorem sameLines_iff (malloc : ℕ → Bool) (m m' : MappedFile) (path path' : List UInt8)
    (option : EOption) (hoption : option ≠ .noSort) (nFiles : ℕ) (o o' : Output)
    (ho : (manageFile malloc nFiles (TFile.mapped path m option)).out = .ok o)
    (ho' : (manageFile malloc nFiles (TFile.mapped path' m' option)).out = .ok o')
    (hclass : m.is64 = m'.is64) (hcount : m.syms.nSymsCount < 2 ^ 31)
    (hcount' : m'.syms.nSymsCount < 2 ^ 31) :
    o.lines.map Line.text = o'.lines.map Line.text ↔
      ∀ name, (m.named option name).map (Entry.text m.is64) =
        (m'.named option name).map (Entry.text m'.is64) := by
  obtain ⟨-, rfl⟩ := (out_manageFile m path option).mp ho
  obtain ⟨-, rfl⟩ := (out_manageFile m' path' option).mp ho'
  have hlines (m : MappedFile) : ((m.listing option).map m.line).map Line.text =
      ((m.listing option).map m.entryOf).map (Entry.text m.is64) := by
    rw [List.map_map, List.map_map]
    exact List.map_congr_left fun s _ => text_line m s
  rw [lines_parsed, lines_parsed, hlines, hlines, ← hclass]
  constructor
  · intro htexts name
    rw [← filter_name_listing m hcount hoption, ← filter_name_listing m' hcount' hoption]
    exact map_filter_congr (fun a b hab => by rw [name_eq_of_text_eq hab]) htexts
  · intro hnames
    refine map_text_eq_of_stable (sortOrder_ne_zero hoption) m.is64
      (listing_entries_stable m hcount option) (listing_entries_stable m' hcount' option) ?_
    intro name
    have hnamed (m : MappedFile) : (m.entries.filter fun e => e.Shown option).filter
        (fun e => name = e.name) = m.named option name := by
      rw [List.filter_filter, MappedFile.named]
      apply List.filter_congr
      intro e _
      rw [← Bool.decide_and]
      exact decide_eq_decide.mpr and_comm
    rw [hnamed, hnamed]
    exact hnames name

/-- `twinNames` with another order of the table. -/
def twinNamesMoved : MappedFile where
  bytes := tableFile elf64 .little ET_REL
    (symBytes elf64 .little 1 1 0 0 SHN_ABS 2 0 ++ symBytes elf64 .little 3 1 0 0 SHN_UNDEF 0 0 ++
      symBytes elf64 .little 3 1 0 0 SHN_ABS 1 0)
    (0 :: cstr "a" ++ 0 :: cstr "b" ++ [0, 0, 0, 0])
  size_pos := by decide +kernel
  size_lt := by decide +kernel

theorem sameLines_twinNames :
    (printSymboles (TFile.parsed [] twinNames .reverseSort) 1).lines.map Line.text =
        (printSymboles (TFile.parsed [] twinNamesMoved .reverseSort) 1).lines.map Line.text ↔
      ∀ name, (twinNames.named .reverseSort name).map (Entry.text twinNames.is64) =
        (twinNamesMoved.named .reverseSort name).map (Entry.text twinNamesMoved.is64) :=
  sameLines_iff (fun _ => true) twinNames twinNamesMoved [] [] .reverseSort (by decide) 1 _ _
    ((out_manageFile _ _ _).mpr ⟨⟨by decide +kernel, fun _ _ => rfl, by decide +kernel⟩, rfl⟩)
    ((out_manageFile _ _ _).mpr ⟨⟨by decide +kernel, fun _ _ => rfl, by decide +kernel⟩, rfl⟩)
    (by decide +kernel) (by decide +kernel) (by decide +kernel)

end FtNm
