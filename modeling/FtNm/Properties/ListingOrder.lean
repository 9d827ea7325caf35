import FtNm.Construction.Object
import FtNm.Properties.Support.Listing

/-!
# The order of the listings

`sortsStably` is what `mergeSort` does to an array of entries, in terms of `ft_strcmp` on their
names.

`-p`, the default and `-r` print the same lines in three orders: that of the symbol table, by
name, and by name turned round.  `OrderedViews` spells this out, down to the order of the lines
that show the same name, and `orderedViews_listings` proves it.

The array is sorted first and filtered afterwards.  What makes the three comparable is that
each sort is the stable sort of one and the same array (`MappedFile.sorted_stable`), and that a
stable sort survives a filter.
-/

namespace FtNm

open StableMerge

/-! ## The sort -/

/-- `ys` is what a stable sort by name makes of `xs`, in the direction of `order`: upwards,
downwards, or not at all. -/
structure SortsStably (m : MappedFile) (order : ℤ) (xs ys : List TSymb) : Prop where
  perm : ys.Perm xs
  ascending : order = 1 → ys.Pairwise fun a b => compareNames m a b ≤ 0
  descending : order = -1 → ys.Pairwise fun a b => 0 ≤ compareNames m a b
  equalNames : order = 1 ∨ order = -1 → ∀ name : List UInt8,
    ys.filter (fun s => m.text s.name = name) = xs.filter (fun s => m.text s.name = name)
  untouched : order = 0 → ys = xs

/-- **`mergeSort` is a stable sort.** -/
theorem sortsStably (m : MappedFile) (order : ℤ) (array : List TSymb) :
    SortsStably m order array (mergeSort m order array array.length) := by
  have hstable := mergeSort_stable m order array
  constructor
  · exact hstable.perm
  · rintro rfl
    refine hstable.sorted.imp fun {a b} hab => ?_
    have hle := (nameLe_iff m 1 a b).mp hab
    omega
  · rintro rfl
    refine hstable.sorted.imp fun {a b} hab => ?_
    have hle := (nameLe_iff m (-1) a b).mp hab
    omega
  · intro horder name
    refine filter_name m ?_ hstable name
    rcases horder with rfl | rfl <;> decide
  · rintro rfl
    exact hstable.eq_of_all_le fun a b => strcmpLe_zero _ _

/-! ## The listings -/

/-- The name that a line shows. -/
def Line.name (m : MappedFile) (l : Line) : List UInt8 := m.text l.entry.name

/-- The lines of `-p`, of the default and of `-r` for the symbol array `symb`. -/
structure OrderedViews (m : MappedFile) (symb : List TSymb) (p d r : List Line) : Prop where
  default_perm : d.Perm p
  reverse_perm : r.Perm p
  symbol_order : (p.map Line.entry).Sublist symb
  default_sorted : (d.map (Line.name m)).Pairwise (· ≤ ·)
  default_stable : ∀ name, (d.filter fun l => l.name m = name) = p.filter fun l => l.name m = name
  reverse_names : r.map (Line.name m) = (d.map (Line.name m)).reverse
  reverse_stable : ∀ name, (r.filter fun l => l.name m = name) = p.filter fun l => l.name m = name

variable (m : MappedFile)

@[simp] lemma name_line (s : TSymb) : (m.line s).name m = m.text s.name := rfl

/-- The entries listed under an option are the stable sort of the shown entries of the array. -/
lemma listing_stable (h : m.syms.nSymsCount < 2 ^ 31) (option : EOption) :
    StableSortOf (nameLe m (sortOrder option)) (m.syms.symb.filter fun s => Shown m option s)
      (m.listing option) :=
  (m.sorted_stable _ h).filter _

/-- Without sorting the entries are listed in the order of the symbol table. -/
lemma listing_noSort (h : m.syms.nSymsCount < 2 ^ 31) :
    m.listing .noSort = m.syms.symb.filter fun s => Shown m .noSort s :=
  (listing_stable m h .noSort).eq_of_all_le fun _ _ => strcmpLe_zero _ _

/-- Lines that show the same name stand in the same order in a sorted listing as in the array. -/
lemma filter_name_line {order : ℤ} (horder : order ≠ 0) {xs ys : List TSymb}
    (h : StableSortOf (nameLe m order) xs ys) (name : List UInt8) :
    ((ys.map m.line).filter fun l => l.name m = name) =
      (xs.map m.line).filter fun l => l.name m = name := by
  rw [List.filter_map, List.filter_map]
  exact congrArg (List.map m.line) (filter_name m horder h name)

/-- The listings of one and the same entries, for the three multipliers. -/
lemma orderedViews_of_stable {symb xs ys zs : List TSymb} (hxs : xs.Sublist symb)
    (hys : StableSortOf (nameLe m 1) xs ys) (hzs : StableSortOf (nameLe m (-1)) xs zs) :
    OrderedViews m symb (xs.map m.line) (ys.map m.line) (zs.map m.line) := by
  have hasc : ((ys.map m.line).map (Line.name m)).Pairwise (· ≤ ·) := by
    rw [List.map_map, List.pairwise_map]
    exact hys.sorted.imp fun hab => (strcmpLe_of_pos one_pos _ _).mp hab
  have hdesc : ((zs.map m.line).map (Line.name m)).Pairwise (fun a b => b ≤ a) := by
    rw [List.map_map, List.pairwise_map]
    exact hzs.sorted.imp fun hab => (strcmpLe_of_neg (by decide) _ _).mp hab
  refine {
    default_perm := hys.perm.map _
    reverse_perm := hzs.perm.map _
    symbol_order := by rwa [map_entry_line]
    default_sorted := hasc
    default_stable := filter_name_line m one_ne_zero hys
    reverse_names := ?_
    reverse_stable := filter_name_line m (by decide) hzs }
  -- two descending arrangements of the same names
  have hperm : ((zs.map m.line).map (Line.name m)).Perm
      ((ys.map m.line).map (Line.name m)).reverse :=
    ((hzs.perm.trans hys.perm.symm).map _ |>.map _).trans (List.reverse_perm _).symm
  refine hperm.eq_of_pairwise (fun a b _ _ hba hab => List.le_antisymm hab hba) hdesc ?_
  rwa [List.pairwise_reverse]

/-- **The order of the listings.** -/
theorem orderedViews_listings (malloc : ℕ → Bool) (m : MappedFile) (path : List UInt8)
    (option : EOption) (nFiles : ℕ) (file : TFile)
    (hfile : (loadFile malloc (TFile.mapped path m option)).out = .ok file)
    (hcount : file.syms.nSymsCount < 2 ^ 31) :
    ∃ p d r,
      (manageFile malloc nFiles (TFile.mapped path m .noSort)).out = .ok p ∧
      (manageFile malloc nFiles (TFile.mapped path m .sortOrder)).out = .ok d ∧
      (manageFile malloc nFiles (TFile.mapped path m .reverseSort)).out = .ok r ∧
      OrderedViews m file.syms.symb p.lines d.lines r.lines := by
  obtain ⟨hlisted, rfl⟩ := (out_loadFile_listed m path option).mp hfile
  refine ⟨_, _, _, (out_manageFile m path _).mpr ⟨hlisted, rfl⟩,
    (out_manageFile m path _).mpr ⟨hlisted, rfl⟩, (out_manageFile m path _).mpr ⟨hlisted, rfl⟩, ?_⟩
  rw [lines_parsed, lines_parsed, lines_parsed, listing_noSort m hcount]
  exact orderedViews_of_stable m List.filter_sublist (listing_stable m hcount .sortOrder)
    (listing_stable m hcount .reverseSort)

/-- Two symbols of one name with another between them. -/
def twinNames : MappedFile where
  bytes := tableFile elf64 .little ET_REL
    (symBytes elf64 .little 3 1 0 0 SHN_UNDEF 0 0 ++ symBytes elf64 .little 1 1 0 0 SHN_ABS 2 0 ++
      symBytes elf64 .little 3 1 0 0 SHN_ABS 1 0)
    (0 :: cstr "a" ++ 0 :: cstr "b" ++ [0, 0, 0, 0])
  size_pos := by decide +kernel
  size_lt := by decide +kernel

theorem orderedViews_twinNames :
    ∃ p d r,
      (manageFile (fun _ => true) 1 (TFile.mapped [] twinNames .noSort)).out = .ok p ∧
      (manageFile (fun _ => true) 1 (TFile.mapped [] twinNames .sortOrder)).out = .ok d ∧
      (manageFile (fun _ => true) 1 (TFile.mapped [] twinNames .reverseSort)).out = .ok r ∧
      OrderedViews twinNames twinNames.syms.symb p.lines d.lines r.lines :=
  orderedViews_listings _ twinNames [] .sortOrder 1 (TFile.parsed [] twinNames .sortOrder)
    ((out_loadFile_listed _ _ _).mpr
      ⟨⟨by decide +kernel, fun _ _ => rfl, by decide +kernel⟩, rfl⟩) (by decide +kernel)

end FtNm
