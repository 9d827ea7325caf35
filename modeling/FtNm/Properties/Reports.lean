import FtNm.Properties.Invocations

/-!
# What the program reports of an object

From the command line to the standard output: for files that hold objects the program prints
what `Obj.report` says.  That is a function of the object, of its class and of the option alone;
where the parts of an object stand in its file, the descriptors and the addresses leave no trace.

`Obj.view` is the abstract listing: the symbols as entries, put in order by the sort of lists, of
which the shown ones are kept.  `Content.listing_eq` says that parsing an image and sorting its
symbol array comes to the same, and `main_reports` takes this through the whole run.
-/

namespace FtNm

open AccessLog StableMerge

/-! ## The abstract listing -/

/-- The entries that an option lists, in order. -/
def Obj.view (o : Obj) (option : EOption) : List Entry :=
  ((o.symbols.map o.entry).mergeSort (entryLe (sortOrder option))).filter fun e => e.Shown option

/-- What is printed for an object. -/
def Obj.report (o : Obj) (is64 : Bool) (option : EOption) : List UInt8 :=
  (o.view option).flatMap (Entry.text is64)

namespace Content

variable {is64 : Bool} {o : Obj} {p : Placement} {m : MappedFile}
  (h : Content (classLayout is64) .little o p m)

include h

lemma nSymsCount_eq : m.syms.nSymsCount = o.symbols.length := by
  have hlength := congrArg List.length h.entries_eq
  rw [MappedFile.entries, List.length_map, List.length_map, m.length_symb] at hlength
  exact hlength

/-- **Refinement.**  The listing of an image is the view of its object. -/
lemma listing_eq (hcount : o.symbols.length < 2 ^ 31) (option : EOption) :
    (m.listing option).map m.entryOf = o.view option := by
  have hle := totalPreorder_entryLe (sortOrder option)
  have hsorted := (m.sorted_stable (sortOrder option) (h.nSymsCount_eq ▸ hcount)).map hle m.entryOf
    fun _ _ => rfl
  have hentries : m.syms.symb.map m.entryOf = o.symbols.map o.entry := h.entries_eq
  rw [hentries] at hsorted
  have hview := hsorted.unique hle (StableSortOf.mergeSort hle _)
  rw [MappedFile.listing, Obj.view, ← hview, List.filter_map]
  congr 1
  apply List.filter_congr
  intro s _
  exact decide_eq_decide.mpr (shown_entryOf m option s)

end Content

/-! ## The run -/

/-- The system gives, for one file, an image of an object, and all else it is asked for. -/
structure Provides (ans : Answers) (is64 : Bool) (o : Obj) (p : Placement) : Prop where
  fd : ans.fd.isSome
  fstat : ans.fstat = true
  mapping : ∃ a m, ans.mapping = some (a, m) ∧ Image (classLayout is64) .little o p m
  type : o.eType ∈ acceptedTypes
  malloc : ans.malloc (mallocBytes o.symbols.length) = true
  count : o.symbols.length < 2 ^ 31

/-- **Step.**  The calls for a file that holds an object write its report. -/
lemma manageArg_report {ans : Answers} {is64 : Bool} {o : Obj} {p : Placement}
    (h : Provides ans is64 o p) (nFiles : ℕ) (arg : FileArg) :
    (∃ file, (manageArg ans nFiles arg).out = .ok file) ∧
      stdout (manageArg ans nFiles arg) =
        heading nFiles arg.path.bytes ++ o.report is64 arg.option := by
  obtain ⟨fd, hfd⟩ := Option.isSome_iff_exists.mp h.fd
  obtain ⟨address, m, hmapping, himage⟩ := h.mapping
  have hcontent : Content (classLayout is64) .little o p m := himage.toContent
  have hlisted : Listed ans.malloc m :=
    hcontent.listed_iff.mpr ⟨.inl himage.eiData, h.type, h.malloc⟩
  have hopen := openArg_of_answers hfd h.fstat hmapping arg
  have hlist := listFile_of_listed ans arg.path.bytes m arg.option nFiles hlisted
  have hreport : ((m.listing arg.option).map m.line).flatMap Line.text =
      o.report is64 arg.option := by
    rw [flatMap_line, hcontent.listing_eq h.count, hcontent.is64_eq, Obj.report]
  rw [manageArg_eq, Run.out_bind_of_ok hopen, stdout_bind_of_ok hopen, (openArg_ok hopen).2.2.2.2]
  dsimp only
  rw [hlist, out_touch_bind, stdout_touch_bind, hreport]
  refine ⟨⟨_, rfl⟩, ?_⟩
  simp [Call.text]

/-- **Run.**  The loop writes one report after the other. -/
lemma manageLoop_report {sys : System} {is64 : ℕ → Bool} {o : ℕ → Obj} {p : ℕ → Placement}
    (nFiles i : ℕ) (args : List FileArg)
    (h : ∀ k < args.length, Provides (sys.answers (i + k)) (is64 (i + k)) (o (i + k)) (p (i + k))) :
    (∃ files, (manageLoop sys nFiles i args).out = .ok files) ∧
      stdout (manageLoop sys nFiles i args) = (args.zipIdx i).flatMap fun q =>
        heading nFiles q.1.path.bytes ++ (o q.2).report (is64 q.2) q.1.option := by
  induction args generalizing i with
  | nil => exact ⟨⟨[], rfl⟩, rfl⟩
  | cons arg args ih =>
    have hfirst : Provides (sys.answers i) (is64 i) (o i) (p i) := h 0 (Nat.succ_pos _)
    obtain ⟨⟨file, hfile⟩, hstdout⟩ := manageArg_report hfirst nFiles arg
    have hrest : ∀ k < args.length,
        Provides (sys.answers (i + 1 + k)) (is64 (i + 1 + k)) (o (i + 1 + k)) (p (i + 1 + k)) := by
      intro k hk
      have hnext := h (k + 1) (Nat.succ_lt_succ hk)
      rwa [← Nat.add_assoc, Nat.add_right_comm] at hnext
    obtain ⟨⟨files, hfiles⟩, hrests⟩ := ih (i + 1) hrest
    rw [manageLoop_cons, Run.out_bind_of_ok hfile, Run.out_bind_of_ok hfiles,
      stdout_bind_of_ok hfile, stdout_bind_of_ok hfiles, hstdout, hrests, List.zipIdx_cons,
      List.flatMap_cons, stdout_pure, List.append_nil]
    exact ⟨⟨_, rfl⟩, rfl⟩

/-- **From the command line to the standard output.** -/
theorem main_reports (sys : System) (hcloses : sys.Closes) (argv : List CString)
    (hcount : (fileArgs argv).length ≤ MAX_FILES) (is64 : ℕ → Bool) (o : ℕ → Obj)
    (p : ℕ → Placement)
    (h : ∀ i < (listedArgs argv).length, Provides (sys.answers i) (is64 i) (o i) (p i)) :
    status (main sys argv) = 0 ∧
      stdout (main sys argv) = (listedArgs argv).zipIdx.flatMap fun q =>
        heading (listedArgs argv).length q.1.path.bytes ++
          (o q.2).report (is64 q.2) q.1.option := by
  have hprovides : ∀ k < (listedArgs argv).length,
      Provides (sys.answers (0 + k)) (is64 (0 + k)) (o (0 + k)) (p (0 + k)) := by
    simpa using h
  obtain ⟨⟨files, hfiles⟩, hstdout⟩ :=
    manageLoop_report (listedArgs argv).length 0 (listedArgs argv) hprovides
  obtain ⟨hclosed, hsilent⟩ := closeFiles_of_closes hcloses 0 files
  rw [main_eq, if_pos hcount, listArgs, manageELF, status_bind_of_ok hfiles,
    stdout_bind_of_ok hfiles, hstdout, hsilent, List.append_nil, status, hclosed]
  exact ⟨rfl, rfl⟩

lemma provides_sampleSystem (i : ℕ) : Provides (sampleSystem.answers i) true (sampleObj ET_REL)
    (samplePlacement elf64) where
  fd := rfl
  fstat := rfl
  mapping := ⟨_, _, rfl, image_sampleImage true⟩
  type := by decide
  malloc := rfl
  count := by decide

theorem main_reports_sampleCommand :
    status (main sampleSystem sampleCommand) = 0 ∧
      stdout (main sampleSystem sampleCommand) = (listedArgs sampleCommand).zipIdx.flatMap fun q =>
        heading (listedArgs sampleCommand).length q.1.path.bytes ++
          (sampleObj ET_REL).report true q.1.option :=
  main_reports sampleSystem (fun _ => ⟨rfl, rfl⟩) sampleCommand (by decide) (fun _ => true)
    (fun _ => sampleObj ET_REL) (fun _ => samplePlacement elf64) fun i _ => provides_sampleSystem i

end FtNm
