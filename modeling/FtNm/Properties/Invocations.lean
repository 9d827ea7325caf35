import FtNm.Properties.CommandLine
import FtNm.Properties.Decoding
import FtNm.Properties.Support.Processes

/-!
# One invocation and many

A run on several files is the runs on each of them, one after the other: what it writes is what
they write, a heading in front of each listing, up to the first that fails; and it succeeds
exactly if they all do.  The files have nothing else to do with each other.

`main_composes` compares whole runs of `main`.  The step is one file: `manageArg_heads` says
that the number of files decides on the heading only.
-/

namespace FtNm

open AccessLog

/-- The system as it answers from file `i` on. -/
def System.behind (sys : System) (i : ℕ) : System where
  answers := fun j => sys.answers (i + j)
  fd_inj := by
    intro j k d hj hk
    have heq := sys.fd_inj _ _ d hj hk
    omega
  address_inj := by
    intro j k a m m' hj hk
    have heq := sys.address_inj _ _ a m m' hj hk
    omega

/-- The run of the program on one file, the `i`-th that the system is asked for. -/
def alone (sys : System) (i : ℕ) (arg : FileArg) : Process Unit := main (sys.behind i) arg.command

/-- What the runs on one file each write, headings in between, up to the first that fails. -/
def transcript (sys : System) (nFiles : ℕ) : (i : ℕ) → List FileArg → List UInt8
  | _, [] => []
  | i, arg :: args =>
    if status (alone sys i arg) = 0 then
      heading nFiles arg.path.bytes ++ stdout (alone sys i arg) ++
        transcript sys nFiles (i + 1) args
    else stdout (alone sys i arg)

/-- The files can be unmapped and closed. -/
def System.Closes (sys : System) : Prop :=
  ∀ i, (sys.answers i).munmap = true ∧ (sys.answers i).close = true

/-! ## One file -/

/-- The option of a command for one file is the file's. -/
lemma listedArgs_command {arg : FileArg} (h : optionOf arg.path = none) :
    (fileArgs arg.command).length ≤ MAX_FILES ∧ listedArgs arg.command = [arg] := by
  have hfiles : fileArgs arg.command = [arg] := by
    have hcommands : fileArgs ([arg].flatMap FileArg.command) = [arg] :=
      fileArgs_commands (by simpa using h) (List.pairwise_singleton _ _)
    rwa [List.flatMap_cons, List.flatMap_nil, List.append_nil] at hcommands
  rw [listedArgs, hfiles]
  exact ⟨Nat.le_add_left 1 11, rfl⟩

/-- **Step.**  Among `n` files a file is treated as on its own, up to the heading. -/
lemma manageArg_heads (ans : Answers) (nFiles : ℕ) (arg : FileArg) :
    (∃ file, (manageArg ans 1 arg).out = .ok file ∧ (manageArg ans nFiles arg).out = .ok file ∧
      stdout (manageArg ans nFiles arg) =
        heading nFiles arg.path.bytes ++ stdout (manageArg ans 1 arg)) ∨
    ((manageArg ans 1 arg).out = .error 1 ∧ manageArg ans nFiles arg = manageArg ans 1 arg) := by
  rw [manageArg_eq, manageArg_eq]
  cases hopen : (openArg ans arg).out with
  | error e =>
    obtain rfl := openArg_exits ans arg e hopen
    exact .inr ⟨Run.out_bind_of_error hopen _, bind_congr_of_error hopen _ _⟩
  | ok opened =>
    obtain ⟨file, data⟩ := opened
    have hsilent := (openArg_ok hopen).2.2.2.2
    by_cases hlisted : Listed ans.malloc data
    · have hlist (n : ℕ) := listFile_of_listed ans arg.path.bytes data arg.option n hlisted
      refine .inl ⟨file, ?_, ?_, ?_⟩
      · rw [Run.out_bind_of_ok hopen]
        dsimp only
        rw [hlist, out_touch_bind]
        rfl
      · rw [Run.out_bind_of_ok hopen]
        dsimp only
        rw [hlist, out_touch_bind]
        rfl
      · rw [stdout_bind_of_ok hopen, stdout_bind_of_ok hopen, hsilent]
        dsimp only
        rw [hlist, hlist, stdout_touch_bind, stdout_touch_bind]
        simp [Call.text, heading]
    · obtain ⟨e, hlist⟩ := listFile_of_not_listed ans arg.path.bytes data arg.option hlisted
      refine .inr ⟨?_, ?_⟩
      · rw [Run.out_bind_of_ok hopen]
        dsimp only
        rw [hlist]
        rfl
      · refine bind_congr_of_ok hopen ?_
        dsimp only
        rw [hlist, hlist]

section Alone

variable {sys : System}

lemma closeFiles_of_closes (h : sys.Closes) (i : ℕ) (files : List OpenedFile) :
    (closeFiles sys i files).out = .ok () ∧ stdout (closeFiles sys i files) = [] := by
  induction files generalizing i with
  | nil => exact ⟨rfl, rfl⟩
  | cons file files ih =>
    have hunmap : (unmapFile (sys.answers i) file).out = .ok () ∧
        stdout (unmapFile (sys.answers i) file) = [] := by
      simp [unmapFile, h i, Call.text]
    rw [closeFiles, Run.out_bind_of_ok hunmap.1, stdout_bind_of_ok hunmap.1, hunmap.2]
    exact ih (i + 1)

lemma manageLoop_cons (nFiles i : ℕ) (arg : FileArg) (args : List FileArg) :
    manageLoop sys nFiles i (arg :: args) = manageArg (sys.answers i) nFiles arg >>= fun file =>
      manageLoop sys nFiles (i + 1) args >>= fun files => pure (file :: files) := rfl

lemma closes_behind (h : sys.Closes) (i : ℕ) : (sys.behind i).Closes := fun j => h (i + j)

/-- The run on one file is the round of the loop for it. -/
lemma alone_eq (h : sys.Closes) (i : ℕ) {arg : FileArg} (harg : optionOf arg.path = none) :
    stdout (alone sys i arg) = stdout (manageArg (sys.answers i) 1 arg) ∧
      status (alone sys i arg) = status (manageArg (sys.answers i) 1 arg) := by
  obtain ⟨hcount, hlisted⟩ := listedArgs_command harg
  have hround : manageELF (sys.behind i) [arg] =
      manageArg (sys.answers i) 1 arg >>= fun file => pure [file] := rfl
  have hmain : alone sys i arg = listArgs (sys.behind i) [arg] := by
    rw [alone, main_eq, if_pos hcount, hlisted]
  rw [hmain, listArgs, hround]
  cases hout : (manageArg (sys.answers i) 1 arg).out with
  | ok file =>
    have hpure : (manageArg (sys.answers i) 1 arg >>= fun file => pure [file]).out =
        .ok [file] := Run.out_bind_of_ok hout _
    obtain ⟨hclosed, hsilent⟩ := closeFiles_of_closes (closes_behind h i) 0 [file]
    rw [stdout_bind_of_ok hpure, stdout_bind_of_ok hout, hsilent, status_bind_of_ok hpure, status,
      status, hclosed, hout, stdout_pure, List.append_nil, List.append_nil]
    exact ⟨rfl, rfl⟩
  | error e =>
    have hpure : (manageArg (sys.answers i) 1 arg >>= fun file => pure [file]).out =
        .error e := Run.out_bind_of_error hout _
    rw [stdout_bind_of_error hpure, stdout_bind_of_error hout, status_bind_of_error hpure, status,
      hout]
    exact ⟨rfl, rfl⟩

/-! ## All files -/

/-- **Run.**  The loop writes the transcript, and gets through if the runs on one file do. -/
lemma manageLoop_transcript (h : sys.Closes) (nFiles i : ℕ) (args : List FileArg)
    (hargs : ∀ arg ∈ args, optionOf arg.path = none) :
    stdout (manageLoop sys nFiles i args) = transcript sys nFiles i args ∧
      ((∃ files, (manageLoop sys nFiles i args).out = .ok files) ↔
        ∀ p ∈ args.zipIdx i, status (alone sys p.2 p.1) = 0) := by
  induction args generalizing i with
  | nil => simp [manageLoop, transcript]
  | cons arg args ih =>
    rw [List.forall_mem_cons] at hargs
    obtain ⟨hstdout, hok⟩ := ih (i + 1) hargs.2
    obtain ⟨halone, hstatus⟩ := alone_eq h i hargs.1
    rw [manageLoop_cons, transcript, List.zipIdx_cons, List.forall_mem_cons, ← hok, halone, hstatus]
    rcases manageArg_heads (sys.answers i) nFiles arg with
      ⟨file, hone, hmany, hheads⟩ | ⟨hone, hsame⟩
    · have hzero : status (manageArg (sys.answers i) 1 arg) = 0 := by rw [status, hone]
      rw [if_pos hzero, stdout_bind_of_ok hmany, hheads, Run.out_bind_of_ok hmany, ← hstdout]
      cases hrest : (manageLoop sys nFiles (i + 1) args).out with
      | ok files =>
        rw [stdout_bind_of_ok hrest, Run.out_bind_of_ok hrest]
        simp [hzero]
      | error e =>
        rw [stdout_bind_of_error hrest, Run.out_bind_of_error hrest]
        simp
    · have hone' : status (manageArg (sys.answers i) 1 arg) = 1 := by rw [status, hone]
      rw [hsame, stdout_bind_of_error hone, Run.out_bind_of_error hone, hone']
      simp

end Alone

/-- **One invocation and many.** -/
theorem main_composes (sys : System) (h : sys.Closes) (argv : List CString)
    (hcount : (fileArgs argv).length ≤ MAX_FILES) :
    stdout (main sys argv) = transcript sys (listedArgs argv).length 0 (listedArgs argv) ∧
      (status (main sys argv) = 0 ↔
        ∀ p ∈ (listedArgs argv).zipIdx, status (alone sys p.2 p.1) = 0) := by
  obtain ⟨hstdout, hok⟩ :=
    manageLoop_transcript h (listedArgs argv).length 0 (listedArgs argv) (optionOf_listedArgs argv)
  rw [main_eq, if_pos hcount, listArgs, manageELF, ← hok, ← hstdout]
  cases hout : (manageLoop sys (listedArgs argv).length 0 (listedArgs argv)).out with
  | ok files =>
    obtain ⟨hclosed, hsilent⟩ := closeFiles_of_closes h 0 files
    rw [stdout_bind_of_ok hout, status_bind_of_ok hout, hsilent, status, hclosed]
    simp
  | error e =>
    obtain rfl := manageLoop_exits sys _ 0 _ e hout
    rw [stdout_bind_of_error hout, status_bind_of_error hout]
    simp

/-- A system on which every file opens and holds the same object. -/
def sampleSystem : System where
  answers := fun i =>
    { fd := some (i + 3)
      fstat := true
      stSize := some (sampleImage true).size
      mapping := some ((i + 1) * 2 ^ 20, sampleImage true)
      malloc := fun _ => true
      munmap := true
      close := true
      mapping_size := by
        rintro a m ⟨⟩
        rfl }
  fd_inj := by
    intro i j d hi hj
    have heq := Option.some.inj (hi.trans hj.symm)
    omega
  address_inj := by
    intro i j a m m' hi hj
    have hi' := congrArg Prod.fst (Option.some.inj hi)
    have hj' := congrArg Prod.fst (Option.some.inj hj)
    dsimp only at hi' hj'
    omega

/-- Two files in reverse order. -/
def sampleCommand : List CString :=
  EOption.reverseSort.flag ++ [⟨cstr "a.o", by decide⟩, ⟨cstr "b.o", by decide⟩]

theorem main_composes_sampleCommand :
    stdout (main sampleSystem sampleCommand) = transcript sampleSystem
      (listedArgs sampleCommand).length 0 (listedArgs sampleCommand) ∧
      (status (main sampleSystem sampleCommand) = 0 ↔
        ∀ p ∈ (listedArgs sampleCommand).zipIdx, status (alone sampleSystem p.2 p.1) = 0) :=
  main_composes sampleSystem (fun _ => ⟨rfl, rfl⟩) sampleCommand (by decide)

end FtNm
