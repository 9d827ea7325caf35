import FtNm.Framework.Monitor
import FtNm.Properties.CommandLine
import FtNm.Properties.Support.Processes

/-!
# Descriptors and mappings

A process holds descriptors and mappings, and each call has its turn: `fstat` and `mmap` take a
descriptor that is held, `munmap` gives back a mapping with the length it has, and nothing is
given back twice.  `kernel` is the monitor that watches over this, with room for `MAX_FILES`
descriptors.

`main_conforms`: every run is in turn all along, whatever the system answers and however it
ends, and one that succeeds holds nothing any more.  The invariant is that between the files the
process holds what it keeps in `files`, in this order (`held`).
-/

namespace FtNm

open AccessLog

/-- What a process holds: descriptors, and mappings with their lengths. -/
structure Held where
  fds : List ℕ
  mappings : List (ℕ × ℕ)
  deriving DecidableEq, Repr

/-- Which calls are in turn, and what they change. -/
def kernel : Monitor Held Call where
  step held
    | .openFile _ none => some held
    | .openFile _ (some fd) =>
      if fd ∉ held.fds ∧ held.fds.length < MAX_FILES then
        some { held with fds := held.fds ++ [fd] }
      else none
    | .fstat fd => if fd ∈ held.fds then some held else none
    | .mmap fd _ none => if fd ∈ held.fds then some held else none
    | .mmap fd size (some address) =>
      if fd ∈ held.fds ∧ address ∉ held.mappings.map Prod.fst then
        some { held with mappings := held.mappings ++ [(address, size)] }
      else none
    | .munmap address size =>
      if (address, size) ∈ held.mappings then
        some { held with mappings := held.mappings.erase (address, size) }
      else none
    | .close fd => if fd ∈ held.fds then some { held with fds := held.fds.erase fd } else none
    | .write _ => some held

/-- What a process holds for some entries of `files`. -/
def held (files : List OpenedFile) : Held where
  fds := files.map OpenedFile.fd
  mappings := files.map fun file => (file.address, file.size)

/-- The entries are those that the system has given for the files in front of file `i`. -/
def Given (sys : System) (i : ℕ) (files : List OpenedFile) : Prop :=
  ∀ file ∈ files, ∃ j < i, (sys.answers j).fd = some file.fd ∧
    ∃ m, (sys.answers j).mapping = some (file.address, m)

variable {sys : System} {i : ℕ} {files : List OpenedFile}

/-! ## One file -/

lemma Given.fd_fresh (h : Given sys i files) {fd : ℕ} (hfd : (sys.answers i).fd = some fd) :
    fd ∉ (held files).fds := by
  intro hmem
  obtain ⟨file, hfile, rfl⟩ := List.mem_map.mp hmem
  obtain ⟨j, hj, hgiven, -⟩ := h file hfile
  exact hj.ne (sys.fd_inj j i _ hgiven hfd)

lemma Given.address_fresh (h : Given sys i files) {address : ℕ} {m : MappedFile}
    (hmapping : (sys.answers i).mapping = some (address, m)) :
    address ∉ (held files).mappings.map Prod.fst := by
  intro hmem
  obtain ⟨p, hp, rfl⟩ := List.mem_map.mp hmem
  obtain ⟨file, hfile, rfl⟩ := List.mem_map.mp hp
  obtain ⟨j, hj, -, m', hgiven⟩ := h file hfile
  exact hj.ne (sys.address_inj j i _ _ _ hgiven hmapping)

/-- An error exit writes, and that is all. -/
lemma conforms_die {α : Type} {s : Held} (format : String) (args : List VaArg)
    {Q : α → Held → Prop} :
    (die format args : Process α).Conforms kernel s Q fun _ => True :=
  Run.conforms_touch_bind rfl (Run.conforms_stop trivial)

lemma openFile_conforms (h : Given sys i files) (hroom : files.length < MAX_FILES)
    (path : CString) :
    (openFile (sys.answers i) path).Conforms kernel (held files)
      (fun fd s => (sys.answers i).fd = some fd ∧
        s = { held files with fds := (held files).fds ++ [fd] }) fun _ => True := by
  unfold openFile
  cases hfd : (sys.answers i).fd with
  | none =>
    refine Run.conforms_touch_bind rfl ?_
    dsimp only
    split_ifs
    · exact conforms_die _ _
    · exact conforms_die _ _
  | some fd =>
    have hlength : (held files).fds.length = files.length := List.length_map _
    exact Run.conforms_touch_bind (if_pos ⟨h.fd_fresh hfd, hlength ▸ hroom⟩)
      (Run.conforms_pure ⟨rfl, rfl⟩)

lemma mapFile_conforms (h : Given sys i files) {s : Held} {fd size : ℕ} (hfd : fd ∈ s.fds)
    (hmappings : s.mappings = (held files).mappings) (path : CString) :
    (mapFile (sys.answers i) path fd size).Conforms kernel s
      (fun mapping t => (sys.answers i).mapping = some mapping ∧
        t = { s with mappings := s.mappings ++ [(mapping.1, size)] }) fun _ => True := by
  unfold mapFile
  cases hmapping : (sys.answers i).mapping with
  | none => exact Run.conforms_touch_bind (if_pos hfd) (conforms_die _ _)
  | some mapping =>
    have hfresh : mapping.1 ∉ s.mappings.map Prod.fst := hmappings ▸ h.address_fresh hmapping
    exact Run.conforms_touch_bind (if_pos ⟨hfd, hfresh⟩) (Run.conforms_pure ⟨rfl, rfl⟩)

lemma getDataAndSize_conforms (h : Given sys i files) {s : Held} {fd : ℕ} (hfd : fd ∈ s.fds)
    (hmappings : s.mappings = (held files).mappings) (path : CString) :
    (getDataAndSize (sys.answers i) path fd).Conforms kernel s
      (fun p t => (sys.answers i).mapping = some p.2 ∧
        t = { s with mappings := s.mappings ++ [(p.2.1, p.1)] }) fun _ => True := by
  refine Run.conforms_touch_bind (if_pos hfd) ?_
  cases (sys.answers i).stSize with
  | none => exact conforms_die _ _
  | some size =>
    refine (mapFile_conforms h hfd hmappings path).bind ?_
    rintro mapping t ⟨hmapping, rfl⟩
    exact Run.conforms_pure ⟨hmapping, rfl⟩

lemma listFile_conforms {s : Held} (ans : Answers) (nFiles : ℕ) (path : List UInt8)
    (m : MappedFile) (option : EOption) :
    (listFile ans nFiles (TFile.mapped path m option)).Conforms kernel s
      (fun _ t => t = s) fun _ => True := by
  by_cases hlisted : Listed ans.malloc m
  · rw [listFile_of_listed ans path m option nFiles hlisted]
    exact Run.conforms_touch rfl rfl
  · obtain ⟨e, hlist⟩ := listFile_of_not_listed ans path m option hlisted
    rw [hlist]
    exact conforms_die _ _

/-- **Step.**  A file that is listed is held from then on. -/
lemma manageArg_conforms (h : Given sys i files) (hroom : files.length < MAX_FILES) (nFiles : ℕ)
    (arg : FileArg) :
    (manageArg (sys.answers i) nFiles arg).Conforms kernel (held files)
      (fun file s => s = held (files ++ [file]) ∧ Given sys (i + 1) (files ++ [file]))
      fun _ => True := by
  refine (openFile_conforms h hroom arg.path).bind ?_
  rintro fd s ⟨hfd, rfl⟩
  have hmem : fd ∈ (held files).fds ++ [fd] := List.mem_append_right _ (List.mem_singleton_self fd)
  refine Run.conforms_touch_bind (if_pos hmem) ?_
  split_ifs
  · refine (getDataAndSize_conforms h (s := { held files with fds := _ }) hmem rfl arg.path).bind ?_
    rintro ⟨size, address, data⟩ t ⟨hmapping, rfl⟩
    refine (listFile_conforms _ nFiles _ data _).bind ?_
    rintro _ _ rfl
    refine Run.conforms_pure ⟨?_, ?_⟩
    · simp [held]
    · intro file hfile
      rcases List.mem_append.mp hfile with hfile | hfile
      · obtain ⟨j, hj, hgiven⟩ := h file hfile
        exact ⟨j, hj.trans (Nat.lt_succ_self i), hgiven⟩
      · rw [List.mem_singleton.mp hfile]
        exact ⟨i, Nat.lt_succ_self i, hfd, data, hmapping⟩
  · exact conforms_die _ _

/-! ## All files -/

/-- **Run.**  The files that are listed are all held. -/
lemma manageLoop_conforms (h : Given sys i files) (nFiles : ℕ) (args : List FileArg)
    (hroom : files.length + args.length ≤ MAX_FILES) :
    (manageLoop sys nFiles i args).Conforms kernel (held files)
      (fun files' s => s = held (files ++ files')) fun _ => True := by
  induction args generalizing i files with
  | nil => exact Run.conforms_pure (by rw [List.append_nil])
  | cons arg args ih =>
    rw [List.length_cons] at hroom
    refine (manageArg_conforms h (by omega) nFiles arg).bind ?_
    rintro file s ⟨rfl, hgiven⟩
    have hroom' : (files ++ [file]).length + args.length ≤ MAX_FILES := by
      rw [List.length_append, List.length_singleton]
      omega
    refine (ih hgiven hroom').bind ?_
    rintro files' s rfl
    refine Run.conforms_pure ?_
    rw [List.append_assoc]
    rfl

/-- **Run.**  `close_files` gives everything back. -/
lemma closeFiles_conforms (files : List OpenedFile) :
    (closeFiles sys i files).Conforms kernel (held files) (fun _ s => s = held [])
      fun _ => True := by
  induction files generalizing i with
  | nil => exact Run.conforms_pure rfl
  | cons file files ih =>
    have hunmap : (unmapFile (sys.answers i) file).Conforms kernel (held (file :: files))
        (fun _ s => s = held files) fun _ => True := by
      refine Run.conforms_touch_bind (if_pos List.mem_cons_self) ?_
      split_ifs
      · refine Run.conforms_touch_bind (if_pos List.mem_cons_self) (Run.conforms_pure ?_)
        simp [held]
      · exact Run.conforms_touch_bind (if_pos List.mem_cons_self) (conforms_die _ _)
      · exact conforms_die _ _
    refine hunmap.bind ?_
    rintro _ _ rfl
    exact ih

lemma main_exits (sys : System) (argv : List CString) : ExitsWithOne (main sys argv) := by
  rw [main_eq]
  split_ifs
  · exact (manageLoop_exits sys _ 0 _).bind fun files => closeFiles_exits sys 0 files
  · exact exitsWithOne_die _ _

/-- **Every call has its turn.** -/
theorem main_conforms (sys : System) (argv : List CString) :
    ∃ s, kernel.run ⟨[], []⟩ (main sys argv).log = some s ∧
      (status (main sys argv) = 0 → s = ⟨[], []⟩) := by
  have hconforms : (main sys argv).Conforms kernel (held []) (fun _ s => s = held [])
      fun _ => True := by
    rw [main_eq]
    split_ifs with hcount
    · have hroom : (listedArgs argv).length ≤ MAX_FILES := length_listedArgs_le.mpr hcount
      have hgiven : Given sys 0 [] := fun _ hfile => absurd hfile List.not_mem_nil
      refine (manageLoop_conforms hgiven _ _ (by simpa using hroom)).bind ?_
      rintro files _ rfl
      exact closeFiles_conforms files
    · exact conforms_die _ _
  obtain ⟨s, hrun, hok, -⟩ := hconforms
  refine ⟨s, hrun, fun hstatus => ?_⟩
  obtain ⟨a, ha⟩ := (main_exits sys argv).status_eq_zero_iff.mp hstatus
  exact hok a ha

end FtNm
