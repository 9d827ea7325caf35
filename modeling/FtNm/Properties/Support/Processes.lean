import FtNm.Construction.Program
import FtNm.Properties.Support.Listing

/-!
# What a process writes

`stdout` and `status` of a run, piece by piece: `stdout_bind` cuts a run where one computation
follows another, and the lemmas about `die` and `listFile` are the pieces.  A listing depends
on the number of files in its heading only (`manageFile_eq`).
-/

namespace FtNm

open AccessLog

section Pieces

variable {α β : Type}

@[simp] lemma stdout_pure (a : α) : stdout (pure a : Process α) = [] := rfl

/-- What the call that a run makes writes. -/
def Call.text : Call → List UInt8
  | .write text => text
  | _ => []

lemma stdout_eq (x : Process α) : stdout x = x.log.flatMap Call.text := rfl

/-- A run that returns is followed by the next one. -/
lemma stdout_bind_of_ok {x : Process α} {a : α} (h : x.out = .ok a) (f : α → Process β) :
    stdout (x >>= f) = stdout x ++ stdout (f a) := by
  show stdout (Run.bind x f) = _
  unfold Run.bind
  rw [h, stdout_eq, stdout_eq, stdout_eq, List.flatMap_append]

lemma stdout_bind_of_error {x : Process α} {e : ℕ} (h : x.out = .error e) (f : α → Process β) :
    stdout (x >>= f) = stdout x := by
  show stdout (Run.bind x f) = _
  unfold Run.bind
  rw [h]
  rfl

lemma status_bind_of_ok {x : Process α} {a : α} (h : x.out = .ok a) (f : α → Process β) :
    status (x >>= f) = status (f a) := by
  rw [status, Run.out_bind_of_ok h]
  rfl

lemma status_bind_of_error {x : Process α} {e : ℕ} (h : x.out = .error e) (f : α → Process β) :
    status (x >>= f) = e := by
  rw [status, Run.out_bind_of_error h]

/-- Nothing follows a run that fails. -/
lemma bind_congr_of_error {x : Process α} {e : ℕ} (h : x.out = .error e)
    (f g : α → Process β) : x >>= f = x >>= g := by
  show Run.bind x f = Run.bind x g
  unfold Run.bind
  rw [h]

/-- Only what is returned goes on. -/
lemma bind_congr_of_ok {x : Process α} {a : α} (h : x.out = .ok a) {f g : α → Process β}
    (hfg : f a = g a) : x >>= f = x >>= g := by
  show Run.bind x f = Run.bind x g
  unfold Run.bind
  rw [h]
  dsimp only
  rw [hfg]

/-- One call before the rest. -/
@[simp] lemma stdout_touch_bind (call : Call) (a : α) (f : α → Process β) :
    stdout ((Run.touch [call] a : Process α) >>= f) = call.text ++ stdout (f a) := by
  rw [stdout_bind_of_ok rfl]
  congr 1
  exact List.append_nil _

@[simp] lemma out_touch_bind (call : Call) (a : α) (f : α → Process β) :
    ((Run.touch [call] a : Process α) >>= f).out = (f a).out :=
  Run.out_touch_bind _ _ _

/-- Whatever stops the run, it exits with the status one. -/
def ExitsWithOne (x : Process α) : Prop := ∀ e, x.out = .error e → e = 1

lemma exitsWithOne_pure (a : α) : ExitsWithOne (pure a) := nofun

lemma exitsWithOne_die (format : String) (args : List VaArg) :
    ExitsWithOne (die format args : Process α) := by
  intro e he
  cases he
  rfl

lemma ExitsWithOne.bind {x : Process α} {f : α → Process β} (hx : ExitsWithOne x)
    (hf : ∀ a, ExitsWithOne (f a)) : ExitsWithOne (x >>= f) := by
  intro e he
  cases hout : x.out with
  | ok a =>
    rw [Run.out_bind_of_ok hout] at he
    exact hf a e he
  | error e' =>
    rw [Run.out_bind_of_error hout] at he
    cases he
    exact hx _ hout

lemma exitsWithOne_touch_bind {call : Call} {f : Unit → Process β} (hf : ExitsWithOne (f ())) :
    ExitsWithOne (Run.touch [call] () >>= f) := by
  intro e he
  rw [out_touch_bind] at he
  exact hf e he

lemma ExitsWithOne.status_eq_zero_iff {x : Process α} (h : ExitsWithOne x) :
    status x = 0 ↔ ∃ a, x.out = .ok a := by
  unfold status
  cases hout : x.out with
  | ok a => simp
  | error e => simp [h e hout]

end Pieces

/-! ## The listing of a file -/

/-- The heading of a file's listing. -/
def heading (nFiles : ℕ) (path : List UInt8) : List UInt8 :=
  if 1 < nFiles then '\n'.toUInt8 :: path ++ cstr ":\n" else []

lemma out_ftPrintf_path (path : List UInt8) :
    (ftPrintf "\n%s:\n" [.str path]).out = '\n'.toUInt8 :: path ++ cstr ":\n" := by
  have hout : (ftPrintf "\n%s:\n" [.str path]).out =
      ['\n'.toUInt8] ++ path ++ [':'.toUInt8] ++ ['\n'.toUInt8] := rfl
  rw [hout]
  simp [cstr]

/-- The number of files decides on the heading only. -/
lemma printSymboles_eq (file : TFile) (nFiles : ℕ) :
    printSymboles file nFiles =
      ⟨heading nFiles file.path, (printSymboles file 1).lines⟩ := by
  have hheader : (printSymboles file nFiles).header = heading nFiles file.path := by
    show (if nFiles > 1 then (ftPrintf "\n%s:\n" [.str file.path]).out else []) = _
    rw [out_ftPrintf_path]
    rfl
  have hlines : (printSymboles file nFiles).lines = (printSymboles file 1).lines := by
    rw [lines_printSymboles, lines_printSymboles]
  rw [← hheader, ← hlines]

section ListFile

variable (ans : Answers) (path : List UInt8) (m : MappedFile) (option : EOption)

/-- A file that is listed. -/
lemma listFile_of_listed (nFiles : ℕ) (h : Listed ans.malloc m) :
    listFile ans nFiles (TFile.mapped path m option) =
      Run.touch [.write (heading nFiles path ++
        ((m.listing option).map m.line).flatMap Line.text)] () := by
  have hout : (manageFile ans.malloc nFiles (TFile.mapped path m option)).out =
      .ok (printSymboles (TFile.parsed path m option) nFiles) :=
    (out_manageFile m path option).mpr ⟨h, rfl⟩
  rw [listFile, hout, printSymboles_eq, lines_parsed]
  rfl

/-- A file that is not listed: the reason does not depend on the number of files. -/
lemma listFile_of_not_listed (h : ¬Listed ans.malloc m) :
    ∃ e : Exit, ∀ nFiles, listFile ans nFiles (TFile.mapped path m option) = die e.message [] := by
  cases hload : (loadFile ans.malloc (TFile.mapped path m option)).out with
  | ok file => exact absurd ((out_loadFile_listed m path option).mp hload).1 h
  | error e =>
    refine ⟨e, fun nFiles => ?_⟩
    rw [listFile, manageFile, Run.out_bind_of_error hload]

end ListFile

/-! ## The parts of `manageELF` -/

/-- The calls for a file in front of its listing. -/
def openArg (ans : Answers) (arg : FileArg) : Process (OpenedFile × MappedFile) := do
  let fd ← openFile ans arg.path
  Run.touch [.fstat fd] ()
  if ans.fstat then do
    let (size, address, data) ← getDataAndSize ans arg.path fd
    pure (⟨arg.path, fd, address, size⟩, data)
  else die "fstat: '%s': Failed to get file size\n" [.str arg.path.bytes]

/-- The loop body is the calls in front of the listing, and the listing. -/
lemma manageArg_eq (ans : Answers) (nFiles : ℕ) (arg : FileArg) :
    manageArg ans nFiles arg = openArg ans arg >>= fun (file, data) =>
      listFile ans nFiles (TFile.mapped arg.path.bytes data arg.option) >>= fun _ => pure file := by
  obtain ⟨fd, fstat, stSize, mapping, malloc, munmap, close, hsize⟩ := ans
  unfold manageArg openArg openFile
  cases fd with
  | none =>
    dsimp only
    split_ifs <;> rfl
  | some fd =>
    cases fstat with
    | false => rfl
    | true =>
      cases stSize with
      | none => rfl
      | some size =>
        cases mapping with
        | none => rfl
        | some mapping => rfl

lemma openArg_exits (ans : Answers) (arg : FileArg) : ExitsWithOne (openArg ans arg) := by
  have hopen : ExitsWithOne (openFile ans arg.path) := by
    refine exitsWithOne_touch_bind ?_
    cases ans.fd with
    | none =>
      dsimp only
      split_ifs <;> exact exitsWithOne_die _ _
    | some fd => exact exitsWithOne_pure fd
  have hmap (fd size : ℕ) : ExitsWithOne (mapFile ans arg.path fd size) := by
    refine exitsWithOne_touch_bind ?_
    cases ans.mapping with
    | none => exact exitsWithOne_die _ _
    | some mapping => exact exitsWithOne_pure mapping
  have hdata (fd : ℕ) : ExitsWithOne (getDataAndSize ans arg.path fd) := by
    refine exitsWithOne_touch_bind ?_
    cases ans.stSize with
    | none => exact exitsWithOne_die _ _
    | some size => exact (hmap fd size).bind fun _ => exitsWithOne_pure _
  refine hopen.bind fun fd => exitsWithOne_touch_bind ?_
  split_ifs
  · exact (hdata fd).bind fun _ => exitsWithOne_pure _
  · exact exitsWithOne_die _ _

/-- What `openArg` returns is what the system has answered, and nothing has been written. -/
lemma openArg_ok {ans : Answers} {arg : FileArg} {file : OpenedFile} {data : MappedFile}
    (h : (openArg ans arg).out = .ok (file, data)) :
    ans.fd = some file.fd ∧ ans.mapping = some (file.address, data) ∧ file.size = data.size ∧
      file.path = arg.path ∧ stdout (openArg ans arg) = [] := by
  obtain ⟨fd, fstat, stSize, mapping, malloc, munmap, close, hsize⟩ := ans
  unfold openArg openFile at h ⊢
  cases fd with
  | none =>
    dsimp only at h
    split_ifs at h <;> cases h
  | some fd =>
    cases fstat with
    | false => cases h
    | true =>
      cases stSize with
      | none => cases h
      | some size =>
        cases mapping with
        | none => cases h
        | some mapping =>
          cases h
          exact ⟨rfl, rfl, Option.some.inj (hsize _ _ rfl), rfl, rfl⟩

lemma openArg_of_answers {ans : Answers} {fd address : ℕ} {m : MappedFile} (hfd : ans.fd = some fd)
    (hfstat : ans.fstat = true) (hmapping : ans.mapping = some (address, m)) (arg : FileArg) :
    (openArg ans arg).out = .ok (⟨arg.path, fd, address, m.size⟩, m) := by
  have hsize := ans.mapping_size _ _ hmapping
  simp only [openArg, openFile, getDataAndSize, mapFile, hfd, hfstat, hmapping, hsize]
  rfl

/-! ## The status of a run -/

lemma listFile_exits (ans : Answers) (nFiles : ℕ) (file : TFile) :
    ExitsWithOne (listFile ans nFiles file) := by
  unfold listFile
  cases (manageFile ans.malloc nFiles file).out with
  | ok output => nofun
  | error e => exact exitsWithOne_die _ _

lemma manageLoop_exits (sys : System) (nFiles i : ℕ) (args : List FileArg) :
    ExitsWithOne (manageLoop sys nFiles i args) := by
  induction args generalizing i with
  | nil => exact exitsWithOne_pure _
  | cons arg args ih =>
    have harg : ExitsWithOne (manageArg (sys.answers i) nFiles arg) := by
      rw [manageArg_eq]
      exact (openArg_exits _ arg).bind fun _ =>
        (listFile_exits _ nFiles _).bind fun _ => exitsWithOne_pure _
    exact harg.bind fun file => (ih (i + 1)).bind fun _ => exitsWithOne_pure _

lemma closeFiles_exits (sys : System) (i : ℕ) (files : List OpenedFile) :
    ExitsWithOne (closeFiles sys i files) := by
  induction files generalizing i with
  | nil => exact exitsWithOne_pure _
  | cons file files ih =>
    have hunmap : ExitsWithOne (unmapFile (sys.answers i) file) := by
      refine exitsWithOne_touch_bind ?_
      split_ifs
      · exact exitsWithOne_touch_bind (exitsWithOne_pure _)
      · exact exitsWithOne_touch_bind (exitsWithOne_die _ _)
      · exact exitsWithOne_die _ _
    exact hunmap.bind fun _ => ih (i + 1)

end FtNm
