import FtNm.Construction.Printer

/-!
# The program

`main` of `srcs/ft_nm.c` and what it runs: `open_file`, `map_file`, `get_data_and_size`,
`manageELF`, `unmap_file` and `close_files`.

A run logs its calls to the system (`Call`), and `exit` stops it with its status.  What the
system answers is a parameter.  Every call is made at most once for each file, so a table with
one row for each file (`Answers`) holds all the answers of a run, whatever they depend on.  The
rows of a `System` are restrained by what `open` and `mmap` guarantee: descriptors and
mappings are new ones.

The array `files` is the list of its entries in use, `n_files` its length.
-/

namespace FtNm

open AccessLog

/-! ## The system -/

/-- A call to the system, with what it takes and the handle that it returns.  The text of a
`write` is what the calls of `ft_printf` for one purpose write together. -/
inductive Call
  | openFile (path : List UInt8) (fd : Option ℕ)
  | fstat (fd : ℕ)
  | mmap (fd size : ℕ) (address : Option ℕ)
  | munmap (address size : ℕ)
  | close (fd : ℕ)
  | write (text : List UInt8)
  deriving DecidableEq, Repr

/-- What the system answers for one file: the descriptor, whether the `fstat` of `manageELF`
succeeds, the `st_size` of the one of `get_data_and_size`, the mapping and its address, which
allocations succeed, and whether the file can be unmapped and closed. -/
structure Answers where
  fd : Option ℕ
  fstat : Bool
  stSize : Option ℕ
  mapping : Option (ℕ × MappedFile)
  malloc : ℕ → Bool
  munmap : Bool
  close : Bool
  mapping_size : ∀ a m, mapping = some (a, m) → stSize = some m.size

/-- What the system answers for the files of a run.  No descriptor is closed and no file
unmapped before all have been listed, so the ones that the system returns differ. -/
structure System where
  answers : ℕ → Answers
  fd_inj : ∀ i j d, (answers i).fd = some d → (answers j).fd = some d → i = j
  address_inj : ∀ i j a m m', (answers i).mapping = some (a, m) →
    (answers j).mapping = some (a, m') → i = j

/-- A run of the program, or the status with which it exits. -/
abbrev Process := Run Call ℕ

/-- `ft_printf` of a message, and `exit(1)`. -/
def die {α : Type} (format : String) (args : List VaArg) : Process α := do
  Run.touch [.write (ftPrintf format args).out] ()
  Run.stop 1

/-! ## One file -/

/-- What `main` stores in an entry of `files`. -/
structure FileArg where
  path : CString
  option : EOption
  deriving DecidableEq, Repr

/-- What `close_files` needs of an entry of `files`. -/
structure OpenedFile where
  path : CString
  fd : ℕ
  address : ℕ
  size : ℕ
  deriving DecidableEq, Repr

/-- `open_file`. -/
def openFile (ans : Answers) (path : CString) : Process ℕ := do
  Run.touch [.openFile path.bytes ans.fd] ()
  match ans.fd with
  | some fd => pure fd
  | none =>
    if path.bytes.head? = some '-'.toUInt8 then die "Allowed options are -p -r -u -a -g\n" []
    else die "[ERROR] can't open file : '%s'\n" [.str path.bytes]

/-- `map_file`: the address and the content. -/
def mapFile (ans : Answers) (path : CString) (fd size : ℕ) : Process (ℕ × MappedFile) := do
  Run.touch [.mmap fd size (ans.mapping.map Prod.fst)] ()
  match ans.mapping with
  | some mapping => pure mapping
  | none => die "mmap: Failed to map file '%s'\n" [.str path.bytes]

/-- `get_data_and_size`: the size, the address and the content. -/
def getDataAndSize (ans : Answers) (path : CString) (fd : ℕ) : Process (ℕ × ℕ × MappedFile) := do
  Run.touch [.fstat fd] ()
  match ans.stSize with
  | some size => do
    let mapping ← mapFile ans path fd size
    pure (size, mapping)
  | none => die "fstat: '%s': can't stat file\n" [.str path.bytes]

/-- `unmap_file`. -/
def unmapFile (ans : Answers) (file : OpenedFile) : Process Unit := do
  Run.touch [.munmap file.address file.size] ()
  if ans.munmap then do
    Run.touch [.close file.fd] ()
    if ans.close then pure ()
    else die "close fd: Failed to close file '%s'\n" [.str file.path.bytes]
  else die "unmap: Failed to unmap file '%s'\n" [.str file.path.bytes]

/-- What the listing of a file writes. -/
def Output.text (output : Output) : List UInt8 := output.header ++ output.lines.flatMap Line.text

/-- The calls that parse and print the mapped file. -/
def listFile (ans : Answers) (nFiles : ℕ) (file : TFile) : Process Unit :=
  match (manageFile ans.malloc nFiles file).out with
  | .ok output => Run.touch [.write output.text] ()
  | .error e => die e.message []

/-- The body of the loop of `manageELF`. -/
def manageArg (ans : Answers) (nFiles : ℕ) (arg : FileArg) : Process OpenedFile := do
  let fd ← openFile ans arg.path
  Run.touch [.fstat fd] ()
  if ans.fstat then do
    let (size, address, data) ← getDataAndSize ans arg.path fd
    listFile ans nFiles (TFile.mapped arg.path.bytes data arg.option)
    pure ⟨arg.path, fd, address, size⟩
  else die "fstat: '%s': Failed to get file size\n" [.str arg.path.bytes]

/-! ## All files -/

/-- The loop of `manageELF`, from file `i` on. -/
def manageLoop (sys : System) (nFiles : ℕ) : (i : ℕ) → List FileArg → Process (List OpenedFile)
  | _, [] => pure []
  | i, arg :: args => do
    let file ← manageArg (sys.answers i) nFiles arg
    let files ← manageLoop sys nFiles (i + 1) args
    pure (file :: files)

/-- `manageELF`. -/
def manageELF (sys : System) (args : List FileArg) : Process (List OpenedFile) :=
  manageLoop sys args.length 0 args

/-- `close_files`, from file `i` on. -/
def closeFiles (sys : System) : (i : ℕ) → List OpenedFile → Process Unit
  | _, [] => pure ()
  | i, file :: files => do
    unmapFile (sys.answers i) file
    closeFiles sys (i + 1) files

/-! ## `main` -/

/-- `MAX_FILES`. -/
def MAX_FILES : ℕ := 12

/-- The option that an argument of the command line is. -/
def optionOf (arg : CString) : Option EOption :=
  if ftStrcmp arg.bytes (cstr "-p") = 0 then some .noSort
  else if ftStrcmp arg.bytes (cstr "-r") = 0 then some .reverseSort
  else if ftStrcmp arg.bytes (cstr "-u") = 0 then some .undefinedSymbolsOnly
  else if ftStrcmp arg.bytes (cstr "-a") = 0 then some .displayAll
  else if ftStrcmp arg.bytes (cstr "-g") = 0 then some .externalOnly
  else none

/-- The entries of `files` in use: there is room for `MAX_FILES`. -/
structure Files where
  entries : List FileArg
  length_le : entries.length ≤ MAX_FILES

/-- `files[n_files++]`. -/
def Files.push (files : Files) (arg : FileArg) (h : files.entries.length < MAX_FILES) : Files where
  entries := files.entries ++ [arg]
  length_le := by
    rw [List.length_append]
    exact h

/-- The loop over the arguments, with the option that holds before them. -/
def readArgs : List CString → EOption → Files → Process (EOption × Files)
  | [], option, files => pure (option, files)
  | arg :: argv, option, files =>
    match optionOf arg with
    | some option => readArgs argv option files
    | none =>
      if h : files.entries.length < MAX_FILES then readArgs argv option (files.push ⟨arg, option⟩ h)
      else die "Error: too many input files (maximum is %d)\n" [.word MAX_FILES]

/-- The name of the file that is listed when none is given. -/
def aOut : CString where
  bytes := cstr "a.out"
  nulFree := by decide

/-- `main`, on the arguments behind the name of the program. -/
def main (sys : System) (argv : List CString) : Process Unit := do
  let (option, files) ← readArgs argv .sortOrder ⟨[], Nat.zero_le _⟩
  let args := if files.entries = [] then [⟨aOut, option⟩] else files.entries
  let opened ← manageELF sys args
  closeFiles sys 0 opened

/-- What a run writes on the standard output. -/
def stdout {α : Type} (x : Process α) : List UInt8 :=
  x.log.flatMap fun call =>
    match call with
    | .write text => text
    | _ => []

/-- The status of a run. -/
def status {α : Type} (x : Process α) : ℕ :=
  match x.out with
  | .ok _ => 0
  | .error e => e

end FtNm
