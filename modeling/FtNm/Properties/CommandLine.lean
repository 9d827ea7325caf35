import FtNm.Construction.Program

/-!
# The command line

An option holds for the files behind it, up to the next option; the last of several counts, and
a file in front of all of them is listed in the default order.  `fileArgs` says this of the whole
command line at once, where `main` carries an option and an array through a loop.

`main_eq` is what becomes of the loop: too many files and the program lists none, no file and it
lists `a.out`, and otherwise it goes through `fileArgs`.  So every command line does what its
normal form does (`main_normalForm`), in which each file stands behind its own option: an option
that another one follows is as good as not given, and so is one that no file follows, where a file
is named at all.  If none is, the last option holds for `a.out`.
-/

namespace FtNm

open AccessLog

/-- The option that holds behind some arguments. -/
def optionBehind (args : List CString) : EOption := (args.filterMap optionOf).getLastD .sortOrder

/-- The files of a command line, each with the option that holds in front of it. -/
def fileArgs (argv : List CString) : List FileArg :=
  argv.zipIdx.filterMap fun p =>
    if optionOf p.1 = none then some ⟨p.1, optionBehind (argv.take p.2)⟩ else none

/-- The files that are listed. -/
def listedArgs (argv : List CString) : List FileArg :=
  if fileArgs argv = [] then [⟨aOut, optionBehind argv⟩] else fileArgs argv

/-- List the files one after the other, and give them back. -/
def listArgs (sys : System) (args : List FileArg) : Process Unit := do
  let opened ← manageELF sys args
  closeFiles sys 0 opened

/-- The arguments that ask for an option. -/
def EOption.flag : EOption → List CString
  | .noSort => [⟨cstr "-p", by decide⟩]
  | .sortOrder => []
  | .reverseSort => [⟨cstr "-r", by decide⟩]
  | .displayAll => [⟨cstr "-a", by decide⟩]
  | .undefinedSymbolsOnly => [⟨cstr "-u", by decide⟩]
  | .externalOnly => [⟨cstr "-g", by decide⟩]

/-- The command line for one file. -/
def FileArg.command (arg : FileArg) : List CString := arg.option.flag ++ [arg.path]

/-- The exit for more files than there is room for. -/
def tooMany {α : Type} : Process α :=
  die "Error: too many input files (maximum is %d)\n" [.word MAX_FILES]

/-! ## One more argument -/

section Concat

variable (argv : List CString) (arg : CString)

lemma optionBehind_concat :
    optionBehind (argv ++ [arg]) = (optionOf arg).getD (optionBehind argv) := by
  unfold optionBehind
  rw [List.filterMap_append]
  cases h : optionOf arg with
  | none => simp [h]
  | some option => simp [h]

lemma fileArgs_concat : fileArgs (argv ++ [arg]) =
    fileArgs argv ++ if optionOf arg = none then [⟨arg, optionBehind argv⟩] else [] := by
  have hzip : (argv ++ [arg]).zipIdx = argv.zipIdx ++ [(arg, argv.length)] := by
    rw [List.zipIdx_append, Nat.zero_add]
    rfl
  unfold fileArgs
  rw [hzip, List.filterMap_append]
  congr 1
  · apply List.filterMap_congr
    rintro ⟨a, i⟩ hmem
    have hi : i < argv.length := by
      obtain ⟨-, hlt, -⟩ := List.mem_zipIdx hmem
      omega
    dsimp only
    rw [List.take_append_of_le_length hi.le]
  · rw [List.filterMap_cons, List.take_left]
    split_ifs <;> rfl

/-- What is listed is no option. -/
lemma optionOf_listedArgs : ∀ file ∈ listedArgs argv, optionOf file.path = none := by
  intro file hfile
  unfold listedArgs at hfile
  split_ifs at hfile with hnil
  · have haOut : optionOf aOut = none := by decide
    rw [List.mem_singleton.mp hfile]
    exact haOut
  · obtain ⟨p, -, hp⟩ := List.mem_filterMap.mp hfile
    split_ifs at hp with hoption
    rw [← Option.some.inj hp]
    exact hoption

/-- The loop goes on where it is. -/
lemma readArgs_append (argv' : List CString) (option : EOption) (files : Files) :
    readArgs (argv ++ argv') option files =
      readArgs argv option files >>= fun (option, files) => readArgs argv' option files := by
  induction argv generalizing option files with
  | nil =>
    show _ = Run.bind (Run.mk [] (.ok (option, files))) _
    rfl
  | cons arg argv ih =>
    rw [List.cons_append, readArgs, readArgs]
    cases optionOf arg with
    | some option => exact ih option files
    | none =>
      dsimp only
      split_ifs with h
      · exact ih option _
      · rfl

end Concat

/-! ## The loop -/

lemma readArgs_option {arg : CString} {o : EOption} (h : optionOf arg = some o)
    (option : EOption) (files : Files) : readArgs [arg] option files = pure (o, files) := by
  rw [readArgs, h]
  rfl

lemma readArgs_file {arg : CString} (h : optionOf arg = none) (option : EOption) (files : Files) :
    readArgs [arg] option files =
      if h : files.entries.length < MAX_FILES then pure (option, files.push ⟨arg, option⟩ h)
      else tooMany := by
  rw [readArgs, h]
  rfl

/-- **Run.**  The loop ends with the option behind all arguments and with all files, unless they
are too many. -/
lemma readArgs_eq (argv : List CString) : readArgs argv .sortOrder ⟨[], Nat.zero_le _⟩ =
    if h : (fileArgs argv).length ≤ MAX_FILES then pure (optionBehind argv, ⟨fileArgs argv, h⟩)
    else tooMany := by
  induction argv using List.reverseRecOn with
  | nil => rfl
  | append_singleton argv arg ih =>
    have hfiles := fileArgs_concat argv arg
    have hbehind := optionBehind_concat argv arg
    rw [readArgs_append, ih]
    cases harg : optionOf arg with
    | some o =>
      rw [harg, Option.getD_some] at hbehind
      rw [harg, if_neg nofun, List.append_nil] at hfiles
      simp only [hfiles, hbehind]
      split_ifs with h
      · exact readArgs_option harg _ _
      · rfl
    | none =>
      rw [harg, Option.getD_none] at hbehind
      rw [harg, if_pos rfl] at hfiles
      have hlength : (fileArgs (argv ++ [arg])).length = (fileArgs argv).length + 1 := by
        rw [hfiles, List.length_append, List.length_singleton]
      by_cases h : (fileArgs argv).length ≤ MAX_FILES
      · rw [dif_pos h]
        refine (readArgs_file harg _ _).trans ?_
        by_cases hroom : (fileArgs argv).length < MAX_FILES
        · rw [dif_pos hroom, dif_pos (by omega)]
          simp only [Files.push, hfiles, hbehind]
        · rw [dif_neg hroom, dif_neg (by omega)]
      · rw [dif_neg h, dif_neg (by omega)]
        rfl

/-- What becomes of a command line. -/
lemma main_eq (sys : System) (argv : List CString) : main sys argv =
    if (fileArgs argv).length ≤ MAX_FILES then listArgs sys (listedArgs argv) else tooMany := by
  rw [main, readArgs_eq]
  split_ifs with h <;> rfl

lemma length_listedArgs_le {argv : List CString} :
    (listedArgs argv).length ≤ MAX_FILES ↔ (fileArgs argv).length ≤ MAX_FILES := by
  unfold listedArgs
  split_ifs with hnil
  · simp [hnil, MAX_FILES]
  · rfl

/-! ## The normal form -/

/-- No argument brings the default order back. -/
lemma optionOf_ne_sortOrder (arg : CString) : optionOf arg ≠ some .sortOrder := by
  unfold optionOf
  split_ifs <;> simp

/-- Files are listed by default only while there has been no option. -/
def DefaultsFirst (args : List FileArg) : Prop :=
  args.Pairwise fun a b => b.option = .sortOrder → a.option = .sortOrder

lemma option_of_optionBehind {argv : List CString} (h : optionBehind argv = .sortOrder) :
    ∀ file ∈ fileArgs argv, file.option = .sortOrder := by
  induction argv using List.reverseRecOn with
  | nil => exact fun _ hfile => absurd hfile List.not_mem_nil
  | append_singleton argv arg ih =>
    rw [optionBehind_concat] at h
    rw [fileArgs_concat]
    cases harg : optionOf arg with
    | some option =>
      rw [harg, Option.getD_some] at h
      exact absurd (h ▸ harg) (optionOf_ne_sortOrder arg)
    | none =>
      rw [harg, Option.getD_none] at h
      intro file hfile
      rw [if_pos rfl, List.mem_append, List.mem_singleton] at hfile
      rcases hfile with hfile | rfl
      · exact ih h file hfile
      · exact h

lemma defaultsFirst_fileArgs (argv : List CString) : DefaultsFirst (fileArgs argv) := by
  induction argv using List.reverseRecOn with
  | nil => exact List.Pairwise.nil
  | append_singleton argv arg ih =>
    rw [fileArgs_concat]
    split_ifs with harg
    · rw [DefaultsFirst, List.pairwise_append]
      refine ⟨ih, List.pairwise_singleton _ _, ?_⟩
      intro a ha b hb hdefault
      rw [List.mem_singleton.mp hb] at hdefault
      exact option_of_optionBehind hdefault a ha
    · rwa [List.append_nil]

lemma defaultsFirst_listedArgs (argv : List CString) : DefaultsFirst (listedArgs argv) := by
  unfold listedArgs
  split_ifs
  · exact List.pairwise_singleton _ _
  · exact defaultsFirst_fileArgs argv

/-- An option in its written form. -/
lemma flag_append (argv : List CString) (option : EOption) :
    fileArgs (argv ++ option.flag) = fileArgs argv ∧
      optionBehind (argv ++ option.flag) =
        if option = .sortOrder then optionBehind argv else option := by
  have hflag : ∀ arg o, optionOf arg = some o → fileArgs (argv ++ [arg]) = fileArgs argv ∧
      optionBehind (argv ++ [arg]) = o := by
    intro arg o harg
    rw [fileArgs_concat, optionBehind_concat, harg]
    exact ⟨List.append_nil _, rfl⟩
  cases option with
  | sortOrder =>
    rw [EOption.flag, List.append_nil]
    exact ⟨rfl, rfl⟩
  | noSort => exact hflag _ .noSort (by decide)
  | reverseSort => exact hflag _ .reverseSort (by decide)
  | displayAll => exact hflag _ .displayAll (by decide)
  | undefinedSymbolsOnly => exact hflag _ .undefinedSymbolsOnly (by decide)
  | externalOnly => exact hflag _ .externalOnly (by decide)

/-- The commands for files in the default order hold no option. -/
lemma optionBehind_commands {args : List FileArg} (hargs : ∀ arg ∈ args, optionOf arg.path = none)
    (hdefault : ∀ arg ∈ args, arg.option = .sortOrder) :
    optionBehind (args.flatMap FileArg.command) = .sortOrder := by
  have hnone : (args.flatMap FileArg.command).filterMap optionOf = [] := by
    rw [List.filterMap_eq_nil_iff]
    intro a ha
    obtain ⟨arg, harg, hmem⟩ := List.mem_flatMap.mp ha
    rw [FileArg.command, hdefault arg harg, EOption.flag, List.nil_append,
      List.mem_singleton] at hmem
    rw [hmem, hargs arg harg]
  rw [optionBehind, hnone]
  rfl

/-- The commands for some files give these files. -/
lemma fileArgs_commands {args : List FileArg} (hargs : ∀ arg ∈ args, optionOf arg.path = none)
    (hdefault : DefaultsFirst args) : fileArgs (args.flatMap FileArg.command) = args := by
  induction args using List.reverseRecOn with
  | nil => rfl
  | append_singleton args arg ih =>
    obtain ⟨hbefore, -, hlast⟩ := List.pairwise_append.mp hdefault
    have hpaths : ∀ a ∈ args, optionOf a.path = none :=
      fun a ha => hargs a (List.mem_append_left _ ha)
    have hpath : optionOf arg.path = none :=
      hargs arg (List.mem_append_right _ (List.mem_singleton_self arg))
    obtain ⟨hfiles, hoption⟩ := flag_append (args.flatMap FileArg.command) arg.option
    have hbehind : optionBehind (args.flatMap FileArg.command ++ arg.option.flag) = arg.option := by
      rw [hoption]
      split_ifs with hsort
      · rw [hsort]
        exact optionBehind_commands hpaths fun a ha =>
          hlast a ha arg (List.mem_singleton_self arg) hsort
      · rfl
    rw [List.flatMap_append, List.flatMap_singleton, FileArg.command, ← List.append_assoc,
      fileArgs_concat, hfiles, hbehind, ih hpaths hbefore, if_pos hpath]

/-- **The normal form of a command line.** -/
theorem main_normalForm (sys : System) (argv : List CString) :
    main sys argv = main sys ((listedArgs argv).flatMap FileArg.command) := by
  have hfiles := fileArgs_commands (optionOf_listedArgs argv) (defaultsFirst_listedArgs argv)
  have hne : listedArgs argv ≠ [] := by
    unfold listedArgs
    split_ifs with hnil
    · exact List.cons_ne_nil _ _
    · exact hnil
  have hlisted : listedArgs ((listedArgs argv).flatMap FileArg.command) = listedArgs argv := by
    rw [listedArgs, hfiles, if_neg hne]
  rw [main_eq, main_eq, hfiles, hlisted, if_congr length_listedArgs_le rfl rfl]

end FtNm
