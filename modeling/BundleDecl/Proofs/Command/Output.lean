import BundleDecl.Proofs.Command.Check
import BundleDecl.Proofs.Command.Setup
import BundleDecl.Proofs.Declarations.Limits

/-!
# What a failing command leaves behind

A task with one result that fails has written nothing to the standard output and has changed no file
but the log file. A check that fails has reported the files before the first one that cannot be
read, and the exit code tells why that one cannot be read.
-/

namespace BundleDecl

namespace Command

/-! ## Endings of tasks -/

/-- The ending that the outcome of a task leads to. -/
def endingOf : Except Trouble Unit → Ending
  | .ok () => .finished .success
  | .error trouble => trouble.ending

/-- No trouble ends as success does. -/
theorem ending_ne_success (trouble : Trouble) : trouble.ending ≠ .finished .success := by
  cases trouble with
  | file problem =>
      rw [Trouble.ending]
      split <;> simp
  | failure failure => simp [Trouble.ending]
  | interrupted interruption => simp [Trouble.ending]
  | unprintable => simp [Trouble.ending]

theorem endingOf_eq_success_iff {outcome : Except Trouble Unit} :
    endingOf outcome = .finished .success ↔ outcome = .ok () := by
  rcases outcome with trouble | _
  · simp [endingOf, ending_ne_success]
  · simp [endingOf]

/-- The file system has no part in a problem exactly if the name is no name. -/
theorem isOfFileSystem_eq_false_iff {problem : FileProblem} :
    problem.isOfFileSystem = false ↔ problem = .nullCharacter := by
  cases problem <;> simp [FileProblem.isOfFileSystem]

theorem ending_file {problem : FileProblem} :
    (Trouble.file problem).ending =
      if problem = .nullCharacter then .escaped (.file .nullCharacter)
      else .finished .fileError := by
  rw [Trouble.ending]
  by_cases null : problem = .nullCharacter
  · subst null
    rfl
  · rw [if_neg null, if_pos]
    rwa [← Bool.not_eq_false, isOfFileSystem_eq_false_iff]

/-- A task ends by its outcome, and nothing but records is added to what it did. -/
theorem performLogged_eq {host : Host} {declaring : Option Text} {task : Task}
    {world done : World} {outcome : Except Trouble Unit}
    (performed : (perform host declaring task).run (world.log (Log.commandStarted task.name)) =
      (outcome, done)) :
    ∃ records,
      performLogged host declaring task world = (endingOf outcome, done.recorded records) := by
  rw [performLogged]
  simp only [performed]
  rcases outcome with trouble | _
  · refine ⟨trouble.record?.toList, ?_⟩
    dsimp only
    cases trouble.record? <;> rfl
  · exact ⟨[Log.commandFinished task.name], rfl⟩

/-- Either a file cannot be opened, or what is in it cannot be read. -/
theorem exists_of_load_eq_error {host : Host} {declaring : Option Text} {withoutOptionals : Bool}
    {files : FileTree} {name : Text} {trouble : Trouble}
    (refused : load host declaring withoutOptionals files name = .error trouble) :
    (∃ problem, files.read name = .error problem ∧ trouble = .file problem) ∨
      ∃ content halt, files.read name = .ok content ∧ trouble = .ofHalt halt := by
  rw [load, bind_eq_error_iff] at refused
  rcases refused with unopened | ⟨content, opened, refused⟩
  · rcases mapError_eq_error_iff.1 unopened with ⟨problem, unread, rfl⟩
    exact Or.inl ⟨problem, unread, rfl⟩
  · refine Or.inr ⟨content, ?_⟩
    rw [mapError_eq_ok_iff] at opened
    rw [bind_eq_error_iff] at refused
    rcases refused with unnamed | ⟨bundle, -, refused⟩
    · rcases mapError_eq_error_iff.1 unnamed with ⟨failure, -, rfl⟩
      exact ⟨.refused failure, opened, rfl⟩
    · rw [bind_eq_error_iff] at refused
      rcases refused with stopped | ⟨declarations, -, returned⟩
      · rcases mapError_eq_error_iff.1 stopped with ⟨halt, -, rfl⟩
        exact ⟨halt, opened, rfl⟩
      · exact absurd returned pure_ne_error

/-! ## Tasks with one result -/

/-- A task with one result that fails has only logged. -/
theorem exists_recorded_of_error {host : Host} {task : Task} (single : ∀ names withoutOptionals,
    task ≠ .check names withoutOptionals) {declaring : Option Text} {world stopped : World}
    {trouble : Trouble}
    (failed : (perform host declaring task).run world = (.error trouble, stopped)) :
    ∃ records, stopped = world.recorded records := by
  rcases exists_run_perform host single declaring world with ⟨before, performed⟩
  rw [performed] at failed
  split at failed
  · exact ⟨before, (Prod.mk.inj failed).2.symm⟩
  · refine ⟨recordsOf task, ?_⟩
    rw [run_emit] at failed
    split at failed
    · split at failed
      · exact absurd (Prod.mk.inj failed).1 nofun
      · exact (Prod.mk.inj failed).2.symm
    · split at failed
      · exact (Prod.mk.inj failed).2.symm
      · exact absurd (Prod.mk.inj failed).1 nofun

variable {host : Host} {environment : Environment} {arguments : List Text} {files : FileTree}
  {read : Arguments}

/-- A task with one result that fails has only logged since it was started. -/
theorem exists_ready_of_failure (accepted : Arguments.read arguments = .ok read)
    (single : ∀ names withoutOptionals, read.task ≠ .check names withoutOptionals)
    {code : ExitCode} (ended : (run host environment arguments files).1.code? = some code)
    (failed : code = .declarationError ∨ code = .fileError) :
    ∃ declaring ready records, Prepared host environment files read declaring ready ∧
      (run host environment arguments files).2 = ready.recorded records := by
  have noMisuse : code ≠ .usageError := by
    rcases failed with rfl | rfl <;> decide
  rcases exists_prepared accepted ended noMisuse with ⟨declaring, ready, prepared⟩
  rw [prepared.run_eq accepted] at ended ⊢
  rcases performed : (perform host declaring read.task).run
    (ready.log (Log.commandStarted read.task.name)) with ⟨outcome, after⟩
  rcases performLogged_eq performed with ⟨last, done⟩
  rw [done] at ended ⊢
  rcases outcome with trouble | _
  · rcases exists_recorded_of_error single performed with ⟨records, rfl⟩
    refine ⟨declaring, ready, Log.commandStarted read.task.name :: records ++ last, prepared, ?_⟩
    rw [World.recorded_append]
    rfl
  · rcases Option.some.inj ended with rfl
    rcases failed with success | success
    · contradiction
    · contradiction

/-! ## Checks -/

/-- The world in which a task is performed once its start is logged. -/
def started (task : Task) (ready : World) : World :=
  ready.log (Log.commandStarted task.name)

/-- How a check ends that has reported so many files: all of them, or those before the first one
that cannot be opened, that is malformed, on which the host interrupts the reader, or whose name is
that of no file. -/
inductive CheckEnds (host : Host) (declaring : Option Text) (withoutOptionals : Bool)
    (world : World) (names : List Text) (turn : Nat) : Ending → Prop where
  | reported (all : turn = names.length) :
      CheckEnds host declaring withoutOptionals world names turn (.finished .success)
  | unopened {name : Text} {problem : FileProblem} (next : names[turn]? = some name)
      (proper : '\x00' ∉ name) (refused : (atTurn world turn).files.read name = .error problem) :
      CheckEnds host declaring withoutOptionals world names turn (.finished .fileError)
  | malformed {name : Text} {content : List UInt8} {failure : Failure}
      (next : names[turn]? = some name)
      (opened : (atTurn world turn).files.read name = .ok content)
      (refused : load host declaring withoutOptionals (atTurn world turn).files name =
        .error (.failure failure)) :
      CheckEnds host declaring withoutOptionals world names turn (.finished .declarationError)
  | interrupted {name : Text} {content : List UInt8} {interruption : Interruption}
      (next : names[turn]? = some name)
      (opened : (atTurn world turn).files.read name = .ok content)
      (cut : load host declaring withoutOptionals (atTurn world turn).files name =
        .error (.interrupted interruption)) :
      CheckEnds host declaring withoutOptionals world names turn
        (.escaped (.interrupted interruption))
  | improper {name : Text} (next : names[turn]? = some name) (null : '\x00' ∈ name) :
      CheckEnds host declaring withoutOptionals world names turn (.escaped (.file .nullCharacter))

theorem Stops.checkEnds {declaring : Option Text} {withoutOptionals : Bool} {world : World}
    {names : List Text} {loaded : List Declarations} {outcome : Except Trouble Unit}
    (stops : Stops (load host declaring withoutOptionals) world names loaded outcome) :
    CheckEnds host declaring withoutOptionals world names loaded.length (endingOf outcome) := by
  cases stops with
  | done all => exact .reported all
  | @failed name trouble next refused =>
      rcases exists_of_load_eq_error refused with
        ⟨problem, unread, rfl⟩ | ⟨content, failure | interruption, opened, rfl⟩
      · rw [endingOf, ending_file]
        by_cases null : '\x00' ∈ name
        · rw [if_pos ((FileTree.eq_nullCharacter_iff_of_read unread).2 null)]
          exact .improper next null
        · rw [if_neg (mt (FileTree.eq_nullCharacter_iff_of_read unread).1 null)]
          exact .unopened next null unread
      · exact .malformed next opened refused
      · exact .interrupted next opened refused

/-- What a check leaves on the standard output, and how it ends. -/
structure Checked (host : Host) (declaring : Option Text) (withoutOptionals : Bool)
    (world : World) (names : List Text) (loaded : List Declarations) (ending : Ending)
    (output : Text) : Prop where
  loadedFrom : LoadedFrom (load host declaring withoutOptionals) world names loaded
  stopped : ∀ name, names[loaded.length]? = some name →
    ¬LoadsAt (load host declaring withoutOptionals) world loaded.length name
  output_eq : output = reports names loaded
  ends : CheckEnds host declaring withoutOptionals world names loaded.length ending
  success_iff : ending = .finished .success ↔
    ∀ turn name, names[turn]? = some name →
      LoadsAt (load host declaring withoutOptionals) world turn name

theorem exists_checked (takes : ∀ text, host.prints text = true) {declaring : Option Text}
    {ready : World} {names : List Text} {withoutOptionals : Bool}
    (accepted : Arguments.read arguments = .ok read)
    (checks : read.task = .check names withoutOptionals)
    (prepared : Prepared host environment files read declaring ready) :
    ∃ loaded, Checked host declaring withoutOptionals (started read.task ready) names loaded
      (run host environment arguments files).1 (run host environment arguments files).2.output := by
  rcases exists_run_check host declaring names withoutOptionals (started read.task ready) with
    ⟨loaded, outcome, records, loadedFrom, stops, performed⟩
  rw [loadReported_of_prints takes] at loadedFrom stops
  rw [← checks] at performed
  rcases performLogged_eq performed with ⟨last, done⟩
  rw [prepared.run_eq accepted, done]
  refine ⟨loaded, loadedFrom, fun _ => stops.not_loadsAt, ?_, stops.checkEnds, ?_⟩
  · simp [World.print, started, prepared.output]
  · exact endingOf_eq_success_iff.trans (stops.eq_ok_iff loadedFrom)

theorem started_keeps {changed : Option Path} {ready : World}
    (keeps : World.Keeps changed files ready) (task : Task) (turn : Nat) :
    World.Keeps changed files (atTurn (started task ready) turn) :=
  (keeps.log _).recorded _

/-- A file that is no changed one is loaded in the same way, or it still cannot be opened. -/
theorem load_of_agreeExcept {changed : Option Path} {before after : FileTree} {name : Text}
    (agree : FileTree.AgreeExcept changed before after)
    (elsewhere : ∀ path node, before.resolve name = .ok (path, node) → changed ≠ some path)
    (host : Host) (declaring : Option Text) (withoutOptionals : Bool) :
    (load host declaring withoutOptionals after name).mapError Trouble.ending =
      (load host declaring withoutOptionals before name).mapError Trouble.ending := by
  rw [load, load]
  rcases unread : before.read name with problem | content
  · rcases unreadAfter : after.read name with other | content
    · have null := FileTree.eq_nullCharacter_iff_of_read unread
      rw [← FileTree.eq_nullCharacter_iff_of_read unreadAfter] at null
      refine congrArg Except.error ?_
      rw [ending_file, ending_file]
      simp only [null]
    · rw [(agree.read_eq_ok_iff elsewhere).1 unreadAfter] at unread
      contradiction
  · rw [(agree.read_eq_ok_iff elsewhere).2 unread]

/-! ## Every task -/

/-- Nothing was written to the standard output, and every file but the log file is as it was. -/
structure Untouched (files : FileTree) (read : Arguments) (world : World) : Prop where
  output : world.output = []
  node : ∀ path, logPath? files read ≠ some path → world.files.node? path = files.node? path

/-- What a command with an accepted command line leaves behind, by its ending and its last world. -/
structure Leaves (host : Host) (environment : Environment) (files : FileTree) (read : Arguments)
    (ending : Ending) (world : World) : Prop where
  /-- A task with one result that fails leaves nothing behind. -/
  single : (∀ names withoutOptionals, read.task ≠ .check names withoutOptionals) →
    ∀ code, ending.code? = some code → code = .declarationError ∨ code = .fileError →
      Untouched files read world
  /-- A check reports the files before the first one that cannot be loaded, and its ending tells
  why that one cannot be; it succeeds exactly when all files can be loaded. -/
  check : (∀ text, host.prints text = true) →
    ∀ names withoutOptionals, read.task = .check names withoutOptionals →
      ∀ declaring ready, Prepared host environment files read declaring ready →
        ∃ loaded, Checked host declaring withoutOptionals (started read.task ready) names loaded
          ending world.output
  /-- While a check goes on, no file but the log file changes what it is loaded as. -/
  unchanged : ∀ names withoutOptionals, read.task = .check names withoutOptionals →
    ∀ declaring ready, Prepared host environment files read declaring ready →
      ∀ name turn,
        (∀ path node, files.resolve name = .ok (path, node) → logPath? files read ≠ some path) →
        (load host declaring withoutOptionals (atTurn (started read.task ready) turn).files
          name).mapError Trouble.ending =
            (load host declaring withoutOptionals files name).mapError Trouble.ending

/--
A task with one result that fails leaves nothing behind. A check that is set up reports the files
before the first one that cannot be loaded, as long as the standard output takes what is written to
it. Its exit code tells whether that file cannot be opened or is malformed, and there is none if the
host interrupts its reading, or if its name holds a null character and so is that of no file.
-/
theorem run_leaves_no_partial_output (accepted : Arguments.read arguments = .ok read) :
    Leaves host environment files read (run host environment arguments files).1
      (run host environment arguments files).2 where
  single := by
    intro single code ended failed
    rcases exists_ready_of_failure accepted single ended failed with
      ⟨declaring, ready, records, prepared, done⟩
    rw [done]
    refine ⟨?_, (prepared.keeps.recorded records).agree.node⟩
    rw [World.output_recorded, prepared.output]
  check takes names withoutOptionals checks declaring ready prepared :=
    exists_checked takes accepted checks prepared
  unchanged := by
    intro names withoutOptionals _ declaring ready prepared name turn elsewhere
    have keeps := started_keeps prepared.keeps read.task turn
    exact load_of_agreeExcept keeps.agree elsewhere host declaring withoutOptionals

theorem run_leaves_no_partial_output_malformed :
    let files : FileTree :=
      ⟨[(["w"], .directory), (["w", "blank"], .file [10]),
        (["w", "bad"], .file (Text.Utf8.encode "lib\n api"))], ["w"], ["w"], []⟩
    ((run .usual {} ["format", "bad", "-o", "bad"] files).1 = .finished .declarationError ∧
      Untouched files ⟨none, none, none, .format "bad" (some (.text "bad")) false, some none⟩
        (run .usual {} ["format", "bad", "-o", "bad"] files).2) ∧
      (run .usual {} ["check", "blank", "bad"] files).1 = .finished .declarationError ∧
      (run .usual {} ["check", "blank", "bad"] files).2.output = "blank: 0 target bundle(s)\n" := by
  intro files
  constructor
  · refine ⟨by decide +kernel, ?_⟩
    exact (run_leaves_no_partial_output (by decide +kernel)).single (by simp) .declarationError
      (by decide +kernel) (.inl rfl)
  · let read : Arguments := ⟨none, none, none, .check ["blank", "bad"] false, some none⟩
    let ready : World := ⟨files, ⟨20, [.console]⟩, [], []⟩
    have accepted : Arguments.read ["check", "blank", "bad"] = .ok read := by decide +kernel
    have configured : (configurationOf .usual files read).result = .ok [] := rfl
    have prepared : Prepared .usual {} files read none ready :=
      .intro configured (by decide +kernel)
    have leaves : Leaves .usual {} files read (run .usual {} ["check", "blank", "bad"] files).1
      (run .usual {} ["check", "blank", "bad"] files).2 := run_leaves_no_partial_output accepted
    rcases leaves.check (fun _ => rfl) _ _ rfl _ _ prepared with ⟨loaded, checked⟩
    have same := leaves.unchanged _ _ rfl _ _ prepared
    have elsewhere (path : Path) : logPath? files read ≠ some path :=
      (Option.some_ne_none path).symm
    have blank : load .usual none false files "blank" = .ok ⟨[]⟩ := rfl
    have first : load .usual none false (atTurn (started read.task ready) 0).files "blank" =
        .ok ⟨[]⟩ := by
      have loads := same "blank" 0 fun path _ _ => elsewhere path
      rw [blank] at loads
      exact mapError_eq_ok_iff.1 loads
    have bad : load .usual none false files "bad" =
        .error (.failure ⟨.malformedKindLine "api", some 2⟩) := by decide +kernel
    have second := same "bad" 1 fun path _ _ => elsewhere path
    rw [bad] at second
    clear accepted configured prepared leaves same elsewhere blank bad
    have one : loaded.length = 1 := by
      refine checked.loadedFrom.length_eq checked.stopped rfl ?_ ?_
      · intro before other earlier found
        rcases Nat.lt_one_iff.1 earlier with rfl
        rcases Option.some.inj found with rfl
        exact ⟨_, first⟩
      · rintro ⟨declarations, loads⟩
        rw [loads] at second
        simp [Except.mapError] at second
    rcases List.length_eq_one_iff.1 one with ⟨declarations, rfl⟩
    have loads := checked.loadedFrom.load_eq 0 "blank" declarations rfl rfl
    rcases Except.ok.inj (first.symm.trans loads) with rfl
    refine ⟨?_, checked.output_eq.trans (by decide +kernel)⟩
    have ends := checked.ends
    rw [List.length_singleton] at ends
    generalize (run .usual {} ["check", "blank", "bad"] files).1 = ending at ends ⊢
    cases ends with
    | reported all => exact absurd all (by decide)
    | unopened next proper refused =>
        rcases Option.some.inj next with rfl
        rw [load, refused] at second
        simp only [Except.mapError, bind, Except.bind, ending_file, Except.error.injEq] at second
        split at second <;> simp [Trouble.ending] at second
    | malformed next opened refused => rfl
    | interrupted next opened cut =>
        rcases Option.some.inj next with rfl
        rw [cut] at second
        simp [Except.mapError, Trouble.ending] at second
    | improper next null =>
        rcases Option.some.inj next with rfl
        exact absurd null (by decide)

/-! ## A file that cannot be read within the limits -/

/-- A check has no exit code if the host interrupts the reading of its file. -/
theorem code?_check_interrupted {content : List UInt8} {interruption : Interruption}
    (cut : Declarations.ofSourceWithin .usual none (.byteStream content) =
      .error (.interrupted interruption)) :
    let files : FileTree :=
      ⟨[(["w"], .directory), (["w", "f"], .file content)], ["w"], ["w"], []⟩
    let read : Arguments := ⟨none, none, none, .check ["f"] false, some none⟩
    Arguments.read ["check", "f"] = .ok read ∧
      Prepared .usual {} files read none ⟨files, ⟨20, [.console]⟩, [], []⟩ ∧
      (run .usual {} ["check", "f"] files).1.code? = none := by
  intro files read
  let ready : World := ⟨files, ⟨20, [.console]⟩, [], []⟩
  have accepted : Arguments.read ["check", "f"] = .ok read := by decide +kernel
  have configured : (configurationOf .usual files read).result = .ok [] := rfl
  have prepared : Prepared .usual {} files read none ready := .intro configured rfl
  refine ⟨accepted, prepared, ?_⟩
  have opened : files.read "f" = .ok content := rfl
  have stopped : load .usual none false files "f" = .error (.interrupted interruption) := by
    simp only [load, opened, Option.mapM_none, cut, Except.mapError, bind, Except.bind,
      pure, Except.pure, Trouble.ofHalt]
  rcases exists_checked (fun _ => rfl) accepted rfl prepared with ⟨loaded, checked⟩
  have none : loaded.length = 0 := by
    refine checked.loadedFrom.length_eq checked.stopped rfl ?_ ?_
    · intro before other earlier
      contradiction
    · rintro ⟨declarations, loads⟩
      have same := stopped.symm.trans loads
      contradiction
  have ends := checked.ends
  rw [none] at ends
  generalize (run .usual {} ["check", "f"] files).1 = ending at ends ⊢
  cases ends with
  | reported all => contradiction
  | unopened next proper refused =>
      rcases Option.some.inj next with rfl
      have same := opened.symm.trans refused
      contradiction
  | malformed next unread refused =>
      rcases Option.some.inj next with rfl
      have same := Except.error.inj (stopped.symm.trans refused)
      contradiction
  | interrupted next unread cut => rfl
  | improper next null => rfl

/-- A check of a file with a bound of too many digits ends without an exit code, although it is set
up. -/
theorem code?_check_long_bound :
    let content := Text.Utf8.encode (Declarations.requiring (Range.upTo (Range.ones 4301)))
    let files : FileTree :=
      ⟨[(["w"], .directory), (["w", "f"], .file content)], ["w"], ["w"], []⟩
    let read : Arguments := ⟨none, none, none, .check ["f"] false, some none⟩
    Arguments.read ["check", "f"] = .ok read ∧
      Prepared .usual {} files read none ⟨files, ⟨20, [.console]⟩, [], []⟩ ∧
      (run .usual {} ["check", "f"] files).1.code? = none := by
  apply code?_check_interrupted
  rw [(Declarations.ReadAs.of_lines (Delivered.ofChunks_byteStream_encode _) rfl).limited]
  exact Declarations.ofTextWithin_requiring_long (by decide) rfl

end Command

end BundleDecl
