import BundleDecl.Proofs.Command.Output
import BundleDecl.Proofs.Entries

/-!
# How a command ends

A command ends with an exit code unless it meets one of a few problems that it does not handle: a
configuration whose failure is not foreseen, a level of logging whose name stands for something
else, a log file that cannot be opened, a name that holds a null character, an interruption by the
host, and a standard output that cannot encode the result.
-/

namespace BundleDecl

namespace Command

open CommandLine

/-! ## Names that are opened -/

/-- A task comes to opening a file: one that it reads, or the one for its result. -/
inductive Opens (host : Host) (declaring : Option Text) (world : World) : Task → Text → Prop where
  | check {names : List Text} {withoutOptionals : Bool} {turn : Nat} {name : Text}
      (next : names[turn]? = some name)
      (earlier : ∀ before other, before < turn → names[before]? = some other →
        LoadsAt (loadReported host declaring withoutOptionals) world before other) :
      Opens host declaring world (.check names withoutOptionals) name
  | format {name : Text} {output : Option Value} {withoutOptionals : Bool} :
      Opens host declaring world (.format name output withoutOptionals) name
  | exportJson {name : Text} {output : Option Value} :
      Opens host declaring world (.exportJson name output) name
  | output {task : Task} {text name : Text}
      (found : resultOf host world.files declaring task = .ok text)
      (named : nameIn (outputOf task) = some name) : Opens host declaring world task name

/-- Why a task is not performed: it has no result, or the result cannot be written. A check has a
result for each of its files. -/
inductive Fails (host : Host) (declaring : Option Text) (world : World) :
    Task → Trouble → Prop where
  | check {names : List Text} {withoutOptionals : Bool} {turn : Nat} {name : Text}
      {trouble : Trouble} (next : names[turn]? = some name)
      (earlier : ∀ before other, before < turn → names[before]? = some other →
        LoadsAt (loadReported host declaring withoutOptionals) world before other)
      (refused : loadReported host declaring withoutOptionals (atTurn world turn).files name =
        .error trouble) :
      Fails host declaring world (.check names withoutOptionals) trouble
  | result {task : Task} {trouble : Trouble}
      (refused : resultOf host world.files declaring task = .error trouble) :
      Fails host declaring world task trouble
  | unprintable {task : Task} {text : Text}
      (single : ∀ names withoutOptionals, task ≠ .check names withoutOptionals)
      (found : resultOf host world.files declaring task = .ok text)
      (unnamed : nameIn (outputOf task) = none) (refused : host.prints text = false) :
      Fails host declaring world task .unprintable
  | output {task : Task} {text name : Text} {problem : FileProblem}
      (found : resultOf host world.files declaring task = .ok text)
      (named : nameIn (outputOf task) = some name)
      (refused : (world.recorded (recordsOf task)).files.writable name = .error problem) :
      Fails host declaring world task (.file problem)

variable {host : Host} {declaring : Option Text} {world : World} {task : Task} {trouble : Trouble}

theorem write_eq_error_iff {files : FileTree} {name : Text} {content : List UInt8}
    {problem : FileProblem} :
    files.write name content = .error problem ↔ files.writable name = .error problem := by
  rw [FileTree.write, bind_eq_error_iff]
  constructor
  · rintro (refused | ⟨destination, -, written⟩)
    · exact refused
    · exact absurd written pure_ne_error
  · exact Or.inl

theorem run_perform_fst_eq_error_iff_of_single (single : ∀ names withoutOptionals,
    task ≠ .check names withoutOptionals) :
    ((perform host declaring task).run world).1 = .error trouble ↔
      Fails host declaring world task trouble := by
  rcases exists_run_perform host single declaring world with ⟨records, performed⟩
  rw [performed]
  constructor
  · intro failed
    split at failed
    · rename_i other refused
      rcases Except.error.inj failed with rfl
      exact .result refused
    · rename_i text found
      rw [run_emit] at failed
      split at failed
      · rename_i unnamed
        split at failed
        · contradiction
        · rename_i refused
          rcases Except.error.inj failed with rfl
          exact .unprintable single found unnamed (Bool.not_eq_true _ ▸ refused)
      · rename_i name named
        split at failed
        · rename_i problem refused
          rcases Except.error.inj failed with rfl
          exact .output found named (write_eq_error_iff.1 refused)
        · contradiction
  · intro fails
    cases fails with
    | check next earlier refused => exact absurd rfl (single _ _)
    | result refused => rw [refused]
    | unprintable _ found unnamed refused =>
        rw [found]
        dsimp only
        rw [run_emit, unnamed]
        simp [refused]
    | output found named refused =>
        rw [found]
        dsimp only
        rw [run_emit, named]
        dsimp only
        rw [write_eq_error_iff.2 refused]

theorem run_check_fst_eq_error_iff {names : List Text} {withoutOptionals : Bool} :
    ((perform host declaring (.check names withoutOptionals)).run world).1 = .error trouble ↔
      Fails host declaring world (.check names withoutOptionals) trouble := by
  rcases exists_run_check host declaring names withoutOptionals world with
    ⟨loaded, outcome, records, loadedFrom, stops, performed⟩
  rw [performed]
  constructor
  · rintro rfl
    cases stops with
    | failed next refused =>
        refine .check next ?_ refused
        intro before other earlier found
        exact loadedFrom.loadsAt earlier found
  · intro fails
    cases fails with
    | @check _ _ turn name _ next earlier refused =>
        -- Both troubles are that of the first file that cannot be loaded.
        have unloaded :
            ¬LoadsAt (loadReported host declaring withoutOptionals) world turn name := by
          rintro ⟨declarations, loads⟩
          exact absurd (refused.symm.trans loads) nofun
        rcases loadedFrom.length_eq (fun _ => stops.not_loadsAt) next earlier unloaded with rfl
        cases stops with
        | done all => simp [all] at next
        | failed other refusedToo =>
            rcases Option.some.inj (other.symm.trans next) with rfl
            exact congrArg Except.error (Except.error.inj (refusedToo.symm.trans refused))
    | result refused => contradiction
    | unprintable single found unnamed refused => exact absurd rfl (single _ _)
    | output found named refused => contradiction

/-- The trouble of a task is the one that its steps come to first. -/
theorem run_perform_fst_eq_error_iff :
    ((perform host declaring task).run world).1 = .error trouble ↔
      Fails host declaring world task trouble := by
  cases task with
  | check names withoutOptionals => exact run_check_fst_eq_error_iff
  | _ => exact run_perform_fst_eq_error_iff_of_single (by simp)

section

variable {files : FileTree} {withoutOptionals : Bool} {name : Text} {problem : FileProblem}

theorem load_eq_error_nullCharacter_iff :
    load host declaring withoutOptionals files name = .error (.file .nullCharacter) ↔
      '\x00' ∈ name := by
  constructor
  · intro refused
    rcases exists_of_load_eq_error refused with
      ⟨problem, unread, same⟩ | ⟨_, failure | interruption, -, same⟩
    · rcases Trouble.file.inj same with rfl
      exact (FileTree.eq_nullCharacter_iff_of_read unread).1 rfl
    · contradiction
    · contradiction
  · intro null
    rw [load, FileTree.read, FileTree.resolve_eq_error_of_mem null]
    rfl

theorem loadReported_eq_error_file_iff :
    loadReported host declaring withoutOptionals files name = .error (.file problem) ↔
      load host declaring withoutOptionals files name = .error (.file problem) := by
  rw [loadReported, bind_eq_error_iff]
  constructor
  · rintro (refused | ⟨declarations, -, refused⟩)
    · exact refused
    · split at refused
      · exact absurd refused pure_ne_error
      · have same := Except.error.inj refused
        contradiction
  · exact Or.inl

theorem mapError_ofHalt_ne_file {Result : Type} {outcome : Except (Halt Failure) Result} :
    outcome.mapError Trouble.ofHalt ≠ .error (.file problem) := by
  rw [Ne, mapError_eq_error_iff]
  rintro ⟨failure | interruption, -, same⟩
  · contradiction
  · contradiction

/-- What is done with loaded declarations meets no problem with a file. -/
theorem load_bind_written_eq_error_file_iff {form : Declarations → Text} :
    (load host declaring withoutOptionals files name >>= fun declarations =>
        (written host form declarations).mapError Trouble.ofHalt) = .error (.file problem) ↔
      load host declaring withoutOptionals files name = .error (.file problem) := by
  simp only [bind_eq_error_iff, mapError_ofHalt_ne_file, and_false, exists_false, or_false]

end

theorem fails_nullCharacter_iff :
    Fails host declaring world task (.file .nullCharacter) ↔
      ∃ name, Opens host declaring world task name ∧ '\x00' ∈ name := by
  constructor
  · intro fails
    cases fails with
    | check next earlier refused =>
        rw [loadReported_eq_error_file_iff, load_eq_error_nullCharacter_iff] at refused
        exact ⟨_, .check next earlier, refused⟩
    | output found named refused =>
        exact ⟨_, .output found named, (FileTree.eq_nullCharacter_iff_of_writable refused).1 rfl⟩
    | result refused =>
        cases task with
        | check names withoutOptionals => contradiction
        | format name output withoutOptionals =>
            rw [resultOf, load_bind_written_eq_error_file_iff,
              load_eq_error_nullCharacter_iff] at refused
            exact ⟨name, .format, refused⟩
        | exportJson name output =>
            rw [resultOf, load_bind_written_eq_error_file_iff,
              load_eq_error_nullCharacter_iff] at refused
            exact ⟨name, .exportJson, refused⟩
        | identifier texts =>
            rcases mapError_eq_error_iff.1 refused with ⟨failure, -, same⟩
            contradiction
        | compare left right qualifiers => exact absurd refused mapError_ofHalt_ne_file
  · rintro ⟨name, opens, null⟩
    cases opens with
    | check next earlier =>
        refine .check next earlier ?_
        rwa [loadReported_eq_error_file_iff, load_eq_error_nullCharacter_iff]
    | format =>
        refine .result ?_
        rwa [resultOf, load_bind_written_eq_error_file_iff, load_eq_error_nullCharacter_iff]
    | exportJson =>
        refine .result ?_
        rwa [resultOf, load_bind_written_eq_error_file_iff, load_eq_error_nullCharacter_iff]
    | output found named =>
        refine .output found named ?_
        rw [FileTree.writable, FileTree.resolve_eq_error_of_mem null]
        rfl

/-! ## Problems that are not handled -/

/-- The name of the level stands for something that is no level. -/
def Misnamed (level environment : Option Text) (flaw : Log.LevelProblem) : Prop :=
  (Text.upper (Log.Setup.levelName level environment), flaw) ∈ Log.LevelProblem.words

theorem configure_eq_error_iff {level environment file : Option Text} {setup : Log.Setup}
    {flaw : Log.LevelProblem} :
    setup.configure level environment file = .error flaw ↔ Misnamed level environment flaw := by
  have named : Log.levelNamed (Log.Setup.levelName level environment) = .error flaw ↔
      Misnamed level environment flaw := by
    rw [Misnamed, ← Entries.get?_eq_some_iff (by decide), Log.levelNamed]
    cases Entries.get? (Text.upper (Log.Setup.levelName level environment))
        Log.LevelProblem.words with
    | none => simp
    | some found => simp
  rw [Log.Setup.configure, bind_eq_error_iff, ← named]
  constructor
  · rintro (refused | ⟨threshold, -, returned⟩)
    · exact refused
    · exact absurd returned pure_ne_error
  · exact Or.inl

theorem setUpLogging_eq_error_iff {level environment file : Option Text} {world : World}
    {problem : Escape} :
    setUpLogging level environment file world = .error problem ↔
      (∃ fault, openLog world.files
          ((file.filter (!·.isEmpty)).map world.files.absoluteName) = .error fault ∧
        .file fault = problem) ∨
      ∃ opened, openLog world.files
          ((file.filter (!·.isEmpty)).map world.files.absoluteName) = .ok opened ∧
        ∃ flaw, Misnamed level environment flaw ∧ .logLevel flaw = problem := by
  rw [setUpLogging_eq]
  simp only [bind_eq_error_iff, mapError_eq_error_iff, mapError_eq_ok_iff, configure_eq_error_iff,
    pure_ne_error, and_false, exists_false, or_false]

/-- What a command does not handle. -/
inductive Unhandled (host : Host) (environment : Environment) (files : FileTree)
    (read : Arguments) : Escape → Prop where
  /-- The configuration cannot be used, and that is not foreseen. -/
  | config {problem : ConfigProblem}
      (unusable : (configurationOf host files read).result = .error problem)
      (unforeseen : isHandled problem = false) :
      Unhandled host environment files read (.config problem)
  /-- The configuration cannot be used, and the level for reporting that is none. -/
  | report {problem : ConfigProblem} {flaw : Log.LevelProblem}
      (unusable : (configurationOf host files read).result = .error problem)
      (foreseen : isHandled problem = true)
      (misnamed : Misnamed (read.logLevel.bind Value.text?) environment.logLevel flaw) :
      Unhandled host environment files read (.logLevel flaw)
  | logFile {config : Config} {problem : FileProblem}
      (configured : (configurationOf host files read).result = .ok config)
      (unopened : openLog files ((nameIn read.logFile).map files.absoluteName) = .error problem) :
      Unhandled host environment files read (.file problem)
  /-- The level that is set is none. -/
  | logLevel {config : Config} {opened : FileTree} {flaw : Log.LevelProblem}
      (configured : (configurationOf host files read).result = .ok config)
      (opens : openLog files ((nameIn read.logFile).map files.absoluteName) = .ok opened)
      (misnamed : Misnamed (some (settingsOf environment read config).logLevel)
        environment.logLevel flaw) :
      Unhandled host environment files read (.logLevel flaw)
  /-- The task comes to a name that is that of no file. -/
  | name {declaring : Option Text} {ready : World} {name : Text}
      (prepared : Prepared host environment files read declaring ready)
      (opens : Opens host declaring (started read.task ready) read.task name)
      (null : '\x00' ∈ name) : Unhandled host environment files read (.file .nullCharacter)
  /-- The host interrupts the task. -/
  | interrupted {declaring : Option Text} {ready : World} {interruption : Interruption}
      (prepared : Prepared host environment files read declaring ready)
      (cut : Fails host declaring (started read.task ready) read.task
        (.interrupted interruption)) :
      Unhandled host environment files read (.interrupted interruption)
  /-- The standard output cannot encode what the task comes to write to it. -/
  | unprintable {declaring : Option Text} {ready : World}
      (prepared : Prepared host environment files read declaring ready)
      (refused : Fails host declaring (started read.task ready) read.task .unprintable) :
      Unhandled host environment files read .unprintable

variable {environment : Environment} {arguments : List Text} {files : FileTree} {read : Arguments}

theorem files_configuredWorld (host : Host) (files : FileTree) (read : Arguments) :
    (configuredWorld host files read).files = files := by
  rcases exists_configuredWorld_eq host files read with ⟨console, same⟩
  rw [same]

theorem setUpLogging_configuredWorld_eq_error_iff {level : Option Text} {value : Option Value}
    {problem : Escape} :
    setUpLogging level environment.logLevel (value.bind Value.text?)
        (configuredWorld host files read) = .error problem ↔
      (∃ fault, openLog files ((nameIn value).map files.absoluteName) = .error fault ∧
        .file fault = problem) ∨
      ∃ opened, openLog files ((nameIn value).map files.absoluteName) = .ok opened ∧
        ∃ flaw, Misnamed level environment.logLevel flaw ∧ .logLevel flaw = problem := by
  rw [setUpLogging_eq_error_iff, files_configuredWorld]
  rfl

theorem setUpLogging_none_eq_error_iff {level : Option Text} {problem : Escape} :
    setUpLogging level environment.logLevel none (configuredWorld host files read) =
        .error problem ↔
      ∃ flaw, Misnamed level environment.logLevel flaw ∧ .logLevel flaw = problem := by
  rw [setUpLogging_eq_error_iff]
  simp [openLog]

theorem run_of_unlogged {config : Config} {problem : Escape}
    (accepted : Arguments.read arguments = .ok read)
    (configured : (configurationOf host files read).result = .ok config)
    (logs : setUpLogging (some (settingsOf environment read config).logLevel) environment.logLevel
      (read.logFile.bind Value.text?) (configuredWorld host files read) = .error problem) :
    (run host environment arguments files).1 = .escaped problem := by
  rw [run_of_read accepted, runArguments_eq, configured]
  dsimp only
  rw [logs]

theorem Prepared.fst_run_eq {ready : World}
    (prepared : Prepared host environment files read declaring ready)
    (accepted : Arguments.read arguments = .ok read) :
    (run host environment arguments files).1 =
      endingOf ((perform host declaring read.task).run (started read.task ready)).1 := by
  rcases performed : (perform host declaring read.task).run (started read.task ready) with
    ⟨outcome, done⟩
  rcases performLogged_eq performed with ⟨records, ended⟩
  rw [prepared.run_eq accepted, ended]

/-- The troubles that escape: a name that is none, and those that come from the host. -/
theorem ending_eq_escaped_iff {problem : Escape} :
    trouble.ending = .escaped problem ↔
      (trouble = .file .nullCharacter ∧ problem = .file .nullCharacter) ∨
      (∃ interruption, trouble = .interrupted interruption ∧
        problem = .interrupted interruption) ∨
      (trouble = .unprintable ∧ problem = .unprintable) := by
  cases trouble with
  | file found =>
      rw [ending_file]
      by_cases null : found = .nullCharacter <;> simp [null, eq_comm]
  | failure failure => simp [Trouble.ending]
  | interrupted interruption => simp [Trouble.ending, eq_comm]
  | unprintable => simp [Trouble.ending, eq_comm]

/-- A task that is started escapes exactly with a trouble that is not handled. -/
theorem Prepared.run_eq_escaped_iff {ready : World}
    (prepared : Prepared host environment files read declaring ready)
    (accepted : Arguments.read arguments = .ok read) {problem : Escape} :
    (run host environment arguments files).1 = .escaped problem ↔
      ∃ trouble, Fails host declaring (started read.task ready) read.task trouble ∧
        trouble.ending = .escaped problem := by
  simp only [prepared.fst_run_eq accepted, ← run_perform_fst_eq_error_iff]
  rcases ((perform host declaring read.task).run (started read.task ready)).1 with trouble | _
  · simp [endingOf]
  · simp [endingOf]

theorem unhandled_of_unusable (accepted : Arguments.read arguments = .ok read)
    {fault : ConfigProblem} (unusable : (configurationOf host files read).result = .error fault)
    {problem : Escape} (escaped : (run host environment arguments files).1 = .escaped problem) :
    Unhandled host environment files read problem := by
  rw [run_of_read accepted, runArguments_eq, unusable] at escaped
  dsimp only at escaped
  split at escaped
  · rename_i foreseen
    split at escaped
    · rename_i found refused
      rcases Ending.escaped.inj escaped with rfl
      rcases setUpLogging_none_eq_error_iff.1 refused with ⟨flaw, misnamed, rfl⟩
      exact .report unusable foreseen misnamed
    · contradiction
  · rename_i unforeseen
    rcases Ending.escaped.inj escaped with rfl
    exact .config unusable (by simpa using unforeseen)

theorem unhandled_of_configured (accepted : Arguments.read arguments = .ok read) {config : Config}
    (configured : (configurationOf host files read).result = .ok config) {problem : Escape}
    (escaped : (run host environment arguments files).1 = .escaped problem) :
    Unhandled host environment files read problem := by
  cases logs : setUpLogging (some (settingsOf environment read config).logLevel)
      environment.logLevel (read.logFile.bind Value.text?) (configuredWorld host files read) with
  | error found =>
      rw [run_of_unlogged accepted configured logs] at escaped
      rcases Ending.escaped.inj escaped with rfl
      rcases setUpLogging_configuredWorld_eq_error_iff.1 logs with
        ⟨fault, unopened, rfl⟩ | ⟨opened, opens, flaw, misnamed, rfl⟩
      · exact .logFile configured unopened
      · exact .logLevel configured opens misnamed
  | ok ready =>
      have prepared := Prepared.intro configured logs
      rcases (prepared.run_eq_escaped_iff accepted).1 escaped with ⟨trouble, fails, escapes⟩
      rcases ending_eq_escaped_iff.1 escapes with
        ⟨rfl, rfl⟩ | ⟨interruption, rfl, rfl⟩ | ⟨rfl, rfl⟩
      · rcases fails_nullCharacter_iff.1 fails with ⟨name, opens, null⟩
        exact .name prepared opens null
      · exact .interrupted prepared fails
      · exact .unprintable prepared fails

theorem Unhandled.run_eq {problem : Escape}
    (unhandled : Unhandled host environment files read problem)
    (accepted : Arguments.read arguments = .ok read) :
    (run host environment arguments files).1 = .escaped problem := by
  cases unhandled with
  | config unusable unforeseen =>
      rw [run_of_read accepted, runArguments_eq, unusable]
      simp [unforeseen]
  | report unusable foreseen misnamed =>
      rw [run_of_read accepted, runArguments_eq, unusable]
      dsimp only
      rw [if_pos foreseen, setUpLogging_none_eq_error_iff.2 ⟨_, misnamed, rfl⟩]
  | logFile configured unopened =>
      apply run_of_unlogged accepted configured
      exact setUpLogging_configuredWorld_eq_error_iff.2 (.inl ⟨_, unopened, rfl⟩)
  | logLevel configured opens misnamed =>
      apply run_of_unlogged accepted configured
      exact setUpLogging_configuredWorld_eq_error_iff.2 (.inr ⟨_, opens, _, misnamed, rfl⟩)
  | name prepared opens null =>
      apply (prepared.run_eq_escaped_iff accepted).2
      exact ⟨_, fails_nullCharacter_iff.2 ⟨_, opens, null⟩, rfl⟩
  | interrupted prepared cut => exact (prepared.run_eq_escaped_iff accepted).2 ⟨_, cut, rfl⟩
  | unprintable prepared refused =>
      exact (prepared.run_eq_escaped_iff accepted).2 ⟨_, refused, rfl⟩

/-- A problem escapes exactly when it is one of those that are not handled. -/
theorem run_eq_escaped_iff (accepted : Arguments.read arguments = .ok read) {problem : Escape} :
    (run host environment arguments files).1 = .escaped problem ↔
      Unhandled host environment files read problem := by
  refine ⟨?_, fun unhandled => unhandled.run_eq accepted⟩
  cases configured : (configurationOf host files read).result with
  | error fault => exact unhandled_of_unusable accepted configured
  | ok config => exact unhandled_of_configured accepted configured

/-! ## Exit codes -/

theorem code?_eq_none_iff {ending : Ending} :
    ending.code? = none ↔ ∃ problem, ending = .escaped problem := by
  cases ending <;> simp [Ending.code?]

/-- The exit code for a command line that is not accepted. -/
def codeOf : Stop → ExitCode
  | .help => .success
  | .usage => .usageError

theorem code?_of_refused {stop : Stop} (refused : Arguments.read arguments = .error stop) :
    (run host environment arguments files).1.code? = some (codeOf stop) := by
  rw [run, refused]
  cases stop <;> rfl

/-- A configuration that cannot be used leads to no exit code but the one for misuse. -/
theorem eq_usageError_of_unusable (accepted : Arguments.read arguments = .ok read)
    {problem : ConfigProblem} (unusable : (configurationOf host files read).result = .error problem)
    {code : ExitCode} (ended : (run host environment arguments files).1.code? = some code) :
    code = .usageError := by
  rw [run_of_read accepted, runArguments_eq, unusable] at ended
  dsimp only at ended
  split at ended
  · split at ended
    · contradiction
    · exact (Option.some.inj ended).symm
  · contradiction

/-- A task that is started ends with the exit code for its trouble, or for success without any. -/
theorem Prepared.code?_eq_some_iff {ready : World}
    (prepared : Prepared host environment files read declaring ready)
    (accepted : Arguments.read arguments = .ok read) {code : ExitCode} :
    (run host environment arguments files).1.code? = some code ↔
      (code = .success ∧
        ∀ trouble, ¬Fails host declaring (started read.task ready) read.task trouble) ∨
      ∃ trouble, Fails host declaring (started read.task ready) read.task trouble ∧
        trouble.ending.code? = some code := by
  simp only [prepared.fst_run_eq accepted, ← run_perform_fst_eq_error_iff]
  rcases ((perform host declaring read.task).run (started read.task ready)).1 with trouble | _
  · simp [endingOf]
  · simp [endingOf, Ending.code?, eq_comm]

/-- How a command ends on its command line: with which exit code, or when with none. -/
structure Ends (host : Host) (environment : Environment) (arguments : List Text)
    (files : FileTree) (ending : Ending) : Prop where
  /-- A command line that is not accepted leads to the exit code for help or for misuse. -/
  refused : ∀ stop, Arguments.read arguments = .error stop → ending.code? = some (codeOf stop)
  /-- There is no exit code exactly if a problem comes up that is not handled. -/
  escaped_iff : ∀ read, Arguments.read arguments = .ok read →
    (ending.code? = none ↔ ∃ problem, Unhandled host environment files read problem)
  /-- The only exit code for a configuration that cannot be used is the one for misuse. -/
  unusable : ∀ read, Arguments.read arguments = .ok read →
    ∀ problem, (configurationOf host files read).result = .error problem →
      ∀ code, ending.code? = some code → code = .usageError
  /-- A task that is started ends with the exit code for its trouble, or for success. -/
  task : ∀ read, Arguments.read arguments = .ok read →
    ∀ declaring ready, Prepared host environment files read declaring ready →
      ∀ code, ending.code? = some code ↔
        (code = .success ∧
          ∀ trouble, ¬Fails host declaring (started read.task ready) read.task trouble) ∨
        ∃ trouble, Fails host declaring (started read.task ready) read.task trouble ∧
          trouble.ending.code? = some code

/--
On every host, for every command line, environment and file tree, a command ends with an exit code
unless a problem comes up that is not handled, and the exit code tells what went wrong.
-/
theorem run_ends (host : Host) (environment : Environment) (arguments : List Text)
    (files : FileTree) :
    Ends host environment arguments files (run host environment arguments files).1 where
  refused stop refused := code?_of_refused refused
  escaped_iff read accepted := by simp only [code?_eq_none_iff, run_eq_escaped_iff accepted]
  unusable read accepted problem unusable code := eq_usageError_of_unusable accepted unusable
  task read accepted declaring ready prepared code := prepared.code?_eq_some_iff accepted

theorem run_ends_identifier :
    let files : FileTree := ⟨[], [], [], []⟩
    let locked : FileTree :=
      ⟨[(["w"], .directory), (["w", "nestdeps.yml"], .file [])], ["w"], ["w"],
        [(["w", "nestdeps.yml"], .read)]⟩
    (run .usual {} [] files).1.code? = some .usageError ∧
      (run .usual {} ["-c", "gone", "identifier", "a"] files).1.code? = some .usageError ∧
      (run .usual {} ["identifier", "a"] locked).1.code? = some .usageError ∧
      (run .usual {} ["identifier", "-"] files).1.code? = some .declarationError ∧
      (run ⟨fun _ => true, fun _ => false⟩ {} ["identifier", "a"] files).1.code? = none := by
  intro files locked
  let named : Arguments := ⟨none, none, some (.text "gone"), .identifier ["a"], none⟩
  let valid : Arguments := ⟨none, none, none, .identifier ["a"], none⟩
  let invalid : Arguments := ⟨none, none, none, .identifier ["-"], none⟩
  have accepted : Arguments.read ["identifier", "a"] = .ok valid := by decide +kernel
  refine ⟨(run_ends .usual {} [] files).refused .usage (by decide +kernel), ?_, ?_, ?_, ?_⟩
  · have ends := run_ends .usual {} ["-c", "gone", "identifier", "a"] files
    have unusable : (configurationOf .usual files named).result =
        .error (.file (.notFound "gone")) := rfl
    have coded : (run .usual {} ["-c", "gone", "identifier", "a"] files).1.code?.isSome = true := by
      decide +kernel
    rcases Option.isSome_iff_exists.1 coded with ⟨code, ended⟩
    rw [ended, ends.unusable named (by decide +kernel) _ unusable code ended]
  · have ends := run_ends .usual {} ["identifier", "a"] locked
    have unusable : (configurationOf .usual locked valid).result =
        .error (.file (.denied "/w/nestdeps.yml")) := rfl
    have coded : (run .usual {} ["identifier", "a"] locked).1.code?.isSome = true := by
      decide +kernel
    rcases Option.isSome_iff_exists.1 coded with ⟨code, ended⟩
    rw [ended, ends.unusable valid accepted _ unusable code ended]
  · have ends := run_ends .usual {} ["identifier", "-"] files
    have configured : (configurationOf .usual files invalid).result = .ok [] := rfl
    have prepared : Prepared .usual {} files invalid none ⟨files, ⟨20, [.console]⟩, [], []⟩ :=
      .intro configured (by decide +kernel)
    have refused : resultOf .usual files none invalid.task =
        .error (.failure ⟨.identifierFormat "-", none⟩) := by decide +kernel
    exact (ends.task invalid (by decide +kernel) _ _ prepared _).2 (.inr ⟨_, .result refused, rfl⟩)
  · let mute : Host := ⟨fun _ => true, fun _ => false⟩
    have ends := run_ends mute {} ["identifier", "a"] files
    have configured : (configurationOf mute files valid).result = .ok [] := rfl
    have prepared : Prepared mute {} files valid none ⟨files, ⟨20, [.console]⟩, [], []⟩ :=
      .intro configured (by decide +kernel)
    have found : (resultOf mute files none valid.task).isOk = true := by decide +kernel
    rcases result : resultOf mute files none valid.task with trouble | text
    · rw [result] at found
      contradiction
    · exact (ends.escaped_iff valid accepted).2
        ⟨_, .unprintable prepared (.unprintable nofun result rfl rfl)⟩

/-- A default configuration file that is malformed leaves a command without an exit code. -/
theorem code?_malformed_default :
    (run .usual {} ["identifier", "a"]
      ⟨[(["w"], .directory), (["w", "nestdeps.yml"], .file (Text.Utf8.encode "k: [x\n"))], ["w"],
        ["w"], []⟩).1.code? = none := by
  decide +kernel

end Command

end BundleDecl
