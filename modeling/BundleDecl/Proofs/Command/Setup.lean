import BundleDecl.Proofs.Command.Step

/-!
# Setting up a task

A task starts when its command line and its configuration are accepted and logging is set up. Up to
then nothing was written to the standard output, and at most the log file was created.
-/

namespace BundleDecl

namespace Command

open CommandLine

/-- The configuration for a command line. -/
def configurationOf (host : Host) (files : FileTree) (read : Arguments) : Configuration :=
  Configuration.load host files (read.config.bind Value.text?)

/-- The settings for a command line and its configuration. -/
def settingsOf (environment : Environment) (read : Arguments) (config : Config) : Settings :=
  Settings.resolve environment config (read.logLevel.bind Value.text?)
    (read.declaring.map fun given => given.bind Value.text?)

/-- The world once a configuration was looked for. -/
def configuredWorld (host : Host) (files : FileTree) (read : Arguments) : World :=
  (World.ofFiles files).recorded ((configurationOf host files read).passedOver.map passedOver)

/-- The configuration is accepted and logging is set up: a task starts in a world that is ready for
it, with the text for the declaring bundle. -/
inductive Prepared (host : Host) (environment : Environment) (files : FileTree)
    (read : Arguments) : Option Text → World → Prop where
  | intro {config : Config} {ready : World}
      (configured : (configurationOf host files read).result = .ok config)
      (logs : setUpLogging (some (settingsOf environment read config).logLevel)
        environment.logLevel (read.logFile.bind Value.text?) (configuredWorld host files read) =
          .ok ready) :
      Prepared host environment files read
        ((settingsOf environment read config).declaring.getD none) ready

variable {host : Host} {environment : Environment} {arguments : List Text} {files : FileTree}
  {read : Arguments}

theorem run_of_read (accepted : Arguments.read arguments = .ok read) :
    run host environment arguments files =
      runArguments host environment read (World.ofFiles files) := by
  rw [run, accepted]

theorem configuredWorld_eq (host : Host) (files : FileTree) (read : Arguments) :
    (configurationOf host files read).passedOver.foldl
      (fun world path => world.log (passedOver path)) (World.ofFiles files) =
      configuredWorld host files read := by
  rw [configuredWorld, World.recorded, List.foldl_map]

theorem runArguments_eq (host : Host) (environment : Environment) (read : Arguments)
    (files : FileTree) :
    runArguments host environment read (World.ofFiles files) =
      match (configurationOf host files read).result with
      | .error problem =>
        if isHandled problem then
          match setUpLogging (read.logLevel.bind Value.text?) environment.logLevel none
            (configuredWorld host files read) with
          | .error problem => (.escaped problem, configuredWorld host files read)
          | .ok ready =>
            (.finished .usageError,
              ready.log (.plain .error ("Config error: " ++ problem.message ++ ", aborting")))
        else
          (.escaped (.config problem), configuredWorld host files read)
      | .ok config =>
        match setUpLogging (some (settingsOf environment read config).logLevel) environment.logLevel
          (read.logFile.bind Value.text?) (configuredWorld host files read) with
        | .error problem => (.escaped problem, configuredWorld host files read)
        | .ok ready =>
          performLogged host ((settingsOf environment read config).declaring.getD none) read.task
            ready := by
  rw [← configuredWorld_eq]
  rfl

theorem Prepared.run_eq {declaring : Option Text} {ready : World}
    (prepared : Prepared host environment files read declaring ready)
    (accepted : Arguments.read arguments = .ok read) :
    run host environment arguments files = performLogged host declaring read.task ready := by
  cases prepared with
  | intro configured logs =>
      rw [run_of_read accepted, runArguments_eq, configured]
      dsimp only
      rw [logs]

/-- A task was started if it failed. -/
theorem exists_prepared {code : ExitCode} (accepted : Arguments.read arguments = .ok read)
    (ended : (run host environment arguments files).1.code? = some code)
    (noMisuse : code ≠ .usageError) :
    ∃ declaring ready, Prepared host environment files read declaring ready := by
  rw [run_of_read accepted, runArguments_eq] at ended
  split at ended
  · split at ended
    · split at ended
      · simp [Ending.code?] at ended
      · exact absurd (Option.some.inj ended).symm noMisuse
    · simp [Ending.code?] at ended
  · rename_i config configured
    split at ended
    · simp [Ending.code?] at ended
    · rename_i ready logs
      exact ⟨_, ready, .intro configured logs⟩

/-! ## The log file -/

/-- Where the log file lies, if there is one. -/
def logPath? (files : FileTree) (read : Arguments) : Option Path :=
  (nameIn read.logFile).bind fun name =>
    (files.writable (files.absoluteName name)).toOption.map Prod.fst

/-- Before logging is set up, records are written to the console only. -/
theorem log_initial (files : FileTree) (output console : Text) (record : Log.Record) :
    ∃ after, World.log record ⟨files, .initial, output, console⟩ =
      ⟨files, .initial, output, after⟩ := by
  rw [World.log, Log.Setup.emit]
  split
  · exact ⟨console, rfl⟩
  · exact ⟨_, rfl⟩

theorem recorded_initial (files : FileTree) (output console : Text) (records : List Log.Record) :
    ∃ after, World.recorded records ⟨files, .initial, output, console⟩ =
      ⟨files, .initial, output, after⟩ := by
  induction records generalizing console with
  | nil => exact ⟨console, rfl⟩
  | cons record records ih =>
      rcases log_initial files output console record with ⟨logged, log⟩
      rcases ih logged with ⟨after, recorded⟩
      refine ⟨after, ?_⟩
      rw [World.recorded, List.foldl_cons, log]
      exact recorded

theorem exists_configuredWorld_eq (host : Host) (files : FileTree) (read : Arguments) :
    ∃ console, configuredWorld host files read = ⟨files, .initial, [], console⟩ :=
  recorded_initial files [] [] _

/-- The tree with a log file, which is created if need be. -/
def openLog (files : FileTree) : Option Text → Except FileProblem FileTree
  | none => .ok files
  | some name => files.append name []

theorem setUpLogging_eq (level environment file : Option Text) (world : World) :
    setUpLogging level environment file world = (do
      let path := (file.filter (!·.isEmpty)).map world.files.absoluteName
      let files ← (openLog world.files path).mapError Escape.file
      let logging ← (world.logging.configure level environment path).mapError Escape.logLevel
      return { world with files := files, logging := logging }) := by
  rw [setUpLogging]
  cases (file.filter (!·.isEmpty)).map world.files.absoluteName <;> rfl

theorem setUpLogging_eq_ok_iff {level environment file : Option Text} {world ready : World} :
    setUpLogging level environment file world = .ok ready ↔
      ∃ files setup,
        openLog world.files ((file.filter (!·.isEmpty)).map world.files.absoluteName) =
          .ok files ∧
        world.logging.configure level environment
          ((file.filter (!·.isEmpty)).map world.files.absoluteName) = .ok setup ∧
        { world with files := files, logging := setup } = ready := by
  rw [setUpLogging_eq]
  simp only [bind_eq_ok_iff, pure_eq_ok_iff, mapError_eq_ok_iff, exists_and_left]

theorem outlets_configure {level environment file : Option Text} {setup : Log.Setup}
    (configured : Log.Setup.initial.configure level environment file = .ok setup) {name : Text}
    (member : .file name ∈ setup.outlets) : file = some name := by
  rw [Log.Setup.configure] at configured
  rcases bind_eq_ok_iff.1 configured with ⟨threshold, -, made⟩
  rw [← pure_eq_ok_iff.1 made] at member
  cases file with
  | none => simp [Log.Setup.initial] at member
  | some given => simp_all [Log.Setup.initial, Option.filter]

theorem Prepared.output {declaring : Option Text} {ready : World}
    (prepared : Prepared host environment files read declaring ready) : ready.output = [] := by
  cases prepared with
  | intro configured logs =>
      rcases exists_configuredWorld_eq host files read with ⟨console, same⟩
      rcases setUpLogging_eq_ok_iff.1 logs with ⟨opened, setup, -, -, rfl⟩
      rw [same]

theorem Prepared.keeps {declaring : Option Text} {ready : World}
    (prepared : Prepared host environment files read declaring ready) :
    World.Keeps (logPath? files read) files ready := by
  cases prepared with
  | intro configured logs =>
      rcases exists_configuredWorld_eq host files read with ⟨console, same⟩
      rcases setUpLogging_eq_ok_iff.1 logs with ⟨opened, setup, created, configured, rfl⟩
      rw [same, ← nameIn] at configured created
      rw [logPath?]
      cases named : nameIn read.logFile with
      | none =>
          rw [named] at configured created
          rcases Except.ok.inj created with rfl
          refine ⟨.refl (by simp), ?_⟩
          intro name member
          have logged := outlets_configure configured member
          contradiction
      | some name =>
          rw [named] at configured created
          rcases bind_eq_ok_iff.1 created with ⟨⟨path, content⟩, writable, made⟩
          rcases pure_eq_ok_iff.1 made with rfl
          rw [Option.bind_some, writable]
          refine ⟨FileTree.agreeExcept_put (FileTree.isOutlet_of_writable writable) _, ?_⟩
          intro other member
          rcases Option.some.inj (outlets_configure configured member) with rfl
          exact ⟨path, content, rfl, writable⟩

end Command

end BundleDecl
