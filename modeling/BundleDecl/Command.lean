import BundleDecl.Arguments
import BundleDecl.Declarations.Interruption
import BundleDecl.Interchange
import BundleDecl.Log
import BundleDecl.Settings

/-!
# The command

A command reads its command line, looks for a configuration, sets up logging and performs its task.
What it does to the outside is the change of a world that consists of a file tree, the standard
output and the console. It ends with an exit code that tells what went wrong first, unless a problem
escapes that it does not handle. Neither does it handle interruptions by its host, nor a standard
output that cannot encode a text, to which nothing of that text is written.
-/

namespace BundleDecl

/-- What a command acts on. -/
structure World where
  files : FileTree
  /-- How records are written. -/
  logging : Log.Setup
  /-- What was written to the standard output. -/
  output : Text
  /-- What was written to the console. -/
  console : Text
  deriving DecidableEq, Repr

namespace World

/-- The world in which a command starts. -/
def ofFiles (files : FileTree) : World :=
  ⟨files, .initial, [], []⟩

/-- The world after something was written to an outlet of records. -/
def writeTo (world : World) : Log.Outlet × Text → World
  | (.console, text) => { world with console := world.console ++ text }
  | (.file name, text) =>
    match world.files.append name (Text.Utf8.encode text) with
    | .ok files => { world with files := files }
    | .error _ => world

/-- The world after a record was logged. -/
def log (record : Log.Record) (world : World) : World :=
  (world.logging.emit record).foldl writeTo world

/-- The world after something was written to the standard output. -/
def print (text : Text) (world : World) : World :=
  { world with output := world.output ++ text }

end World

inductive ExitCode where
  /-- The task was performed. -/
  | success
  /-- A file could not be opened. -/
  | fileError
  /-- Something was malformed. -/
  | declarationError
  /-- The command line or the configuration could not be used. -/
  | usageError
  deriving DecidableEq, Repr

namespace ExitCode

def number : ExitCode → Nat
  | success => 0
  | fileError => 1
  | declarationError => 2
  | usageError => 3

end ExitCode

/-- A problem that a command does not handle. -/
inductive Escape where
  /-- A configuration file cannot be used, and that is not expected of it. -/
  | config (problem : ConfigProblem)
  /-- The log file cannot be opened, or the name of some file is none. -/
  | file (problem : FileProblem)
  /-- The name of the log level stands for something else. -/
  | logLevel (problem : Log.LevelProblem)
  /-- The host interrupts the task. -/
  | interrupted (interruption : Interruption)
  /-- The standard output cannot encode the result. -/
  | unprintable
  deriving DecidableEq, Repr

/-- How a command ends. -/
inductive Ending where
  /-- With help, which was asked for. -/
  | helped
  /-- With advice on its command line. -/
  | misused
  /-- With an exit code. -/
  | finished (code : ExitCode)
  /-- With a problem that escapes. -/
  | escaped (problem : Escape)
  deriving DecidableEq, Repr

namespace Ending

/-- The exit code of an ending; a problem that escapes has none. -/
def code? : Ending → Option ExitCode
  | helped => some .success
  | misused => some .usageError
  | finished code => some code
  | escaped _ => none

end Ending

namespace Command

open CommandLine

/-- Why a task is not performed. -/
inductive Trouble where
  /-- A file cannot be opened. -/
  | file (problem : FileProblem)
  /-- Something is malformed. -/
  | failure (failure : Failure)
  /-- The host interrupts the task. -/
  | interrupted (interruption : Interruption)
  /-- The standard output cannot encode the result. -/
  | unprintable
  deriving DecidableEq, Repr

namespace Trouble

/-- How a task with a trouble ends: with an exit code if the trouble is handled. -/
def ending : Trouble → Ending
  | file problem =>
    if problem.isOfFileSystem then .finished .fileError else .escaped (.file problem)
  | failure _ => .finished .declarationError
  | interrupted interruption => .escaped (.interrupted interruption)
  | unprintable => .escaped .unprintable

/-- What is logged of a trouble that is handled. -/
def record? : Trouble → Option Log.Record
  | file (.notFound name) =>
    some (.plain .error
      ("File not found: " ++ (FileProblem.notFound name).message ++ ", aborting"))
  | file problem =>
    if problem.isOfFileSystem then
      some (.plain .error ("IO error: " ++ problem.message ++ ", aborting"))
    else
      none
  | failure found => some (.plain .error found.message)
  | interrupted _ | unprintable => none

/-- Why a task is not performed, one computation of which came to a halt. -/
def ofHalt : Halt Failure → Trouble
  | .refused found => failure found
  | .interrupted interruption => interrupted interruption

end Trouble

/-- A step of a task. -/
abbrev Step := ExceptT Trouble (StateM World)

instance : MonadLift (Except Failure) Step where
  monadLift
    | .ok value => pure value
    | .error failure => throw (.failure failure)

instance : MonadLift (Except (Halt Failure)) Step where
  monadLift
    | .ok value => pure value
    | .error halt => throw (.ofHalt halt)

instance : MonadLift (Except FileProblem) Step where
  monadLift
    | .ok value => pure value
    | .error problem => throw (.file problem)

def log (record : Log.Record) : Step Unit :=
  modify (World.log record)

/--
Reads the declarations in a file. The file is opened before the declaring bundle is looked at.
-/
def readDeclarations (host : Host) (declaring : Option Text) (withoutOptionals : Bool)
    (file : Text) : Step Declarations := do
  let content ← (← get).files.read file
  let bundle ← match declaring with
    | none => pure none
    | some text => some <$> (Identifier.ofText text : Step Identifier)
  let declarations ← Declarations.ofSourceWithin host bundle (.byteStream content)
  log (Log.declarationsRead bundle declarations)
  return if withoutOptionals then declarations.withoutOptionals.value else declarations

/-- The written form of declarations, unless their ranges are too deep to be written. -/
def written (host : Host) (form : Declarations → Text) (declarations : Declarations) :
    Except (Halt Failure) Text :=
  interruptedBy (host.interruption? (.written declarations)) (.ok (form declarations))

/-- Writes a result to a file, or to the standard output if no file is named. -/
def emit (host : Host) (text : Text) (file : Option Text) : Step Unit := do
  match file.filter (!·.isEmpty) with
  | none => if host.prints text then modify (World.print text) else throw .unprintable
  | some name =>
    let files ← (← get).files.write name (Text.Utf8.encode text)
    modify fun world => { world with files := files }
    log (.plain .info ("Output written to " ++ name))

/-- Some lines as a text. -/
def linesText (lines : List Text) : Text :=
  lines.flatMap (· ++ ['\n'])

/-- The lines that report the targets in a file. -/
def checkLines (file : Text) (declarations : Declarations) : List Text :=
  (file ++ ": " ++ Text.ofNat declarations.size ++ " target bundle(s)") ::
    declarations.entries.map fun (target, list) =>
      "  " ++ target.toText ++ ": " ++ Text.ofNat list.size ++ " dependency(ies) [" ++
        Text.joinWith ", " list.kinds ++ "]"

/-- The lines that show an identifier and its parts. -/
def identifierLines (identifier : Identifier) : List Text :=
  [identifier.toText,
    "  name: " ++ identifier.name,
    "  qualifiers: " ++ Text.joinWith ", " identifier.qualifiers,
    "  meta-qualifiers: " ++ Text.joinWith ", " identifier.metaQualifiers,
    "  version: " ++ identifier.version.getD []]

/-- Compares two version qualifiers or two version numbers. A void value compares to nothing. -/
def compareValues (qualifiers : Bool) : Value → Value → Except (Halt Failure) Ordering
  | .text left, .text right =>
    if qualifiers then Version.compareQualifiersWithin left right
    else Version.compareNumbersWithin left right
  | left, right =>
    interruptedBy none (fail
      (if qualifiers then .versionQualifiers left.shown right.shown
      else .versionNumbers (some left.shown) (some right.shown)))

/-- The number that stands for an order. -/
def orderText : Ordering → Text
  | .lt => "-1"
  | .eq => "0"
  | .gt => "1"

/-- The text of declarations in JSON as it is exported. -/
def exported (declarations : Declarations) : Text :=
  declarations.toJsonText (some 2) ++ ['\n']

def perform (host : Host) (declaring : Option Text) : Task → Step Unit
  | .check files withoutOptionals =>
    files.forM fun file => do
      let declarations ← readDeclarations host declaring withoutOptionals file
      emit host (linesText (checkLines file declarations)) none
  | .format file output withoutOptionals => do
    let declarations ← readDeclarations host declaring withoutOptionals file
    emit host (← written host Declarations.toText declarations) (output.bind Value.text?)
  | .exportJson file output => do
    let declarations ← readDeclarations host declaring false file
    emit host (← written host exported declarations) (output.bind Value.text?)
  | .identifier texts => do
    let identifiers ← texts.mapM fun text => (Identifier.ofText text : Step Identifier)
    emit host (linesText (identifiers.flatMap identifierLines)) none
  | .compare left right qualifiers => do
    let order ← (compareValues qualifiers left right : Step Ordering)
    emit host (linesText [orderText order]) none

/-- Performs a task from its start to its end, and logs both. -/
def performLogged (host : Host) (declaring : Option Text) (task : Task) (world : World) :
    Ending × World :=
  let action := task.name
  match (perform host declaring task).run (world.log (Log.commandStarted action)) with
  | (.ok (), done) => (.finished .success, done.log (Log.commandFinished action))
  | (.error trouble, stopped) => (trouble.ending, trouble.record?.elim stopped stopped.log)

/--
The world with logging set up. The log file is created if it does not exist, and that comes before
the log level is looked at.
-/
def setUpLogging (level environment file : Option Text) (world : World) :
    Except Escape World := do
  let path := (file.filter (!·.isEmpty)).map world.files.absoluteName
  let files ← match path with
    | none => pure world.files
    | some name => (world.files.append name []).mapError Escape.file
  let logging ← (world.logging.configure level environment path).mapError Escape.logLevel
  return { world with files := files, logging := logging }

/-- The record of a default configuration file that is passed over. -/
def passedOver (path : Path) : Log.Record :=
  .plain .warning ("Ignoring config file without a mapping: " ++ path.toText)

/-- Whether a problem with the configuration is handled: those with default files are not. -/
def isHandled : ConfigProblem → Bool
  | .file problem => problem.isOfFileSystem
  | .content _ => false
  | .malformed _ | .noMapping _ => true

/-- Performs what arguments ask for. -/
def runArguments (host : Host) (environment : Environment) (arguments : Arguments)
    (start : World) : Ending × World :=
  let logLevel := arguments.logLevel.bind Value.text?
  let declaring := arguments.declaring.map fun given => given.bind Value.text?
  let configuration := Configuration.load host start.files (arguments.config.bind Value.text?)
  let world := configuration.passedOver.foldl (fun world path => world.log (passedOver path)) start
  match configuration.result with
  | .error problem =>
    if isHandled problem then
      match setUpLogging logLevel environment.logLevel none world with
      | .error problem => (.escaped problem, world)
      | .ok ready =>
        (.finished .usageError,
          ready.log (.plain .error ("Config error: " ++ problem.message ++ ", aborting")))
    else
      (.escaped (.config problem), world)
  | .ok config =>
    let settings := Settings.resolve environment config logLevel declaring
    let logFile := arguments.logFile.bind Value.text?
    match setUpLogging (some settings.logLevel) environment.logLevel logFile world with
    | .error problem => (.escaped problem, world)
    | .ok ready => performLogged host (settings.declaring.getD none) arguments.task ready

/-- Runs a command on its command line. -/
def run (host : Host) (environment : Environment) (arguments : List Text) (files : FileTree) :
    Ending × World :=
  let world := World.ofFiles files
  match Arguments.read arguments with
  | .error .help => (.helped, world)
  | .error .usage => (.misused, world)
  | .ok read => runArguments host environment read world

end Command

end BundleDecl
