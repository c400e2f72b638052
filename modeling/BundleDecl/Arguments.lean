import BundleDecl.CommandLine

/-!
# Arguments

The command line names a task, preceded by options that concern every task. The task has options and
operands of its own.
-/

namespace BundleDecl

open CommandLine

/-- What is to be done. -/
inductive Task where
  /-- Report the targets in files of declarations. -/
  | check (files : List Text) (withoutOptionals : Bool)
  /-- Write a file of declarations in canonical form. -/
  | format (file : Text) (output : Option Value) (withoutOptionals : Bool)
  /-- Write a file of declarations as JSON. -/
  | exportJson (file : Text) (output : Option Value)
  /-- Show the canonical form of identifiers. -/
  | identifier (texts : List Text)
  /-- Compare two version numbers or two version qualifiers. -/
  | compare (left right : Value) (qualifiers : Bool)
  deriving DecidableEq, Repr

namespace Task

def name : Task → Text
  | check .. => "check"
  | format .. => "format"
  | exportJson .. => "export"
  | identifier _ => "identifier"
  | compare .. => "compare"

end Task

/-- What a command line asks for. -/
structure Arguments where
  /-- The name of the log level. -/
  logLevel : Option Value
  /-- The name of the log file. -/
  logFile : Option Value
  /-- The name of the configuration file. -/
  config : Option Value
  task : Task
  /-- The identifier of the declaring bundle, for tasks that read declarations. -/
  declaring : Option (Option Value)
  deriving DecidableEq, Repr

namespace Arguments

/-- The names of log levels that may be asked for. -/
def logLevels : List Text :=
  ["DEBUG", "INFO", "WARNING", "ERROR", "CRITICAL"]

/-- The option that every part of the command line has. -/
def help : Switch := ⟨["-h", "--help"], .help⟩

/-- The options before the task, and the task with everything that belongs to it. -/
def mainInterface : Interface :=
  ⟨[help, ⟨["--loglevel"], .choice logLevels⟩, ⟨["--logfile"], .value⟩,
    ⟨["-c", "--config"], .value⟩], [.command]⟩

/-- The option for the declaring bundle. -/
def declaringSwitch : Switch := ⟨["--declaring"], .value⟩

/-- The option for the file to write to. -/
def outputSwitch : Switch := ⟨["-o", "--output"], .value⟩

/-- The option that drops optional dependencies. -/
def withoutOptionalsSwitch : Switch := ⟨["--without-optionals"], .mark⟩

/-- The option for version qualifiers in place of version numbers. -/
def qualifiersSwitch : Switch := ⟨["--qualifiers"], .mark⟩

/-- The part of the command line that belongs to a task. -/
structure TaskForm where
  name : Text
  /-- What may stand in this part. -/
  interface : Interface
  /-- The task that it stands for. -/
  task : Reading → Task

def taskForms : List TaskForm :=
  [{ name := "check"
     interface := ⟨[help, declaringSwitch, withoutOptionalsSwitch], [.repeated]⟩
     task := fun reading =>
       .check (reading.operand 0) (reading.isMarked withoutOptionalsSwitch.key) },
   { name := "format"
     interface := ⟨[help, declaringSwitch, outputSwitch, withoutOptionalsSwitch], [.single]⟩
     task := fun reading =>
       .format (reading.argument 0) (reading.value? outputSwitch.key)
         (reading.isMarked withoutOptionalsSwitch.key) },
   { name := "export"
     interface := ⟨[help, declaringSwitch, outputSwitch], [.single]⟩
     task := fun reading => .exportJson (reading.argument 0) (reading.value? outputSwitch.key) },
   { name := "identifier"
     interface := ⟨[help], [.repeated]⟩
     task := fun reading => .identifier (reading.operand 0) },
   { name := "compare"
     interface := ⟨[help, qualifiersSwitch], [.single, .single]⟩
     task := fun reading =>
       .compare (reading.single 0) (reading.single 1) (reading.isMarked qualifiersSwitch.key) }]

/-- The arguments that the two parts of a command line stand for. -/
def ofReadings (form : TaskForm) (general special : Reading) : Arguments where
  logLevel := general.value? "--loglevel"
  logFile := general.value? "--logfile"
  config := general.value? "--config"
  task := form.task special
  declaring :=
    if form.interface.switches.contains declaringSwitch then
      some (special.value? declaringSwitch.key)
    else
      none

/-- The arguments that a command line stands for. -/
def read (arguments : List Text) : Except Stop Arguments := do
  let general ← mainInterface.read arguments
  match taskForms.find? fun form => (general.operand 0).head? = some form.name with
  | none => .error .usage
  | some form =>
    let special ← form.interface.read (general.operand 0).tail
    if general.hasExcess || special.hasExcess then
      .error .usage
    else
      return ofReadings form general special

end Arguments

end BundleDecl
