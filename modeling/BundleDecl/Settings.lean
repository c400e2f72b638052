import BundleDecl.FileTree
import BundleDecl.Host
import BundleDecl.Json.Parser
import BundleDecl.Text.Lines
import BundleDecl.Text.UpperCase
import BundleDecl.Text.Utf8.Flaw
import BundleDecl.Yaml.Value

/-!
# Settings

A setting is taken from the command line, from the environment or from a configuration file, in this
order; a blank text sets nothing, and neither does a value of a configuration file that is no text.
The configuration file is the one that was asked for, or else the first of the default files that
exists and holds a mapping.
-/

namespace BundleDecl

/-- A configuration: the members of a mapping. -/
abbrev Config := List (Yaml.Scalar × Yaml.Value)

/-- The environment variables that settings are taken from. -/
structure Environment where
  /-- The name of the log level. -/
  logLevel : Option Text := none
  /-- The identifier of the declaring bundle. -/
  declaring : Option Text := none
  deriving DecidableEq, Repr

/-- The settings of a command. -/
structure Settings where
  /-- The name of the log level. -/
  logLevel : Text
  /-- The identifier of the declaring bundle, for commands that have this setting. -/
  declaring : Option (Option Text)
  deriving DecidableEq, Repr

namespace Settings

/-- A text without the white space around it, unless it is blank. -/
def nonBlank? (text : Text) : Option Text :=
  match Text.strip text with
  | [] => none
  | kept => some kept

/-- The first of some values that sets something. -/
def firstSet (values : List (Option Text)) : Option Text :=
  values.findSome? (·.bind nonBlank?)

/-- The setting of a name in a configuration, if it is a text. -/
def ofConfig (name : Text) (config : Config) : Option Text :=
  match Yaml.Value.member? name config with
  | some (.scalar (.text text)) => some text
  | _ => none

/-- The settings that result from the command line, the environment and a configuration. -/
def resolve (environment : Environment) (config : Config) (logLevel : Option Text)
    (declaring : Option (Option Text)) : Settings where
  logLevel := Text.upper
    ((firstSet [logLevel, environment.logLevel, ofConfig "log_level" config]).getD "INFO")
  declaring := declaring.map fun given =>
    firstSet [given, environment.declaring, ofConfig "declaring_identifier" config]

end Settings

/-- Why a file holds no value. -/
inductive ContentProblem where
  /-- Its bytes encode no text. -/
  | encoding (flaw : Text.Utf8.Flaw)
  /-- Its text is no JSON. -/
  | json
  /-- Its text is no YAML. -/
  | yaml (fault : Yaml.Fault)
  /-- The host interrupts its reading. -/
  | interrupted (interruption : Interruption)
  deriving DecidableEq, Repr

namespace ContentProblem

/-- The description of a problem. -/
def message : ContentProblem → Text
  | encoding flaw => flaw.message
  | json => "malformed document"
  | yaml fault => fault.message
  | interrupted interruption => interruption.message

end ContentProblem

/-- Why there is no configuration. -/
inductive ConfigProblem where
  /-- The file that was asked for, or a default file, cannot be opened. -/
  | file (problem : FileProblem)
  /-- The file that was asked for is malformed. -/
  | malformed (name : Text)
  /-- The file that was asked for holds something else than a mapping. -/
  | noMapping (name : Text)
  /-- A default file has no value, or a file has a problem that is not expected of any. -/
  | content (problem : ContentProblem)
  deriving DecidableEq, Repr

namespace ConfigProblem

/-- The description of a problem. -/
def message : ConfigProblem → Text
  | file problem => problem.message
  | malformed name => "Malformed config file " ++ name
  | noMapping name => "Config file does not hold a mapping: " ++ name
  | content problem => problem.message

end ConfigProblem

/-- The outcome of looking for a configuration. -/
structure Configuration where
  /-- The default files that were passed over because they hold no mapping. -/
  passedOver : List Path
  result : Except ConfigProblem Config

namespace Configuration

/-- The names of default files, in the order in which they are looked for. -/
def fileNames : List Text :=
  ["nestdeps.yml", "nestdeps.yaml"]

/-- The paths of the default files, in the order in which they are looked for. -/
def defaultPaths (tree : FileTree) : List Path :=
  fileNames.map (fun name => tree.directory ++ [name]) ++
    fileNames.map fun name => tree.home ++ ([".config", "nestdeps", name] : Path)

/-- The text that some bytes encode, with line feeds only. -/
def textOf (bytes : List UInt8) : Except ContentProblem Text :=
  match Text.Utf8.flaw? bytes with
  | some flaw => .error (.encoding flaw)
  | none => .ok (Text.withLineFeeds ((Text.Utf8.decode? bytes).getD []))

/-- The value of a text in JSON. -/
def jsonOf (host : Host) (text : Text) : Except ContentProblem Yaml.Value :=
  match host.interruption? (.document text), Json.ofText? text, Json.longNumber? text with
  | some interruption, _, _ => .error (.interrupted interruption)
  | none, none, _ => .error .json
  | none, some _, some number => .error (.interrupted (.conversion number.length))
  | none, some value, none => .ok (.ofJson value)

/-- The value of a text in YAML; a text without a document is nothing. -/
def yamlOf (host : Host) (text : Text) : Except ContentProblem Yaml.Value :=
  match host.interruption? (.document text), Yaml.Value.ofText? text with
  | some interruption, _ => .error (.interrupted interruption)
  | none, .ok value => .ok (value.getD (.scalar .null))
  | none, .error fault => .error (.yaml fault)

/-- The configuration that follows some default files which were passed over. -/
def passing (path : Path) (configuration : Configuration) : Configuration :=
  { configuration with passedOver := path :: configuration.passedOver }

/-- The configuration in the first suitable file; without one it is empty. -/
def ofDefaults (host : Host) (tree : FileTree) : List Path → Configuration
  | [] => ⟨[], .ok []⟩
  | path :: rest =>
    match tree.contentAt? path with
    | none => ofDefaults host tree rest
    | some (.error problem) => ⟨[], .error (.file problem)⟩
    | some (.ok content) =>
      match textOf content >>= yamlOf host with
      | .error problem => ⟨[], .error (.content problem)⟩
      | .ok (.mapping members) => ⟨[], .ok members⟩
      | .ok _ => (ofDefaults host tree rest).passing path

/-- A file whose name says that it holds JSON. -/
def isJsonName (name : Text) : Bool :=
  (".json" : Text).isSuffixOf (Text.lower name)

/-- The problem of a file that was asked for: it is malformed, unless that is not expected. -/
def problemOf (name : Text) : ContentProblem → ConfigProblem
  | .yaml fault => if fault.isForeseen then .malformed name else .content (.yaml fault)
  | .interrupted .stack => .content (.interrupted .stack)
  | _ => .malformed name

/-- The configuration in a file that was asked for; an empty one stands for an empty mapping. -/
def ofFile (host : Host) (tree : FileTree) (name : Text) : Except ConfigProblem Config := do
  let content ← (tree.read name).mapError ConfigProblem.file
  let value ← (textOf content >>= if isJsonName name then jsonOf host else yamlOf host).mapError
    (problemOf name)
  match value with
  | .scalar .null => return []
  | .mapping members => return members
  | _ => .error (.noMapping name)

/-- The configuration to use when a file may have been asked for; a blank name asks for none. -/
def load (host : Host) (tree : FileTree) (name : Option Text) : Configuration :=
  match name.filter fun text => (Settings.nonBlank? text).isSome with
  | some text => ⟨[], ofFile host tree text⟩
  | none => ofDefaults host tree (defaultPaths tree)

end Configuration

end BundleDecl
