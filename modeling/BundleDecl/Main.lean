import BundleDecl.Command

/-!
# The program

The program runs the command on a copy of the files that its command line and its default
configuration name, and carries the changes over to the disk afterwards.
-/

namespace BundleDecl

namespace Program

open CommandLine

/-- The path of a text that names an absolute path. -/
def pathOf (text : String) : Path :=
  (Text.splitOn '/' text).filter (!·.isEmpty)

/-- The name of a path for the operating system. -/
def nameOf (path : Path) : String :=
  String.ofList path.toText

/-- The tree with what there is on the disk under a path. A file that cannot be read denies it. -/
def copy (tree : FileTree) (path : Path) : IO FileTree := do
  let root := (← IO.currentDir) / "/"
  let place := root / nameOf path
  let withNode (node : Node) : FileTree := { tree with nodes := Entries.set path node tree.nodes }
  if ← place.isDir then
    return withNode .directory
  else if ← place.pathExists then
    match ← (IO.FS.readBinFile place).toBaseIO with
    | .ok content => return withNode (.file content.toList)
    | .error _ => return { withNode (.file []) with denied := (path, .read) :: tree.denied }
  else
    return tree

/-- The tree with everything on the way to a path copied from the disk. -/
def copyWay (path : Path) (tree : FileTree) : IO FileTree :=
  (List.range (path.length + 1)).foldlM (fun tree length => copy tree (path.take length)) tree

/-- The names of the files that a task concerns. -/
def taskFiles : Task → List Text
  | .check files _ => files
  | .format file output _ | .exportJson file output => file :: (output.bind Value.text?).toList
  | .identifier _ | .compare .. => []

/-- The names of the files that a command line concerns. -/
def filesOf (arguments : List Text) : List Text :=
  match Arguments.read arguments with
  | .error _ => []
  | .ok read => taskFiles read.task ++ [read.config, read.logFile].filterMap (·.bind Value.text?)

/-- The paths that a name leads over, step by step. -/
def wayOf (tree : FileTree) (name : Text) : List Path :=
  let steps := Text.splitOn '/' name
  (List.range (steps.length + 1)).map fun length =>
    (steps.take length).foldl Path.step (tree.start name)

/-- The part of the disk that a command line concerns. -/
def snapshot (arguments : List Text) : IO FileTree := do
  let directory := pathOf (← IO.currentDir).toString
  let home := pathOf ((← IO.getEnv "HOME").getD "/")
  let empty : FileTree := ⟨[], directory, home, []⟩
  let paths := Configuration.defaultPaths empty ++ (filesOf arguments).flatMap (wayOf empty)
  paths.foldlM (fun tree path => copyWay path tree) empty

/-- Carries the files that a command changed over to the disk. -/
def carryOver (before after : FileTree) : IO Unit :=
  after.nodes.forM fun (path, node) => do
    match node with
    | .file content =>
      if before.node? path ≠ some node then
        IO.FS.writeBinFile (nameOf path) ⟨content.toArray⟩
    | .directory | .sink => return ()

/-- The value of an environment variable. -/
def environmentValue? (name : String) : IO (Option Text) := do
  return (← IO.getEnv name).map String.toList

/-- What is shown of an ending that has no exit code of its own. -/
def report : Ending → Text
  | .helped | .misused =>
    "usage: nestdeps [-h] [--loglevel LEVEL] [--logfile FILE] [-c CONFIG] COMMAND ...\n"
  | .finished _ => []
  | .escaped (.config problem) => problem.message ++ ['\n']
  | .escaped (.file problem) => problem.message ++ ['\n']
  | .escaped (.logLevel problem) => problem.message ++ ['\n']
  | .escaped (.interrupted interruption) => interruption.message ++ ['\n']
  | .escaped .unprintable => "The output cannot be encoded\n"

/-- Runs the command on the arguments of the program. -/
def run (arguments : List Text) : IO UInt32 := do
  let environment : Environment :=
    ⟨← environmentValue? "NESTDEPS_LOG_LEVEL", ← environmentValue? "NESTDEPS_DECLARING_IDENTIFIER"⟩
  let before ← snapshot arguments
  let (ending, world) := Command.run .usual environment arguments before
  carryOver before world.files
  IO.print (String.ofList world.output)
  IO.eprint (String.ofList (world.console ++ report ending))
  return ((ending.code?.map ExitCode.number).getD 1).toUInt32

end Program

end BundleDecl

def main (arguments : List String) : IO UInt32 :=
  BundleDecl.Program.run (arguments.map String.toList)
