import BundleDecl.Entries
import BundleDecl.Text.Quoted
import BundleDecl.Text.Utf8

/-!
# File trees

A file tree holds files and directories under their absolute paths, and knows the working directory
and the home directory. Names of files are resolved step by step: every step but the last must lead
to a directory. A name that cannot be opened is reported with the reason; one that holds a null
character is no name at all.

Directories may refuse to be searched or to take new files, and files to be read or written. Whoever
makes a file may read and write it. There are no links, and an opened file takes all that is written
to it.
-/

namespace BundleDecl

/-- An absolute path: the names on the way from the root. -/
abbrev Path := List Text

namespace Path

/-- The text of an absolute path. -/
def toText (path : Path) : Text :=
  "/" ++ Text.joinWith "/" path

/-- A path after one more step of a name; empty steps and single dots lead nowhere. -/
def step (path : Path) (name : Text) : Path :=
  if name = [] ∨ name = ['.'] then
    path
  else if name = ['.', '.'] then
    path.dropLast
  else
    path ++ [name]

end Path

/-- Why a file cannot be opened. -/
inductive FileProblem where
  /-- There is no such file, or no directory to put it into. -/
  | notFound (name : Text)
  /-- It is a directory. -/
  | isDirectory (name : Text)
  /-- Its name goes on after a file. -/
  | notDirectory (name : Text)
  /-- Its name is too long, or one of the steps is. -/
  | nameTooLong (name : Text)
  /-- It refuses the access, or a directory on the way or around it does. -/
  | denied (name : Text)
  /-- Its name holds a null character. -/
  | nullCharacter
  deriving DecidableEq, Repr

namespace FileProblem

/-- The description of a problem. -/
def message : FileProblem → Text
  | notFound name => "[Errno 2] No such file or directory: " ++ Text.quoted name
  | isDirectory name => "[Errno 21] Is a directory: " ++ Text.quoted name
  | notDirectory name => "[Errno 20] Not a directory: " ++ Text.quoted name
  | nameTooLong name => "[Errno 36] File name too long: " ++ Text.quoted name
  | denied name => "[Errno 13] Permission denied: " ++ Text.quoted name
  | nullCharacter => "embedded null byte"

/-- Whether the file system is asked at all: it is not for a name that is none. -/
def isOfFileSystem : FileProblem → Bool
  | nullCharacter => false
  | _ => true

end FileProblem

/-- The greatest number of bytes in one step of a name. -/
def longestStep : Nat := 255

/-- The greatest number of bytes in a name. -/
def longestName : Nat := 4095

/-- A file with its content, or a directory. -/
inductive Node where
  | file (content : List UInt8)
  | directory
  /-- A file that stays empty whatever is written to it. -/
  | sink
  deriving DecidableEq, Repr

/-- The ways of using a file or a directory. -/
inductive Access where
  /-- Going on from a directory. -/
  | search
  | read
  /-- Writing to a file, or putting a new file into a directory. -/
  | write
  deriving DecidableEq, Repr

/-- Files and directories. -/
structure FileTree where
  /-- What there is under the paths other than the root and the sink. -/
  nodes : List (Path × Node)
  /-- The working directory. -/
  directory : Path
  /-- The home directory. -/
  home : Path
  /-- The accesses that are refused, each with the path of what refuses it. -/
  denied : List (Path × Access) := []
  deriving DecidableEq, Repr

namespace FileTree

/-- The path of the sink, which every tree has. -/
def sinkPath : Path := ["dev", "null"]

/-- What there is under a path; the root is a directory. -/
def node? (tree : FileTree) (path : Path) : Option Node :=
  if path = sinkPath then
    some .sink
  else if path.isPrefixOf sinkPath then
    some .directory
  else
    Entries.get? path tree.nodes

/-- Whether what there is under a path refuses an access. -/
def denies (tree : FileTree) (access : Access) (path : Path) : Bool :=
  tree.denied.contains (path, access)

/-- Whether all directories on the way to a path can be searched. -/
def isReachable (tree : FileTree) (path : Path) : Bool :=
  (List.range path.length).all fun length => !tree.denies .search (path.take length)

/-- The content of the file under a path, if there is one that can be reached. -/
def contentAt? (tree : FileTree) (path : Path) : Option (Except FileProblem (List UInt8)) :=
  match tree.node? path with
  | some (.file content) =>
    if !tree.isReachable path then none
    else if tree.denies .read path then some (.error (.denied path.toText))
    else some (.ok content)
  | _ => none

/-- Where a name leads: to a path and to what there is, if there is anything. -/
abbrev Destination := Path × Option Node

/--
The destination of steps from a directory. Only the last step may lead to nothing or to a file.
-/
def walk (tree : FileTree) (name : Text) (path : Path) : List Text → Except FileProblem Destination
  | [] => .ok (path, some .directory)
  | next :: rest =>
    if next ≠ [] ∧ tree.denies .search path then
      .error (.denied name)
    else if next = [] ∨ next = ['.'] ∨ next = ['.', '.'] then
      tree.walk name (path.step next) rest
    else
      let reached := path.step next
      if longestStep < (Text.Utf8.encode next).length then
        .error (.nameTooLong name)
      else
        match tree.node? reached with
        | some .directory => tree.walk name reached rest
        | some node => if rest = [] then .ok (reached, some node) else .error (.notDirectory name)
        | none => if rest = [] then .ok (reached, none) else .error (.notFound name)

/-- The directory that a name starts from. -/
def start (tree : FileTree) (name : Text) : Path :=
  if name.head? = some '/' then [] else tree.directory

/-- A name that says of itself that it is one of a directory. -/
def endsAsDirectory (name : Text) : Bool :=
  name.getLast? = some '/'

def resolve (tree : FileTree) (name : Text) : Except FileProblem Destination :=
  if name.contains '\x00' then
    .error .nullCharacter
  else if name = [] then
    .error (.notFound name)
  else if longestName < (Text.Utf8.encode name).length then
    .error (.nameTooLong name)
  else
    tree.walk name (tree.start name) (Text.splitOn '/' (Text.trimEnd (· = '/') name))

/-- The content of a file. -/
def read (tree : FileTree) (name : Text) : Except FileProblem (List UInt8) := do
  let (path, node) ← tree.resolve name
  match node with
  | none => .error (.notFound name)
  | some node =>
    if node ≠ .directory ∧ endsAsDirectory name then
      .error (.notDirectory name)
    else if tree.denies .read path then
      .error (.denied name)
    else
      match node with
      | .file content => return content
      | .sink => return []
      | .directory => .error (.isDirectory name)

/-- Whether writing to a path is admitted: by what there is, or else by the directory around it. -/
def admits (tree : FileTree) (path : Path) : Bool :=
  !tree.denies .write (if (tree.node? path).isSome then path else path.dropLast)

/-- The file that can be written under a name, and its present content. -/
def writable (tree : FileTree) (name : Text) : Except FileProblem (Path × List UInt8) := do
  let (path, node) ← tree.resolve name
  if endsAsDirectory name ∨ node = some .directory then
    .error (.isDirectory name)
  else if !tree.admits path then
    .error (.denied name)
  else
    match node with
    | some (.file content) => return (path, content)
    | _ => return (path, [])

/-- The refused accesses when there is a file under a path, which may be a new one. -/
def deniedWith (tree : FileTree) (path : Path) : List (Path × Access) :=
  if (tree.node? path).isSome then tree.denied
  else tree.denied.filter fun (other, access) => other ≠ path || access = .search

/-- The tree with the content of a file set; the sink takes none. -/
def put (tree : FileTree) (path : Path) (content : List UInt8) : FileTree :=
  if path = sinkPath then tree
  else { tree with
    nodes := Entries.set path (.file content) tree.nodes
    denied := tree.deniedWith path }

/-- The tree after a file was written anew. -/
def write (tree : FileTree) (name : Text) (content : List UInt8) : Except FileProblem FileTree := do
  let (path, _) ← tree.writable name
  return tree.put path content

/-- The tree after something was added to the end of a file. -/
def append (tree : FileTree) (name : Text) (content : List UInt8) :
    Except FileProblem FileTree := do
  let (path, present) ← tree.writable name
  return tree.put path (present ++ content)

/-- The absolute path of a name, which need not exist. -/
def absolute (tree : FileTree) (name : Text) : Path :=
  (Text.splitOn '/' name).foldl Path.step (tree.start name)

/-- The text of the absolute path of a name. Two slashes at the start of a name are kept. -/
def absoluteName (tree : FileTree) (name : Text) : Text :=
  let isDouble := name.take 2 = ['/', '/'] && name[2]? != some '/'
  (if isDouble then ['/'] else []) ++ (tree.absolute name).toText

end FileTree

end BundleDecl
