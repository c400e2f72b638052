import BundleDecl.DependencyList
import BundleDecl.Identifier
import BundleDecl.MetadataValue

/-!
# Dependency declarations

The declarations of a bundle say for each of its target bundles which dependencies on it there are.
Targets carry no version, and a target without dependencies is not declared. Two declarations are
the same if they have the same targets with the same lists, in any order.

In canonical form a target stands at the start of a line, each of its dependencies follows on a line
with one tab in front, and the metadata of a dependency follow on lines with two tabs in front.
-/

namespace BundleDecl

namespace Dependency

/-- The line of the kinds and the range. -/
def kindLine (dependency : Dependency) : Text :=
  "\t" ++ Text.joinWith ", " dependency.kinds ++ ": " ++ dependency.range.toText

/-- The line, or the lines, of a metadata entry. -/
def metadataLine (name value : Text) : Text :=
  match MetadataValue.render value with
  | [] => "\t\t" ++ name ++ ":"
  | rendered => "\t\t" ++ name ++ ": " ++ rendered

def toLines (dependency : Dependency) : List Text :=
  dependency.kindLine :: dependency.metadata.map fun (name, value) => metadataLine name value

end Dependency

/-- The dependency lists of target bundles. -/
structure Declarations where
  /-- The targets and their dependency lists in order. -/
  entries : List (Identifier × DependencyList)
  deriving DecidableEq, Repr

namespace Declarations

/-- The declarations without targets. -/
def empty : Declarations := ⟨[]⟩

/-- The declarations of some entries. A version in a target is refused; empty lists are left out. -/
def ofEntries (entries : List (Identifier × DependencyList)) : Except Failure Declarations :=
  match entries.find? fun (target, _) => target.version.isSome with
  | some (target, _) => fail (.versionedTarget target.toText)
  | none => .ok ⟨entries.filter fun (_, list) => !list.isEmpty⟩

def get? (declarations : Declarations) (target : Identifier) : Option DependencyList :=
  Entries.get? target declarations.entries

/-- Declarations without targets. -/
def isEmpty (declarations : Declarations) : Bool :=
  declarations.entries.isEmpty

/-- The number of targets. -/
def size (declarations : Declarations) : Nat :=
  declarations.entries.length

/-- Whether some dependency is optional. -/
def hasOptional (declarations : Declarations) : Bool :=
  declarations.entries.any fun (_, list) => list.hasOptional

/-- Whether two declarations have the same targets with the same lists in any order. -/
def same (left right : Declarations) : Bool :=
  left.size == right.size &&
    left.entries.all fun (target, list) => (right.get? target).any (list.same ·)

/-- Whether a replacement is the same as the list that it replaces. -/
def keeps (list : DependencyList) (replacement : Option DependencyList) : Bool :=
  replacement.any (·.same list)

/--
The declarations with their lists replaced one by one, where no replacement and an empty one drop
the target. If every list is replaced by the same one, the declarations themselves are kept.
-/
def replace (declarations : Declarations) (replacements : List (Option DependencyList)) :
    Transformed Declarations :=
  if (declarations.entries.zip replacements).all fun ((_, list), replacement) =>
      keeps list replacement then
    ⟨declarations, true⟩
  else
    ⟨⟨(declarations.entries.zip replacements).filterMap fun ((target, _), replacement) =>
      (replacement.filter (!·.isEmpty)).map fun list => (target, list)⟩, false⟩

/-- The declarations with every list transformed or dropped. -/
def filter (transformation : Identifier → DependencyList → Option DependencyList)
    (declarations : Declarations) : Transformed Declarations :=
  declarations.replace (declarations.entries.map fun (target, list) => transformation target list)

/-- The declarations without optional dependencies. -/
def withoutOptionals (declarations : Declarations) : Transformed Declarations :=
  declarations.filter fun _ list => some list.withoutOptionals.value

/-- The declarations as they are shown in a listing of values. -/
def shown (declarations : Declarations) : Text :=
  "DependencyInformation(\x7b" ++ Text.joinWith ", "
    (declarations.entries.map fun (target, list) => target.shown ++ ": " ++ list.shown) ++ "\x7d)"

/-- The lines of a target; a target without dependencies has none. -/
def targetLines (target : Identifier) (list : DependencyList) : List Text :=
  if list.isEmpty then
    []
  else
    target.toText :: list.dependencies.flatMap Dependency.toLines

def toLines (declarations : Declarations) : List Text :=
  declarations.entries.flatMap fun (target, list) => targetLines target list

/-- The canonical text of declarations. -/
def toText (declarations : Declarations) : Text :=
  declarations.toLines.flatMap (· ++ ['\n'])

end Declarations

end BundleDecl
