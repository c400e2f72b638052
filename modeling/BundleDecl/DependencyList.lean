import BundleDecl.Dependency
import BundleDecl.Identifier

/-!
# Lists of dependencies

A dependency list holds dependencies on one target bundle in order, no two of them the same. Two
lists are the same if they hold the same dependencies in any order.
-/

namespace BundleDecl

/-- The dependencies on one target bundle. -/
structure DependencyList where
  /-- The dependencies in order. -/
  dependencies : List Dependency
  deriving DecidableEq, Repr

namespace DependencyList

/-- The list without dependencies. -/
def empty : DependencyList := ⟨[]⟩

/-- The dependencies that are not the same as an earlier or an already seen one. -/
def distinctFrom (seen : List Dependency) : List Dependency → List Dependency
  | [] => []
  | dependency :: rest =>
    if seen.any (dependency.same ·) then
      distinctFrom seen rest
    else
      dependency :: distinctFrom (dependency :: seen) rest

/-- The list of some dependencies, of which the first among the same ones is kept. -/
def ofList (dependencies : List Dependency) : DependencyList :=
  ⟨distinctFrom [] dependencies⟩

/-- A list without dependencies. -/
def isEmpty (list : DependencyList) : Bool :=
  list.dependencies.isEmpty

/-- The number of dependencies. -/
def size (list : DependencyList) : Nat :=
  list.dependencies.length

/-- Whether some dependency is optional. -/
def hasOptional (list : DependencyList) : Bool :=
  list.dependencies.any Dependency.isOptional

/-- All kinds of all dependencies as a sorted set. -/
def kinds (list : DependencyList) : List Text :=
  SortedSet.ofList (list.dependencies.flatMap Dependency.kinds)

/-- Whether some dependency of a list is the same as a given one. -/
def holds (list : DependencyList) (dependency : Dependency) : Bool :=
  list.dependencies.any (dependency.same ·)

/-- Whether two lists hold the same dependencies in any order. -/
def same (left right : DependencyList) : Bool :=
  left.dependencies.all right.holds && right.dependencies.all left.holds

/-- Whether a replacement is the same as the dependency that it replaces. -/
def keeps (dependency : Dependency) (replacement : Option Dependency) : Bool :=
  replacement.any (·.same dependency)

/--
The list with its dependencies replaced one by one, where no replacement drops a dependency. If
every dependency is replaced by the same one, the list itself is kept.
-/
def replace (list : DependencyList) (replacements : List (Option Dependency)) :
    Transformed DependencyList :=
  if (list.dependencies.zip replacements).all fun (dependency, replacement) =>
      keeps dependency replacement then
    ⟨list, true⟩
  else
    ⟨ofList (replacements.filterMap id), false⟩

/-- The list with every dependency transformed or dropped. -/
def filter (transformation : Dependency → Option Dependency) (list : DependencyList) :
    Transformed DependencyList :=
  list.replace (list.dependencies.map transformation)

/-- The dependency unless it is optional. -/
def required (dependency : Dependency) : Option Dependency :=
  if dependency.isOptional then none else some dependency

/-- The list without its optional dependencies. -/
def withoutOptionals (list : DependencyList) : Transformed DependencyList :=
  list.filter required

/-- The list as it is shown in a listing of values. -/
def shown (list : DependencyList) : Text :=
  "DependencyList(" ++ Dependency.shownList (list.dependencies.map Dependency.shown) ++ ")"

end DependencyList

end BundleDecl
