import BundleDecl.Dependency

/-!
# Building dependencies

A builder collects the parts of a dependency. Every part is checked when it is added, and a refused
part leaves the builder as it was.
-/

namespace BundleDecl

/-- The parts of a dependency that have been collected. -/
structure Builder where
  /-- The kinds as a sorted set. -/
  kinds : List Text := []
  /-- The version range, if one was set. -/
  range : Option Range := none
  /-- The metadata entries in order. -/
  metadata : List (Text × Text) := []
  deriving DecidableEq, Repr

namespace Builder

/-- The builder that has all parts of a dependency. -/
def ofDependency (dependency : Dependency) : Builder :=
  ⟨dependency.kinds, some dependency.range, dependency.metadata⟩

/-- Sets the version range or takes it away. -/
def setRange (builder : Builder) (range : Option Range) : Builder :=
  { builder with range := range }

def addKind (builder : Builder) (kind : Text) : Except Failure Builder := do
  Dependency.checkKind kind
  return { builder with kinds := SortedSet.insert kind builder.kinds }

/-- Sets a metadata entry; a name that is already there keeps its place. -/
def addMetadata (builder : Builder) (name value : Text) : Except Failure Builder := do
  Dependency.checkMetadataName name
  return { builder with metadata := Entries.set name value builder.metadata }

/-- Whether there is a metadata entry of a name. -/
def hasMetadata (builder : Builder) (name : Text) : Bool :=
  Entries.has name builder.metadata

/-- Takes all kinds away. -/
def clearKinds (builder : Builder) : Builder :=
  { builder with kinds := [] }

/-- Takes all metadata away. -/
def clearMetadata (builder : Builder) : Builder :=
  { builder with metadata := [] }

/-- The dependency of the collected parts; a range and a kind are needed. -/
def build (builder : Builder) : Except Failure Dependency :=
  match builder.range with
  | none => fail .rangeNotSet
  | some range =>
    if builder.kinds = [] then
      fail .noKinds
    else
      .ok ⟨builder.kinds, range, builder.metadata⟩

end Builder

end BundleDecl
