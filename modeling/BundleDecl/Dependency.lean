import BundleDecl.Entries
import BundleDecl.Range

/-!
# Dependencies

A dependency on a bundle has kinds, a version range and metadata. Its kinds form a sorted set; its
metadata are entries in order, but two dependencies are the same if they have the same entries in
any order. Kinds and metadata names that begin with `nest-` in any letter case are reserved.
-/

namespace BundleDecl

/-- A dependency on a target bundle. -/
structure Dependency where
  /-- The kinds as a sorted set. -/
  kinds : List Text
  /-- The acceptable versions of the target. -/
  range : Range
  /-- The metadata entries in order. -/
  metadata : List (Text × Text)
  deriving DecidableEq, Repr

namespace Dependency

/-- An ASCII letter, a digit, an underscore or a hyphen. -/
def isWordCharacter (character : Char) : Bool :=
  character.isAlphanum || character = '_' || character = '-'

/-- A non-empty sequence of letters, digits, underscores and hyphens. -/
def isWord (text : Text) : Bool :=
  !text.isEmpty && text.all isWordCharacter

/-- A dependency kind, reserved ones included. -/
def isKind (text : Text) : Bool :=
  isWord text

/-- A metadata name, reserved ones included. -/
def isMetadataName (text : Text) : Bool :=
  isWord text

/-- The beginning of reserved names. -/
def reservedBeginning : Text := "nest-"

/-- A name that is reserved, in any letter case. -/
def isReserved (name : Text) : Bool :=
  reservedBeginning.isPrefixOf (Text.lower name)

/-- Refuses everything but kinds that may be used. -/
def checkKind (kind : Text) : Except Failure Unit :=
  if !isKind kind then
    fail (.kindFormat kind)
  else if isReserved kind then
    fail (.reservedKind kind)
  else
    .ok ()

/-- Refuses everything but metadata names that may be used. -/
def checkMetadataName (name : Text) : Except Failure Unit :=
  if !isMetadataName name then
    fail (.metadataNameFormat name)
  else if isReserved name then
    fail (.reservedMetadataName name)
  else
    .ok ()

/-- Whether a dependency has a kind. -/
def hasKind (dependency : Dependency) (kind : Text) : Bool :=
  dependency.kinds.contains kind

/-- Whether a metadata entry says `true` in any letter case. -/
def isMarked (dependency : Dependency) (name : Text) : Bool :=
  (Entries.get? name dependency.metadata).any fun value => Text.lower value == ("true" : Text)

/-- A dependency that may be missing. -/
def isOptional (dependency : Dependency) : Bool :=
  dependency.isMarked "optional"

/-- A dependency that is not passed on. -/
def isPrivate (dependency : Dependency) : Bool :=
  dependency.isMarked "private"

/-- Whether two dependencies agree in everything but the order of their metadata. -/
def same (left right : Dependency) : Bool :=
  left.kinds == right.kinds && left.range == right.range &&
    left.metadata.isPerm right.metadata

/-- Items as they are shown in a listing of values. -/
def shownList (items : List Text) : Text :=
  "[" ++ Text.joinWith ", " items ++ "]"

/-- Metadata entries as they are shown in a listing of values. -/
def shownMetadata (metadata : List (Text × Text)) : Text :=
  "\x7b" ++ Text.joinWith ", "
    (metadata.map fun (name, value) => Text.quoted name ++ ": " ++ Text.quoted value) ++ "\x7d"

/-- The dependency as it is shown in a listing of values. -/
def shown (dependency : Dependency) : Text :=
  "Dependency(kinds=" ++ shownList (dependency.kinds.map Text.quoted) ++
    ", range=" ++ Text.quoted dependency.range.toText ++
    ", metadata=" ++ shownMetadata dependency.metadata ++ ")"

end Dependency

end BundleDecl
