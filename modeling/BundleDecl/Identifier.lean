import BundleDecl.SortedSet
import BundleDecl.Text.Quoted
import BundleDecl.Version

/-!
# Bundle identifiers

An identifier is a name with qualifiers, written with hyphens between them. Letter case does not
matter, nor do the order and the repetition of qualifiers: everything is kept in lower case, and the
qualifiers form a sorted set. A qualifier that is a version qualifier is kept apart as the version
of the identifier; there may be only one version.
-/

namespace BundleDecl

/-- The value that a transformation made, and whether it is the value that went in. -/
structure Transformed (Value : Type) where
  /-- The resulting value. -/
  value : Value
  /-- Whether the value that went in was kept. -/
  unchanged : Bool

structure Identifier where
  /-- The name in lower case. -/
  name : Text
  /-- The qualifiers other than the version, in lower case and as a sorted set. -/
  qualifiers : List Text
  /-- The version number. -/
  version : Option Text
  deriving DecidableEq, Repr

namespace Identifier

/-- An ASCII letter, a digit or an underscore. -/
def isNameCharacter (character : Char) : Bool :=
  character.isAlphanum || character = '_'

/-- A character of a name or a dot. -/
def isQualifierCharacter (character : Char) : Bool :=
  isNameCharacter character || character = '.'

/-- A bundle name: non-empty words between dots. -/
def isName (text : Text) : Bool :=
  (Text.splitOn '.' text).all fun word => !word.isEmpty && word.all isNameCharacter

/-- A qualifier: a non-empty sequence of words and dots. -/
def isQualifier (text : Text) : Bool :=
  !text.isEmpty && text.all isQualifierCharacter

/-- The text of an identifier: a name and any number of qualifiers between hyphens. -/
def isIdentifier (text : Text) : Bool :=
  match Text.splitOn '-' text with
  | name :: qualifiers => isName name && qualifiers.all isQualifier
  | [] => false

/-- The identifier of a name alone. -/
def ofName (name : Text) : Except Failure Identifier :=
  if isName name then
    .ok ⟨Text.lower name, [], none⟩
  else
    fail (.nameFormat name)

/-- The identifier with one more version. A version that it has already changes nothing. -/
def addVersion (identifier : Identifier) (version : Text) : Except Failure Identifier :=
  match identifier.version with
  | none => .ok { identifier with version := some version }
  | some known =>
    if known = version then
      .ok identifier
    else
      fail (.severalVersions identifier.name (Version.toQualifier known)
        (Version.toQualifier version))

/-- The identifier with one more qualifier, which may be its version. -/
def addQualifier (identifier : Identifier) (qualifier : Text) : Except Failure Identifier :=
  if isQualifier qualifier then
    let folded := Text.lower qualifier
    if Version.isQualifier folded then
      identifier.addVersion folded.tail
    else
      .ok { identifier with qualifiers := SortedSet.insert folded identifier.qualifiers }
  else
    fail (.qualifierFormat qualifier)

/-- The identifier of a name and its qualifiers, versions among them. -/
def ofParts (name : Text) (qualifiers : List Text) : Except Failure Identifier := do
  qualifiers.foldlM addQualifier (← ofName name)

/-- The identifier that a text denotes. -/
def ofText (text : Text) : Except Failure Identifier :=
  if isIdentifier text then
    match Text.splitOn '-' text with
    | name :: qualifiers => ofParts name qualifiers
    | [] => fail (.identifierFormat text)
  else
    fail (.identifierFormat text)

/-- The qualifiers with a meaning of their own, which is the version qualifier alone. -/
def metaQualifiers (identifier : Identifier) : List Text :=
  (identifier.version.map Version.toQualifier).toList

def versionQualifier (identifier : Identifier) : Option Text :=
  identifier.version.map Version.toQualifier

/-- All qualifiers as one sorted set. -/
def allQualifiers (identifier : Identifier) : List Text :=
  SortedSet.ofList (identifier.qualifiers ++ identifier.metaQualifiers)

/-- The canonical text: the name, the qualifiers and the version qualifier between hyphens. -/
def toText (identifier : Identifier) : Text :=
  Text.joinWith "-" (identifier.name :: identifier.qualifiers ++ identifier.metaQualifiers)

/-- The identifier as it is shown in a listing of values. -/
def shown (identifier : Identifier) : Text :=
  "Identifier(" ++ Text.quoted identifier.toText ++ ")"

/-- What is left of an identifier; if nothing is to be left out, the identifier itself is kept. -/
def reduceTo (identifier rest : Identifier) (nothingElse : Bool) : Transformed Identifier :=
  if nothingElse then
    ⟨identifier, true⟩
  else
    ⟨rest, false⟩

def withoutVersion (identifier : Identifier) : Transformed Identifier :=
  identifier.reduceTo { identifier with version := none } identifier.metaQualifiers.isEmpty

/-- The identifier without its qualifiers other than the version. -/
def withoutQualifiers (identifier : Identifier) : Transformed Identifier :=
  identifier.reduceTo { identifier with qualifiers := [] } identifier.qualifiers.isEmpty

/-- The identifier of the name alone. -/
def nameOnly (identifier : Identifier) : Transformed Identifier :=
  identifier.reduceTo ⟨identifier.name, [], none⟩
    (identifier.qualifiers.isEmpty && identifier.metaQualifiers.isEmpty)

/-- The order of identifiers: by name, then by qualifiers, then by version qualifier. -/
protected def compare (left right : Identifier) : Ordering :=
  ((compare left.name right.name).then (compare left.qualifiers right.qualifiers)).then
    (compare left.metaQualifiers right.metaQualifiers)

/-- The identifiers in increasing order. -/
def sort (identifiers : List Identifier) : List Identifier :=
  identifiers.mergeSort fun left right => left.compare right != .gt

end Identifier

end BundleDecl
