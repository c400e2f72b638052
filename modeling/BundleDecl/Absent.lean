import BundleDecl.Declarations.Interruption
import BundleDecl.Dependency.Builder

/-!
# Absent arguments

Whoever calls the library from outside may leave an argument out. Some operations refuse that and
name the argument; for others an absent argument is an answer, or a failure of its own. The
operations on texts that convert numbers keep within the limits of the host.
-/

namespace BundleDecl

/-- The arguments that must be given. -/
inductive Argument where
  | identifierText
  | versionNumber
  | rangeText
  | kind
  /-- A metadata entry. -/
  | metadata
  | dependencies
  /-- The transformation that a list or declarations are filtered with. -/
  | transformation
  /-- The source that declarations are read from. -/
  | source
  /-- The declarations that are written. -/
  | declarations
  deriving DecidableEq, Repr

namespace Argument

def name : Argument → Text
  | identifierText => "identifier text"
  | versionNumber => "version number"
  | rangeText => "range text"
  | kind => "kind"
  | metadata => "metadata name and content"
  | dependencies => "dependencies"
  | transformation => "transformation"
  | source => "source"
  | declarations => "info"

end Argument

/-- Why an operation with arguments that may be absent has no result. -/
inductive Fault where
  | absent (argument : Argument)
  /-- The length of an absent text is asked for. -/
  | noLength
  /-- The items of an absent sequence are asked for. -/
  | noItems
  /-- The arguments are there, but the operation failed. -/
  | failure (failure : Failure)
  /-- The host interrupts the operation. -/
  | interrupted (interruption : Interruption)
  deriving DecidableEq, Repr

namespace Fault

/-- The description of a fault. -/
def message : Fault → Text
  | absent argument => argument.name ++ " must not be None"
  | noLength => "object of type 'NoneType' has no len()"
  | noItems => "'NoneType' object is not iterable"
  | failure found => found.message
  | interrupted interruption => interruption.message

def ofHalt : Halt Failure → Fault
  | .refused found => failure found
  | .interrupted interruption => interrupted interruption

end Fault

instance : MonadLift (Except Failure) (Except Fault) where
  monadLift result := result.mapError Fault.failure

instance : MonadLift (Except (Halt Failure)) (Except Fault) where
  monadLift result := result.mapError Fault.ofHalt

/-- An argument that must be given. -/
def Argument.given {Value : Type} (argument : Argument) : Option Value → Except Fault Value
  | some value => .ok value
  | none => .error (.absent argument)

namespace Version

/-- Compares two version numbers; an absent one is no version number. -/
def compareGiven : Option Text → Option Text → Except Fault Ordering
  | some left, some right => compareNumbersWithin left right
  | left, right => (fail (.versionNumbers left right) : Except Failure Ordering)

/-- Compares two version qualifiers. The right one is not looked at if the left one is too short. -/
def compareQualifiersGiven : Option Text → Option Text → Except Fault Ordering
  | some left, some right => compareQualifiersWithin left right
  | some left, none =>
    if left.length < 2 then
      (fail (.versionQualifiers left (Text.ofOption none)) : Except Failure Ordering)
    else
      .error .noLength
  | none, _ => .error .noLength

/-- The version qualifier of a version number. -/
def toQualifierGiven (version : Option Text) : Except Fault Text :=
  toQualifier <$> Argument.versionNumber.given version

/-- The one version qualifier among qualifiers that may be absent. -/
def findQualifierGiven (qualifiers : Option (List (Option Text))) : Option Text :=
  findQualifier ((qualifiers.getD []).filterMap id)

/-- Whether there is a version qualifier among qualifiers that may be absent. -/
def hasQualifierGiven (qualifiers : Option (List (Option Text))) : Bool :=
  ((qualifiers.getD []).filterMap id).any isQualifier

end Version

namespace Identifier

/-- The identifier that a text denotes. -/
def ofTextGiven (text : Option Text) : Except Fault Identifier := do
  ofText (← Argument.identifierText.given text)

/-- The identifier with one more qualifier; an absent one is no qualifier. -/
def addQualifierGiven (identifier : Identifier) : Option Text → Except Failure Identifier
  | some qualifier => identifier.addQualifier qualifier
  | none => fail (.qualifierFormat none)

/-- The identifier of a name alone; an absent name is no name. -/
def ofNameGiven : Option Text → Except Failure Identifier
  | some text => ofName text
  | none => fail (.nameFormat none)

/-- The identifier of a name and its qualifiers of both kinds. -/
def ofPartsGiven (name : Option Text) (qualifiers metaQualifiers : Option (List (Option Text))) :
    Except Fault Identifier := do
  let start ← ofNameGiven name
  match qualifiers, metaQualifiers with
  | some plain, some special =>
    ((plain ++ special).foldlM addQualifierGiven start : Except Failure Identifier)
  | _, _ => .error .noItems

end Identifier

namespace Range

/-- The range that a text denotes. -/
def ofTextGiven (host : Host) (text : Option Text) : Except Fault Range := do
  ofTextWithin host (← Argument.rangeText.given text)

mutual

/-- Whether a range includes an absent version: nothing compares to it, and it equals no version. -/
def includesAbsent : Range → Except Failure Bool
  | base bound | minimum bound | maximum bound | bounded bound _ _ _ =>
    fail (.versionNumbers (some bound) none)
  | exact _ | unsatisfiable => .ok false
  | union members => someIncludeAbsent members
  | intersection members => allIncludeAbsent members

/-- Whether some range includes an absent version. -/
def someIncludeAbsent : List Range → Except Failure Bool
  | [] => .ok false
  | range :: ranges => do
    if ← includesAbsent range then return true else someIncludeAbsent ranges

/-- Whether all ranges include an absent version. -/
def allIncludeAbsent : List Range → Except Failure Bool
  | [] => .ok true
  | range :: ranges => do
    if ← includesAbsent range then allIncludeAbsent ranges else return false

end

/-- Whether a range includes a version. -/
def includesGiven (range : Range) : Option Text → Except Failure Bool
  | some version => range.includes version
  | none => range.includesAbsent

end Range

namespace Builder

def addKindGiven (builder : Builder) (kind : Option Text) : Except Fault Builder := do
  builder.addKind (← Argument.kind.given kind)

/-- Sets a metadata entry. -/
def addMetadataGiven (builder : Builder) (name value : Option Text) : Except Fault Builder := do
  builder.addMetadata (← Argument.metadata.given name) (← Argument.metadata.given value)

end Builder

namespace DependencyList

/-- The list of some dependencies. -/
def ofListGiven (dependencies : Option (List Dependency)) : Except Fault DependencyList :=
  ofList <$> Argument.dependencies.given dependencies

/--
The list with every dependency transformed or dropped by a transformation that may fail. The empty
list needs no transformation.
-/
def filterGiven (transformation : Option (Dependency → Except Fault (Option Dependency)))
    (list : DependencyList) : Except Fault (Transformed DependencyList) := do
  if list.isEmpty then
    return ⟨list, true⟩
  else
    let change ← Argument.transformation.given transformation
    return list.replace (← list.dependencies.mapM change)

end DependencyList

namespace Declarations

/-- The declarations of some entries. -/
def ofEntriesGiven (entries : Option (List (Identifier × DependencyList))) :
    Except Fault Declarations := do
  ofEntries (← Argument.dependencies.given entries)

/-- The dependency list of a target; an absent target has none. -/
def getGiven (declarations : Declarations) (target : Option Identifier) : Option DependencyList :=
  target.bind declarations.get?

/-- The declarations with every list transformed or dropped by a transformation that may fail. -/
def filterGiven
    (transformation : Option (Identifier → DependencyList → Except Fault (Option DependencyList)))
    (declarations : Declarations) : Except Fault (Transformed Declarations) := do
  let change ← Argument.transformation.given transformation
  return declarations.replace
    (← declarations.entries.mapM fun (target, list) => change target list)

/--
The declarations that a source delivers to a bundle, which is given by the text of its identifier.
-/
def ofSourceGiven (host : Host) (declaring : Option Text) (source : Option Source) :
    Except Fault Declarations := do
  let given ← Argument.source.given source
  match declaring with
  | none => ofSourceWithin host none given
  | some text => ofSourceWithin host (some (← Identifier.ofText text)) given

/-- The written form of declarations. -/
def toTextGiven (declarations : Option Declarations) : Except Fault Text :=
  toText <$> Argument.declarations.given declarations

/-- Writes declarations to a receiver, if there is one. -/
def writeGiven (receiver : Option Receiver) (declarations : Option Declarations) :
    Except Fault Output :=
  Output.ofText receiver <$> toTextGiven declarations

end Declarations

end BundleDecl
