import BundleDecl.Declarations
import BundleDecl.Dependency.Builder
import BundleDecl.Json.Parser
import BundleDecl.Json.Printer
import BundleDecl.Range.Parser
import BundleDecl.Schema

/-!
# Interchange of declarations and identifiers as JSON

Declarations are an object whose member `dependencies` lists the targets in order, each with the
entries of its dependency list; an identifier is an object of its name and its two kinds of
qualifiers. Whatever is read is checked against a schema first.
-/

namespace BundleDecl

namespace Json

/-- The characters of a string; other values have none. -/
def asText : Json → Text
  | string text => text
  | _ => []

/-- The items of an array; other values have none. -/
def asItems : Json → List Json
  | array items => items
  | _ => []

/-- The members of an object; other values have none. -/
def asMembers : Json → List (Text × Json)
  | object members => members
  | _ => []

/-- The member of a name; a missing member is `null`. -/
def member (name : Text) (value : Json) : Json :=
  (Entries.get? name value.asMembers).getD null

/-- The texts of an array of strings. -/
def asTexts (value : Json) : List Text :=
  value.asItems.map asText

/-- The array of some strings. -/
def ofTexts (texts : List Text) : Json :=
  array (texts.map string)

end Json

namespace Interchange

/-- Why JSON text is no declarations or no identifier. -/
inductive Refusal where
  /-- It is no JSON. -/
  | unreadable
  /-- It has not the form that it must have. -/
  | schema (violation : Schema.Violation)
  /-- It has two targets with one identifier. -/
  | repeatedBundle (identifier : Identifier)
  /-- Its version is not where it must stand. -/
  | misplacedVersion (identifier : Identifier)
  /-- One of its parts is refused. -/
  | failure (failure : Failure)
  deriving Repr

namespace Refusal

/-- The description of a refusal. -/
def message : Refusal → Text
  | unreadable => "Malformed JSON"
  | schema violation => violation.message
  | repeatedBundle identifier => "Duplicate bundle in dependencies: " ++ identifier.toText
  | misplacedVersion identifier =>
    "Meta-qualifiers do not match identifier grammar: " ++ identifier.toText
  | failure found => found.message

end Refusal

instance : MonadLift (Except Failure) (Except Refusal) where
  monadLift result := result.mapError Refusal.failure

/-- Refuses values that violate a schema. -/
def check (schema : Schema) (value : Json) : Except Refusal Unit :=
  match schema.violation? value with
  | none => .ok ()
  | some violation => .error (.schema violation)

/-- The value that JSON text denotes. -/
def read (text : Text) : Except Refusal Json :=
  match Json.ofText? text with
  | some value => .ok value
  | none => .error .unreadable

/-- The form of identifiers. -/
def identifierSchema : Schema :=
  .record ["name"] [
    ("name", .text true),
    ("qualifiers", .list false (.text false)),
    ("meta_qualifiers", .list false (.text false))]

/-- The form of dependencies. -/
def dependencySchema : Schema :=
  .record ["kinds", "range"] [
    ("kinds", .list true (.text false)),
    ("range", .text true),
    ("metadata", .dictionary (.text false))]

/-- The form of a target and its dependency list. -/
def targetSchema : Schema :=
  .record ["bundle", "entries"] [
    ("bundle", .text true),
    ("entries", .list false dependencySchema)]

/-- The form of declarations. -/
def declarationsSchema : Schema :=
  .record ["dependencies"] [("dependencies", .list false targetSchema)]

end Interchange

open Interchange (Refusal)

namespace Identifier

def toJson (identifier : Identifier) : Json :=
  .object [
    ("name", .string identifier.name),
    ("qualifiers", .ofTexts identifier.qualifiers),
    ("meta_qualifiers", .ofTexts identifier.metaQualifiers)]

/--
The identifier that a JSON value denotes. Its parts are read like the text of an identifier, and the
version must be the one that stands among the meta-qualifiers.
-/
def ofJson (value : Json) : Except Refusal Identifier := do
  Interchange.check Interchange.identifierSchema value
  let metaQualifiers := (value.member "meta_qualifiers").asTexts
  let identifier ← ofText (Text.joinWith "-"
    ((value.member "name").asText :: (value.member "qualifiers").asTexts ++ metaQualifiers))
  if identifier.metaQualifiers = SortedSet.ofList (metaQualifiers.map Text.lower) then
    return identifier
  else
    .error (.misplacedVersion identifier)

/-- The identifier that JSON text denotes. -/
def ofJsonText (text : Text) : Except Refusal Identifier := do
  ofJson (← Interchange.read text)

end Identifier

namespace Dependency

def toJson (dependency : Dependency) : Json :=
  .object [
    ("kinds", .ofTexts dependency.kinds),
    ("range", .string dependency.range.toText),
    ("metadata", .object (dependency.metadata.map fun (name, value) => (name, .string value)))]

/-- The dependency that a JSON value of the right form denotes. -/
def ofJson (value : Json) : Except Failure Dependency := do
  let range ← Range.ofText (value.member "range").asText
  let kinds := (value.member "kinds").asTexts
  let withKinds ← kinds.foldlM Builder.addKind (({} : Builder).setRange (some range))
  let complete ← (value.member "metadata").asMembers.foldlM
    (fun builder (name, content) => builder.addMetadata name content.asText) withKinds
  complete.build

end Dependency

namespace Declarations

def toJson (declarations : Declarations) : Json :=
  .object [("dependencies", .array (declarations.entries.map fun (target, list) =>
    .object [
      ("bundle", .string target.toText),
      ("entries", .array (list.dependencies.map Dependency.toJson))]))]

def toJsonText (indent : Option Nat) (declarations : Declarations) : Text :=
  declarations.toJson.toText indent

/-- The dependency list that a JSON value of the right form denotes. -/
def listOfJson (value : Json) : Except Failure DependencyList :=
  DependencyList.ofList <$> value.asItems.mapM Dependency.ofJson

/-- The entries with the entry of one more target, which must be a new one. -/
def addTarget (entries : List (Identifier × DependencyList)) (value : Json) :
    Except Refusal (List (Identifier × DependencyList)) := do
  let target ← Identifier.ofText (value.member "bundle").asText
  if Entries.has target entries then
    .error (.repeatedBundle target)
  else
    return entries ++ [(target, ← listOfJson (value.member "entries"))]

/-- The declarations that a JSON value denotes, however long and deep its ranges are. -/
def ofJson (value : Json) : Except Refusal Declarations := do
  Interchange.check Interchange.declarationsSchema value
  ofEntries (← (value.member "dependencies").asItems.foldlM addTarget [])

/-- The declarations that JSON text denotes. -/
def ofJsonText (text : Text) : Except Refusal Declarations := do
  ofJson (← Interchange.read text)

end Declarations

end BundleDecl
