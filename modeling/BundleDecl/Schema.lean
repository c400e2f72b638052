import BundleDecl.Json
import BundleDecl.SortedSet

/-!
# Schemas

A schema says which form a JSON value must have. What violates it is reported with the path to the
offending part. Of several violations the one with the least path counts; paths are compared step by
step, positions as numbers and names by code point, and the beginning of a path comes before it.
-/

namespace BundleDecl

/-- The form that a JSON value must have. -/
inductive Schema where
  /-- A string, which may be required to hold something. -/
  | text (nonEmpty : Bool)
  /-- An array of items of one form, which may be required to hold something. -/
  | list (nonEmpty : Bool) (items : Schema)
  /-- An object with members of one form under any names. -/
  | dictionary (values : Schema)
  /-- An object with members of their own forms and no others; some of them are required. -/
  | record (required : List Text) (fields : List (Text × Schema))
  deriving Repr

namespace Schema

/-- A step from a value to one of its parts. -/
inductive Step where
  /-- To the item at a position. -/
  | item (position : Nat)
  /-- To the member of a name. -/
  | member (name : Text)
  deriving DecidableEq, Repr

namespace Step

def toText : Step → Text
  | item position => Text.ofNat position
  | member name => name

protected def compare : Step → Step → Ordering
  | item left, item right => compare left right
  | item _, member _ => .lt
  | member _, item _ => .gt
  | member left, member right => compare left right

instance : Ord Step := ⟨Step.compare⟩

end Step

/-- What is wrong with a value or with its parts as a whole. -/
inductive Problem where
  /-- A value of another type than the named one. -/
  | otherType (value : Json) (expected : Text)
  /-- An object without a required member. -/
  | missing (name : Text)
  /-- A string or an array with nothing in it. -/
  | empty (value : Json)
  /-- An object with members that do not belong to it, in the order of their names. -/
  | unexpected (names : List Text)
  deriving Repr

namespace Problem

/-- The description of a problem. -/
def message : Problem → Text
  | otherType value expected => value.shown ++ " is not of type '" ++ expected ++ "'"
  | missing name => Text.quoted name ++ " is a required property"
  | empty value => value.shown ++ " should be non-empty"
  | unexpected names =>
    "Additional properties are not allowed (" ++ Text.joinWith ", " (names.map Text.quoted) ++
      (if names.length = 1 then " was" else " were") ++ " unexpected)"

end Problem

/-- A problem and the path to the part that has it. -/
structure Violation where
  /-- The steps to the part. -/
  path : List Step
  /-- What is wrong with the part. -/
  problem : Problem
  deriving Repr

namespace Violation

/-- A violation of a part as a violation of the whole. -/
def under (step : Step) (violation : Violation) : Violation :=
  ⟨step :: violation.path, violation.problem⟩

/-- The description of a violation. -/
def message (violation : Violation) : Text :=
  "Invalid data at '" ++ Text.joinWith "/" (violation.path.map Step.toText) ++ "': " ++
    violation.problem.message

/-- The first of the violations with the least path. -/
def least? : List Violation → Option Violation
  | [] => none
  | violation :: rest =>
    match least? rest with
    | none => some violation
    | some other =>
      if compare other.path violation.path = .lt then some other else some violation

end Violation

/-- A violation of a value as a whole. -/
def here (problem : Problem) : Violation :=
  ⟨[], problem⟩

/-- The violation of a value that must not be empty, if it is. -/
def emptiness (nonEmpty isEmpty : Bool) (value : Json) : List Violation :=
  if nonEmpty && isEmpty then [here (.empty value)] else []

def missingMembers (required : List Text) (members : List (Text × Json)) : List Violation :=
  (required.filter fun name => !Entries.has name members).map fun name => here (.missing name)

/-- The violation of members that do not belong to an object, if there are any. -/
def unexpectedMembers (names : List Text) (members : List (Text × Json)) : List Violation :=
  match SortedSet.ofList ((members.map Prod.fst).filter fun name => !names.contains name) with
  | [] => []
  | unexpected => [here (.unexpected unexpected)]

/-- The violations of the parts of a value, each under the step to its part. -/
def underEach (violations : Json → List Violation) (parts : List (Step × Json)) : List Violation :=
  parts.flatMap fun (step, part) => (violations part).map (Violation.under step)

mutual

/-- All violations of a schema by a value. -/
def violations : Schema → Json → List Violation
  | text nonEmpty, value =>
    match value with
    | .string content => emptiness nonEmpty content.isEmpty value
    | _ => [here (.otherType value "string")]
  | list nonEmpty items, value =>
    match value with
    | .array parts =>
      underEach (violations items)
        (parts.zipIdx.map fun (part, position) => (.item position, part)) ++
      emptiness nonEmpty parts.isEmpty value
    | _ => [here (.otherType value "array")]
  | dictionary values, value =>
    match value with
    | .object members =>
      underEach (violations values) (members.map fun (name, part) => (.member name, part))
    | _ => [here (.otherType value "object")]
  | record required fields, value =>
    match value with
    | .object members =>
      missingMembers required members ++ fieldViolations fields members ++
        unexpectedMembers (fields.map Prod.fst) members
    | _ => [here (.otherType value "object")]

/-- The violations of the members of an object by the forms of their own. -/
def fieldViolations : List (Text × Schema) → List (Text × Json) → List Violation
  | [], _ => []
  | (name, field) :: fields, members =>
    underEach (violations field) ((Entries.get? name members).toList.map (.member name, ·)) ++
      fieldViolations fields members

end

/-- The violation that counts, if a value violates a schema. -/
def violation? (schema : Schema) (value : Json) : Option Violation :=
  Violation.least? (schema.violations value)

end Schema

end BundleDecl
