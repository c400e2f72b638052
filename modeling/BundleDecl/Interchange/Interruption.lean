import BundleDecl.Interchange
import BundleDecl.Range.Comparisons

/-!
# Reading JSON declarations within the limits of the host

All violations of a schema are described before the one that counts is chosen. Whatever value one of
them shows may therefore interrupt the check: by a number that has too many digits to be shown, or
by its depth. Without a violation the ranges are read in the order of the entries, up to the first
refusal, and each of them may be interrupted.
-/

namespace BundleDecl

namespace Json

/-- A number with more digits than can be shown. -/
def isLongNumber (value : Int) : Bool :=
  Text.longestNumber < (Text.ofNat value.natAbs).length

mutual

/-- Whether a value holds a number with more digits than can be shown. -/
def holdsLongNumber : Json → Bool
  | integer value => isLongNumber value
  | array items => someHoldsLongNumber items
  | object members => someMemberHoldsLongNumber members
  | null | boolean _ | real _ | string _ => false

/-- Whether an item of an array holds a number with more digits than can be shown. -/
def someHoldsLongNumber : List Json → Bool
  | [] => false
  | item :: items => item.holdsLongNumber || someHoldsLongNumber items

/-- Whether a member of an object holds a number with more digits than can be shown. -/
def someMemberHoldsLongNumber : List (Text × Json) → Bool
  | [] => false
  | (_, value) :: members => value.holdsLongNumber || someMemberHoldsLongNumber members

end

/-- The interruption of the showing of a value. -/
def interruption? (host : Host) (value : Json) : Option Interruption :=
  (host.interruption? (.shown value)).or
    (if value.holdsLongNumber then some .rendering else none)

end Json

namespace Schema

/-- The value that the description of a problem shows, if it shows one. -/
def Problem.shown? : Problem → Option Json
  | otherType value _ | empty value => some value
  | missing _ | unexpected _ => none

/-- The interruption of the description of the violations of a schema. -/
def interruption? (host : Host) (schema : Schema) (value : Json) : Option Interruption :=
  (schema.violations value).findSome? fun violation =>
    violation.problem.shown?.bind (Json.interruption? host)

end Schema

namespace Declarations

/-- The interruption of the reading of a dependency from a JSON value of the right form. -/
def entryInterruption? (host : Host) (_ : Unit) (value : Json) : Option Interruption :=
  Range.interruption? host (value.member "range").asText

/-- Reads a dependency, of which nothing is kept. -/
def entryStep (_ : Unit) (value : Json) : Except Failure Unit :=
  discard (Dependency.ofJson value)

/-- The interruption of the reading of one more target. -/
def targetInterruption? (host : Host) (entries : List (Identifier × DependencyList))
    (value : Json) : Option Interruption :=
  match Identifier.ofText (value.member "bundle").asText with
  | .error _ => none
  | .ok target =>
    if Entries.has target entries then
      none
    else
      (firstInterruption? (entryInterruption? host) entryStep ()
        (value.member "entries").asItems).map Prod.fst

/-- The interruption of the reading of a JSON value as declarations. -/
def jsonInterruption? (host : Host) (value : Json) : Option Interruption :=
  match Interchange.declarationsSchema.violation? value with
  | some _ => Interchange.declarationsSchema.interruption? host value
  | none =>
    (firstInterruption? (targetInterruption? host) addTarget []
      (value.member "dependencies").asItems).map Prod.fst

/-- The declarations that a JSON value denotes, within the limits of the host. -/
def ofJsonWithin (host : Host) (value : Json) : Except (Halt Interchange.Refusal) Declarations :=
  interruptedBy (jsonInterruption? host value) (ofJson value)

/-- The declarations that JSON text denotes, within the limits of the host. -/
def ofJsonTextWithin (host : Host) (text : Text) :
    Except (Halt Interchange.Refusal) Declarations := do
  let value ← (Interchange.read text).mapError .refused
  let interruption := (host.interruption? (.document text)).or
    ((Json.longNumber? text).map fun number => .conversion number.length)
  ofJsonWithin host (← interruptedBy interruption (.ok value))

end Declarations

end BundleDecl
