import BundleDecl.Declarations
import BundleDecl.Json
import BundleDecl.Version

/-!
# The host

The program runs on a host that sets limits of its own. It converts no numbers of very many digits,
and its stack may be used up by what descends into its input: the reading of a range or of a
document, the showing of a value, the writing of declarations. Such an interruption is no failure:
it has neither a class nor a line, and whoever handles failures does not handle it.

Which descents the stack holds depends on everything that is on it already, and which texts the
standard output takes depends on its encoding. Both are taken as the host has them. Interruptions
cut a computation short and change nothing else: what a computation within these limits results in
is what it results in without them, or the first interruption that it comes to.

A definition that takes no host is the computation without limits. In particular, a range that is
asked whether it includes a version compares versions without a limit.
-/

namespace BundleDecl

/-- What interrupts a computation. -/
inductive Interruption where
  /-- A text with so many digits is to be converted to a number. -/
  | conversion (digits : Nat)
  /-- A number with too many digits is to be converted to a text. -/
  | rendering
  /-- The stack is used up. -/
  | stack
  deriving DecidableEq, Repr

namespace Interruption

/-- The words about a conversion beyond the limit, with what is known about the value. -/
def limitText (known : Text) : Text :=
  "Exceeds the limit (" ++ Text.ofNat Text.longestNumber ++
    " digits) for integer string conversion" ++ known ++
    "; use sys.set_int_max_str_digits() to increase the limit"

/-- The description of an interruption. -/
def message : Interruption → Text
  | conversion digits => limitText (": value has " ++ Text.ofNat digits ++ " digits")
  | rendering => limitText []
  | stack => "maximum recursion depth exceeded"

end Interruption

/-- What descends into its input. -/
inductive Descent where
  /-- The reading of a text as a range. -/
  | range (text : Text)
  /-- The reading of a text as JSON or as YAML. -/
  | document (text : Text)
  /-- The showing of a value in a message. -/
  | shown (value : Json)
  /-- The writing of declarations in one of their forms. -/
  | written (declarations : Declarations)

/-- What the program does not choose itself. -/
structure Host where
  /-- Whether the stack is deep enough for a descent. -/
  holds : Descent → Bool
  /-- Whether the standard output can encode a text. -/
  prints : Text → Bool

namespace Host

/-- The host for inputs that are not deeply nested, with a standard output that takes every text. -/
def usual : Host := ⟨fun _ => true, fun _ => true⟩

/-- The interruption of a descent, if the stack does not hold it. -/
def interruption? (host : Host) (descent : Descent) : Option Interruption :=
  if host.holds descent then none else some .stack

end Host

/-- Why a computation within the limits of the host has no result. -/
inductive Halt (Error : Type) where
  /-- Something is wrong with what it was given. -/
  | refused (error : Error)
  /-- The host interrupted it. -/
  | interrupted (interruption : Interruption)
  deriving DecidableEq, Repr

/-- The outcome of a computation that comes to an interruption, if it comes to one. -/
def interruptedBy {Error Result : Type} (interruption : Option Interruption)
    (outcome : Except Error Result) : Except (Halt Error) Result :=
  match interruption with
  | some interruption => .error (.interrupted interruption)
  | none => outcome.mapError .refused

/--
The first interruption that steps over some items come to, and the items behind the one where it
comes. A step that fails is the last one.
-/
def firstInterruption? {State Item Error : Type}
    (interruption? : State → Item → Option Interruption)
    (step : State → Item → Except Error State) :
    State → List Item → Option (Interruption × List Item)
  | _, [] => none
  | state, item :: rest =>
    match interruption? state item with
    | some interruption => some (interruption, rest)
    | none =>
      match step state item with
      | .ok next => firstInterruption? interruption? step next rest
      | .error _ => none

namespace Version

/-- The interruption of the conversion of a version: its first number with too many digits. -/
def conversion? (version : Text) : Option Interruption :=
  ((Text.splitOn '.' version).find? fun part => Text.longestNumber < part.length).map fun part =>
    .conversion part.length

/--
The interruption of a comparison of two versions, of which the left one is converted first. Equal
texts are not converted, and neither is anything from an empty text or a refused version on.
-/
def interruption? (left right : Text) : Option Interruption :=
  if left = right ∨ right = [] ∨ (components? left).isNone then
    none
  else
    (conversion? left).or (if (components? right).isNone then none else conversion? right)

/-- Compares two version numbers within the limits of the host. -/
def compareNumbersWithin (left right : Text) : Except (Halt Failure) Ordering :=
  interruptedBy (interruption? left right) (compareNumbers left right)

/-- Compares two version qualifiers within the limits of the host. -/
def compareQualifiersWithin (left right : Text) : Except (Halt Failure) Ordering :=
  let interruption := match afterMark? left, afterMark? right with
    | some leftNumber, some rightNumber => interruption? leftNumber rightNumber
    | _, _ => none
  interruptedBy interruption (compareQualifiers left right)

end Version

end BundleDecl
