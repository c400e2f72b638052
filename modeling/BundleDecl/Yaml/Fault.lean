import BundleDecl.Host

/-!
# Faults of YAML documents

Most faults make a text malformed: it is no document, or it uses what no setting needs. The other
faults are found in well-formed documents that name a character, a number or a day that does not
exist; each of them says what is wrong. A number with too many digits is not converted.

The parts of a collection are looked at before the parts of these parts. Of several faults the one
at the least depth therefore counts, and of those at one depth the first one.
-/

namespace BundleDecl

namespace Yaml

/-- Why a text has no value. -/
inductive Fault where
  /-- The text is malformed. -/
  | malformed
  /-- A character beyond the last one is named. -/
  | noCharacter
  /-- A character is named by a number that does not fit into 31 bits. -/
  | numberTooLarge
  /-- A sexagesimal number has so many digits that the value of a place is no finite number. -/
  | placeTooHigh
  /-- A whole number is written with other digits than those of its base, or with none. -/
  | wholeNumber (base : Nat) (digits : Text)
  /-- A number is not written as one. -/
  | realNumber (text : Text)
  /-- A number is to be made of an empty text. -/
  | noNumber
  /-- A truth value is to be made of another word. -/
  | noTruthValue (word : Text)
  /-- A moment is to be made of a text of another form. -/
  | noMoment
  /-- A moment is to be made of a collection. -/
  | noMomentText
  /-- A day is in the year zero. -/
  | year (value : Nat)
  /-- A month is none of the twelve. -/
  | month
  /-- A day is not in its month. -/
  | day
  /-- An hour is none of a day. -/
  | hour
  /-- A minute is none of an hour. -/
  | minute
  /-- A second is none of a minute. -/
  | second
  /-- A time zone is a day or more away, by the given number of seconds. -/
  | offset (seconds : Int)
  /-- The host interrupts a conversion. -/
  | interrupted (interruption : Interruption)
  deriving DecidableEq, Repr

namespace Fault

/-- A span of time as it is shown: in days and seconds, the seconds not being negative. -/
def shownSpan (seconds : Int) : Text :=
  let day : Int := 86400
  let parts : List (Text × Int) :=
    [("days=", Int.fdiv seconds day), ("seconds=", Int.fmod seconds day)]
  let shown := parts.filter fun (_, count) => count ≠ 0
  "datetime.timedelta(" ++
    Text.joinWith ", " (shown.map fun (name, count) => name ++ Text.ofInt count) ++ ")"

/-- The greatest length of the digits that are quoted for a whole number. -/
def longestQuotation : Nat := 200

/-- The description of a fault. -/
def message : Fault → Text
  | malformed => "malformed document"
  | noCharacter => "chr() arg not in range(0x110000)"
  | numberTooLarge => "Python int too large to convert to C int"
  | placeTooHigh => "int too large to convert to float"
  | wholeNumber base digits =>
    "invalid literal for int() with base " ++ Text.ofNat base ++ ": " ++
      (Text.quoted digits).take longestQuotation
  | realNumber text => "could not convert string to float: " ++ Text.quoted text
  | noNumber => "string index out of range"
  | noTruthValue word => Text.quoted word
  | noMoment => "'NoneType' object has no attribute 'groupdict'"
  | noMomentText => "expected string or bytes-like object, got 'list'"
  | year value => "year " ++ Text.ofNat value ++ " is out of range"
  | month => "month must be in 1..12"
  | day => "day is out of range for month"
  | hour => "hour must be in 0..23"
  | minute => "minute must be in 0..59"
  | second => "second must be in 0..59"
  | offset seconds =>
    "offset must be a timedelta strictly between -timedelta(hours=24) and timedelta(hours=24), " ++
      "not " ++ shownSpan seconds ++ "."
  | interrupted interruption => interruption.message

/-- Whether a fault is one that whoever reads a document has to reckon with. -/
def isForeseen : Fault → Bool
  | numberTooLarge | placeTooHigh | noNumber | noTruthValue _ | noMoment | noMomentText => false
  | _ => true

end Fault

/-- Something that is free of faults, or the fault that counts with its depth. -/
abbrev Checked (Result : Type) := Except (Nat × Fault) Result

namespace Checked

variable {First Second Result : Type}

/-- A fault where something is. -/
def fault (fault : Fault) : Checked Result :=
  .error (0, fault)

/-- What may have a fault where it is. -/
def here (checked : Except Fault Result) : Checked Result :=
  checked.mapError (0, ·)

/-- What lies one collection deeper. -/
def deeper (checked : Checked Result) : Checked Result :=
  checked.mapError fun (depth, fault) => (depth + 1, fault)

/-- Two things, both of which are looked at. -/
def both (first : Checked First) (second : Checked Second) : Checked (First × Second) :=
  match first, second with
  | .ok first, .ok second => .ok (first, second)
  | .ok _, .error fault => .error fault
  | .error fault, .ok _ => .error fault
  | .error fault, .error other => .error (if other.1 < fault.1 then other else fault)

/-- One thing in front of several ones. -/
def cons (first : Checked Result) (others : Checked (List Result)) : Checked (List Result) :=
  (both first others).map fun (item, items) => item :: items

/-- Several things in front of other ones. -/
def append (first second : Checked (List Result)) : Checked (List Result) :=
  (both first second).map fun (items, others) => items ++ others

/-- What was checked, without the depth of its fault. -/
def toExcept (checked : Checked Result) : Except Fault Result :=
  checked.mapError Prod.snd

end Checked

end Yaml

end BundleDecl
