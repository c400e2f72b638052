import BundleDecl.Failure

/-!
# Versions

A version number is a sequence of numbers between dots. Versions are compared number by number; if
one version continues the other, the longer one is greater, so that `1 < 1.0 < 1.0.0` and a version
followed by `.0` is its immediate successor. Comparison admits leading zeros, validity does not. A
version qualifier is a version number after the letter `v`.
-/

namespace BundleDecl

namespace Version

/-- A non-empty sequence of decimal digits. -/
def isNumber (digits : Text) : Bool :=
  !digits.isEmpty && digits.all Char.isDigit

/-- The numbers of a version, however many digits they have, if it consists of numbers between
dots. -/
def components? (version : Text) : Option (List Nat) :=
  let pieces := Text.splitOn '.' version
  if pieces.all isNumber then some (pieces.map (Text.toNat · 0)) else none

/-- The numbers of a version; other texts are refused. -/
def components (version : Text) : Except Failure (List Nat) :=
  match components? version with
  | some numbers => .ok numbers
  | none => fail (.versionNumberFormat version)

/-- Compares two versions; equal texts are equal whatever they are. -/
def compareTexts (left right : Text) : Except Failure Ordering := do
  if left = right then
    return .eq
  return compare (← components left) (← components right)

/-- Compares two version numbers. -/
def compareNumbers (left right : Text) : Except Failure Ordering :=
  if left = [] ∨ right = [] then
    fail (.versionNumbers left right)
  else
    compareTexts left right

/-- Whether a version number is less than another one. -/
def isBelow (left right : Text) : Bool :=
  match compareNumbers left right with
  | .ok .lt => true
  | _ => false

/-- The letter before the version number of a version qualifier. -/
def isMark (character : Char) : Bool :=
  character = 'v' || character = 'V'

/-- The part of a text after the mark of a version, if it starts with one and something follows. -/
def afterMark? : Text → Option Text
  | mark :: first :: rest => if isMark mark then some (first :: rest) else none
  | _ => none

/-- Compares two version qualifiers. -/
def compareQualifiers (left right : Text) : Except Failure Ordering :=
  match afterMark? left, afterMark? right with
  | some leftNumber, some rightNumber => compareTexts leftNumber rightNumber
  | _, _ => fail (.versionQualifiers left right)

/-- The immediate successor of a version. -/
def next (version : Text) : Except Failure Text :=
  if version = [] then fail .emptyVersion else .ok (version ++ ".0")

/-- The number of components of a version. -/
def componentCount (version : Text) : Except Failure Nat :=
  if version = [] then fail .emptyVersionNumber else .ok (version.count '.' + 1)

/-- A decimal number without superfluous zeros at its start. -/
def isCanonicalNumber (digits : Text) : Bool :=
  isNumber digits && (digits = ['0'] || digits.head? != some '0')

/-- A valid version number. -/
def isValid (version : Text) : Bool :=
  (Text.splitOn '.' version).all isCanonicalNumber

/-- A version qualifier: a valid version number after the mark. -/
def isQualifier : Text → Bool
  | mark :: number => isMark mark && isValid number
  | [] => false

/-- The version qualifier of a version number. -/
def toQualifier (version : Text) : Text :=
  'v' :: version

/-- The version number in a version qualifier; only its mark is checked. -/
def ofQualifier : Text → Except Failure Text
  | [] => fail .emptyVersionQualifier
  | mark :: number =>
    if isMark mark then .ok number else fail (.versionQualifierFormat (mark :: number))

/-- The one version qualifier among some qualifiers; none if there are several. -/
def findQualifier (qualifiers : List Text) : Option Text :=
  match qualifiers.filter isQualifier with
  | [qualifier] => some qualifier
  | _ => none

end Version

end BundleDecl
