import BundleDecl.Binary64
import BundleDecl.Text
import BundleDecl.Text.Digit
import BundleDecl.Yaml.Fault

/-!
# Numbers in YAML

Digits may be grouped by underscores. Whole numbers may be binary, octal, hexadecimal, or
sexagesimal with colons between their digits. Numbers with a point may have an exponent with its
sign, or sexagesimal digits before the point.
-/

namespace BundleDecl

namespace Yaml

/-- A digit of a base below eleven. -/
def isDigitBelow (base : Nat) (character : Char) : Bool :=
  '0' ≤ character && character.toNat < '0'.toNat + base

/-- The value of a hexadecimal digit. -/
def hexDigitValue (digit : Char) : Nat :=
  if digit.isDigit then digit.toNat - '0'.toNat else digit.toLower.toNat - 'a'.toNat + 10

/-- A hexadecimal digit. -/
def isHexDigit (character : Char) : Bool :=
  character.isDigit || ('a' ≤ character.toLower && character.toLower ≤ 'f')

/-- The number that digits of a base denote. -/
def numberInBase (base : Nat) (digits : Text) : Nat :=
  digits.foldl (fun number digit => base * number + hexDigitValue digit) 0

/-- A text without its underscores. -/
def ungrouped (text : Text) : Text :=
  text.filter (· ≠ '_')

/-- Whether a text consists of digits and underscores. -/
def isGrouped (isDigit : Char → Bool) (text : Text) : Bool :=
  text.all fun character => isDigit character || character = '_'

/-- Whether a text consists of digits and underscores, starting with a digit. -/
def isGroupedNumber (text : Text) : Bool :=
  text.head?.any Char.isDigit && isGrouped Char.isDigit text

/-- A sign and what follows it; without a sign a number is positive. -/
def splitSign : Text → Bool × Text
  | '-' :: rest => (true, rest)
  | '+' :: rest => (false, rest)
  | text => (false, text)

/-- White space that may stand around a number; the information separators are none. -/
def isSurrounding (character : Char) : Bool :=
  Text.isWhiteSpace character && !(0x1C ≤ character.toNat && character.toNat ≤ 0x1F)

/-- A number without the white space around it and with the digits of other scripts made plain. -/
def plainNumber (text : Text) : Text :=
  (Text.trim isSurrounding text).map Text.plainDigit

/-- A number below sixty in decimal notation, which is what may follow a colon. -/
def isSexagesimalDigit : Text → Bool
  | [digit] => digit.isDigit
  | [tens, digit] => isDigitBelow 6 tens && digit.isDigit
  | _ => false

namespace WholeNumber

/-- A number with a sign. -/
def withSign (negative : Bool) (number : Int) : Int :=
  if negative then -number else number

/-- Whether a text without a sign has the form of a whole number. -/
def isForm (text : Text) : Bool :=
  match text with
  | '0' :: 'b' :: digits => !digits.isEmpty && isGrouped (isDigitBelow 2) digits
  | '0' :: 'x' :: digits => !digits.isEmpty && isGrouped isHexDigit digits
  | '0' :: digits => isGrouped (isDigitBelow 8) digits
  | _ =>
    match Text.splitOn ':' text with
    | [] => false
    | leading :: parts => isGroupedNumber leading && parts.all isSexagesimalDigit

/-- The marks of bases, which may stand after a zero in front of the digits. -/
def baseMarks : List (Nat × Char) :=
  [(2, 'b'), (8, 'o'), (16, 'x')]

/-- A text without the mark of a base in front of its digits. -/
def withoutMark (base : Nat) : Text → Text
  | '0' :: mark :: digits =>
    if baseMarks.contains (base, mark.toLower) then digits else '0' :: mark :: digits
  | digits => digits

/-- The number that digits of a base denote, if there are only such digits and at least one. There
may be white space around them, and a sign and the mark of the base before them. Decimal digits are
counted before anything else is looked at. -/
def inBase (base : Nat) (isDigit : Char → Bool) (text : Text) : Except Fault Int :=
  let (negative, unsigned) := splitSign (plainNumber text)
  let digits := withoutMark base unsigned
  let count := (digits.takeWhile Char.isDigit).length
  if base = 10 && Text.longestNumber < count then
    .error (.interrupted (.conversion count))
  else if digits.isEmpty || !digits.all isDigit then
    .error (.wholeNumber base text)
  else
    .ok (withSign negative (numberInBase base digits))

/-- The value of a text without a sign and without underscores. -/
def valueOf (text : Text) : Except Fault Int :=
  match text with
  | ['0'] => .ok 0
  | '0' :: 'b' :: digits => inBase 2 (isDigitBelow 2) digits
  | '0' :: 'x' :: digits => inBase 16 isHexDigit digits
  | '0' :: digits => inBase 8 (isDigitBelow 8) ('0' :: digits)
  | _ =>
    (Text.splitOn ':' text).foldlM (fun number part => do
      return 60 * number + (← inBase 10 Char.isDigit part)) 0

/-- Whether a text has the form of a whole number. -/
def isWritten (text : Text) : Bool :=
  isForm (splitSign text).2

/-- The value of a whole number. -/
def ofText (text : Text) : Except Fault Int := do
  let (negative, unsigned) := splitSign (ungrouped text)
  if unsigned = [] then
    .error .noNumber
  else
    return withSign negative (← valueOf unsigned)

end WholeNumber

namespace Number

/-- The words for infinity, which may follow a sign. -/
def infinityWords : List Text :=
  [".inf", ".Inf", ".INF"]

/-- The words for what is no number. -/
def undefinedWords : List Text :=
  [".nan", ".NaN", ".NAN"]

/-- The value of an exponent, if a text is one: nothing, or digits after a mark and maybe a sign. -/
def exponent? : Text → Option Int
  | [] => some 0
  | mark :: rest =>
    let (negative, digits) := splitSign rest
    if (mark = 'e' || mark = 'E') && !digits.isEmpty && digits.all Char.isDigit then
      some (if negative then -(Text.toNat digits 0 : Int) else Text.toNat digits 0)
    else
      none

/-- Whether a text is nothing, or an exponent with its sign. -/
def isSignedExponent (text : Text) : Bool :=
  (exponent? text).isSome && text[1]?.all fun sign => sign = '+' || sign = '-'

/-- The part of a text before its first point and that after it. -/
def splitPoint (text : Text) : Option (Text × Text) :=
  Text.splitFirst? '.' text

/-- A digit or an underscore. -/
def isDigitOrGroup (character : Char) : Bool :=
  character.isDigit || character = '_'

/-- Whether a text has the form of a number with a point. -/
def isWritten (text : Text) : Bool :=
  let (_, unsigned) := splitSign text
  infinityWords.contains unsigned || undefinedWords.contains text ||
    match splitPoint unsigned with
    | none => false
    | some (whole, rest) =>
      match Text.splitOn ':' whole with
      | [[]] =>
        unsigned = text && rest.head?.any Char.isDigit &&
          isSignedExponent (rest.dropWhile isDigitOrGroup)
      | [digits] => isGroupedNumber digits && isSignedExponent (rest.dropWhile isDigitOrGroup)
      | leading :: parts =>
        isGroupedNumber leading && parts.all isSexagesimalDigit && rest.all isDigitOrGroup
      | [] => false

/-- The value of a number without a sign: of a decimal with digits before or after its point, if it
has one, or of a word in lower case. -/
def unsigned? (text : Text) : Option Binary64 :=
  let whole := text.takeWhile Char.isDigit
  let rest := text.drop whole.length
  let afterPoint := if rest.head? = some '.' then rest.tail else []
  let fraction := afterPoint.takeWhile Char.isDigit
  let ending := if rest.head? = some '.' then afterPoint.drop fraction.length else rest
  if text = "inf" || text = "infinity" then
    some (.infinite false)
  else if text = "nan" then
    some .undefined
  else if (whole ++ fraction).isEmpty then
    none
  else
    (exponent? ending).map fun exponent =>
      .ofDecimal false (Text.toNat (whole ++ fraction) 0) (exponent - fraction.length)

/-- A number with a sign. -/
def withSign (negative : Bool) (number : Binary64) : Binary64 :=
  if negative then number.negate else number

/-- The value of a number in lower case. There may be white space around it and a sign before it. -/
def decimal (text : Text) : Except Fault Binary64 :=
  let (negative, unsigned) := splitSign (plainNumber text)
  match unsigned? unsigned with
  | some number => .ok (withSign negative number)
  | none => .error (.realNumber text)

/-- The number that a sexagesimal digit is to be multiplied by at a place, if it is finite. -/
def placeValue (place : Nat) : Except Fault Binary64 :=
  match Binary64.ofFraction false (Nat.pow 60 place) 1 with
  | .finite negative significand exponent => .ok (.finite negative significand exponent)
  | _ => .error .placeTooHigh

/-- The sum of sexagesimal digits, taken from the last one on and rounded at every step. -/
def sexagesimal (parts : List Text) : Except Fault Binary64 := do
  let digits ← parts.mapM decimal
  digits.reverse.zipIdx.foldlM (fun sum (digit, place) => do
    return sum.add (digit.mul (← placeValue place))) (Binary64.ofFraction false 0 1)

/-- The value of a number with a point. -/
def ofText (text : Text) : Except Fault Binary64 :=
  let lowered := Text.lower (ungrouped text)
  let (negative, unsigned) := splitSign lowered
  if lowered = [] then
    .error .noNumber
  else if unsigned = ".inf" then
    .ok (.infinite negative)
  else if unsigned = ".nan" then
    .ok .undefined
  else
    withSign negative <$> match Text.splitOn ':' unsigned with
      | [_] => decimal unsigned
      | parts => sexagesimal parts

end Number

end Yaml

end BundleDecl
