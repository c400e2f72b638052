import BundleDecl.Text

/-!
# Binary floating-point numbers

A finite number is a significand times a power of two, with at most 53 bits in the significand and
an exponent from -1074 to 971. A decimal is read to the nearest such number, a tie going to the even
significand, and a number is written with the fewest decimal digits that read back. All arithmetic
is exact arithmetic on natural numbers.
-/

namespace BundleDecl

/-- A binary floating-point number of double precision. -/
inductive Binary64 where
  /-- The significand times two to the exponent, possibly negated. -/
  | finite (negative : Bool) (significand : Nat) (exponent : Int)
  /-- Either infinity. -/
  | infinite (negative : Bool)
  /-- No number at all. -/
  | undefined
  deriving DecidableEq, Repr

namespace Binary64

/-- The quotient rounded to the nearest natural number, a tie going to the even one. -/
def roundedQuotient (numerator denominator : Nat) : Nat :=
  let quotient := numerator / denominator
  let remainder := numerator % denominator
  if 2 * remainder < denominator then
    quotient
  else if denominator < 2 * remainder then
    quotient + 1
  else
    quotient + quotient % 2

/-- The least exponent of a finite number. -/
def leastExponent : Int := -1074

/-- The greatest exponent of a finite number. -/
def greatestExponent : Int := 971

/-- The exponent at which a positive fraction has a significand of 53 bits, or the least one. -/
def exponentFor (numerator denominator : Nat) : Int :=
  let lower : Int := (Nat.log2 numerator : Int) - (Nat.log2 denominator : Int) - 53
  let scaled :=
    if 0 ≤ lower then
      numerator / (denominator * Nat.pow 2 lower.toNat)
    else
      numerator * Nat.pow 2 (-lower).toNat / denominator
  max leastExponent (if Nat.pow 2 53 ≤ scaled then lower + 1 else lower)

/-- The number nearest to a fraction. -/
def ofFraction (negative : Bool) (numerator denominator : Nat) : Binary64 :=
  if numerator = 0 then
    .finite negative 0 leastExponent
  else
    let exponent := exponentFor numerator denominator
    let significand :=
      if 0 ≤ exponent then
        roundedQuotient numerator (denominator * Nat.pow 2 exponent.toNat)
      else
        roundedQuotient (numerator * Nat.pow 2 (-exponent).toNat) denominator
    let (significand, exponent) :=
      if significand = Nat.pow 2 53 then (Nat.pow 2 52, exponent + 1) else (significand, exponent)
    if greatestExponent < exponent then
      .infinite negative
    else
      .finite negative significand exponent

/--
The number nearest to a decimal, given by its digits as one natural number and a power of ten.
Decimals that are certainly too large or too small are not expanded.
-/
def ofDecimal (negative : Bool) (digits : Nat) (power : Int) : Binary64 :=
  let magnitude : Int := ((Text.ofNat digits).length : Int) + power
  if digits = 0 ∨ magnitude < -400 then
    .finite negative 0 leastExponent
  else if 400 < magnitude then
    .infinite negative
  else if 0 ≤ power then
    ofFraction negative (digits * Nat.pow 10 power.toNat) 1
  else
    ofFraction negative digits (Nat.pow 10 (-power).toNat)

/-- The numerator and denominator of a significand times a power of two. -/
def fraction (significand : Nat) (exponent : Int) : Nat × Nat :=
  if 0 ≤ exponent then
    (significand * Nat.pow 2 exponent.toNat, 1)
  else
    (significand, Nat.pow 2 (-exponent).toNat)

/-- The number nearest to a significand times a power of two. -/
def ofScaled (negative : Bool) (significand : Nat) (exponent : Int) : Binary64 :=
  let (numerator, denominator) := fraction significand exponent
  ofFraction negative numerator denominator

/-- The number with the opposite sign. -/
def negate : Binary64 → Binary64
  | finite negative significand exponent => finite (!negative) significand exponent
  | infinite negative => infinite (!negative)
  | undefined => undefined

/-- A signed significand in units of a smaller power of two. -/
def inUnits (negative : Bool) (significand : Nat) (exponent unit : Int) : Int :=
  let magnitude : Int := significand * Nat.pow 2 (exponent - unit).toNat
  if negative then -magnitude else magnitude

/-- The number nearest to a sum. -/
def add : Binary64 → Binary64 → Binary64
  | finite negative significand exponent, finite negative' significand' exponent' =>
    let unit := min exponent exponent'
    let sum := inUnits negative significand exponent unit +
      inUnits negative' significand' exponent' unit
    ofScaled (sum < 0 || (sum = 0 && negative && negative')) sum.natAbs unit
  | infinite negative, infinite negative' =>
    if negative = negative' then infinite negative else undefined
  | infinite negative, finite .. | finite .., infinite negative => infinite negative
  | undefined, _ | _, undefined => undefined

/-- The number nearest to a product. -/
def mul : Binary64 → Binary64 → Binary64
  | finite negative significand exponent, finite negative' significand' exponent' =>
    ofScaled (negative != negative') (significand * significand') (exponent + exponent')
  | infinite negative, infinite negative' => infinite (negative != negative')
  | infinite negative, finite negative' significand _
  | finite negative' significand _, infinite negative =>
    if significand = 0 then undefined else infinite (negative != negative')
  | undefined, _ | _, undefined => undefined

/-- The whole number that a number is, if it is one. -/
def toInt? : Binary64 → Option Int
  | finite negative significand exponent =>
    let (numerator, denominator) := fraction significand exponent
    if numerator % denominator = 0 then
      let magnitude : Int := numerator / denominator
      some (if negative then -magnitude else magnitude)
    else
      none
  | infinite _ | undefined => none

/-- The greatest power of ten that is not above a positive fraction. -/
def decimalMagnitude (numerator denominator : Nat) : Int :=
  let upper : Int :=
    ((Text.ofNat numerator).length : Int) - ((Text.ofNat denominator).length : Int)
  let reached :=
    if 0 ≤ upper then
      denominator * Nat.pow 10 upper.toNat ≤ numerator
    else
      denominator ≤ numerator * Nat.pow 10 (-upper).toNat
  if reached then upper else upper - 1

/-- The fraction divided by a power of ten, as a fraction. -/
def inUnitsOf (power : Int) (numerator denominator : Nat) : Nat × Nat :=
  if 0 ≤ power then
    (numerator, denominator * Nat.pow 10 power.toNat)
  else
    (numerator * Nat.pow 10 (-power).toNat, denominator)

/--
The decimal with the given number of digits that reads back as the number, if there is one: of the
two neighbours on that decimal grid the nearer one that reads back.
-/
def decimalOfLength? (significand : Nat) (exponent : Int) (length : Nat) : Option (Nat × Int) :=
  let (numerator, denominator) := fraction significand exponent
  let power := decimalMagnitude numerator denominator - (length : Int) + 1
  let (scaled, unit) := inUnitsOf power numerator denominator
  let nearest := roundedQuotient scaled unit
  let floor := scaled / unit
  let other := if nearest = floor then floor + 1 else floor
  let number := ofFraction false numerator denominator
  if ofDecimal false nearest power = number then
    some (nearest, power)
  else if ofDecimal false other power = number then
    some (other, power)
  else
    none

/-- The shortest decimal that reads back as a positive number; seventeen digits always suffice. -/
def shortestDecimal (significand : Nat) (exponent : Int) : Nat × Int :=
  ((List.range 17).findSome? fun index => decimalOfLength? significand exponent (index + 1)).getD
    (significand, exponent)

/-- How a finite number is laid out in decimal notation. -/
structure Layout where
  /-- The least power of ten that is written positionally. -/
  leastPositional : Int
  /-- The least power of ten that needs an exponent. -/
  leastExponential : Int
  /-- The least number of digits in an exponent. -/
  exponentDigits : Nat

/-- Powers of ten from -4 to 15 are positional, and an exponent has a sign and two digits. -/
def Layout.standard : Layout := ⟨-4, 16, 2⟩

/-- Digits with the decimal point after the given number of them, at least one on either side. -/
def positional (digits : Text) (integerDigits : Int) : Text :=
  if integerDigits ≤ 0 then
    "0." ++ List.replicate (-integerDigits).toNat '0' ++ digits
  else
    let count := integerDigits.toNat
    if digits.length ≤ count then
      digits ++ List.replicate (count - digits.length) '0' ++ ".0"
    else
      digits.take count ++ "." ++ digits.drop count

/-- Digits with the decimal point after the first of them, and a power of ten. -/
def exponential (layout : Layout) (digits : Text) (power : Int) : Text :=
  let significand :=
    match digits with
    | first :: second :: rest => first :: '.' :: second :: rest
    | short => short
  significand ++ "e" ++ (if power < 0 then "-" else "+") ++
    Text.padded layout.exponentDigits (Text.ofNat power.natAbs)

/-- The shortest decimal notation of a finite number. -/
def finiteText (layout : Layout) (significand : Nat) (exponent : Int) : Text :=
  if significand = 0 then
    "0.0"
  else
    let (number, power) := shortestDecimal significand exponent
    let digits := Text.trimEnd (· = '0') (Text.ofNat number)
    let magnitude := power + ((Text.ofNat number).length : Int) - 1
    if layout.leastPositional ≤ magnitude ∧ magnitude < layout.leastExponential then
      positional digits (magnitude + 1)
    else
      exponential layout digits magnitude

/-- The words for the values that have no digits. -/
structure Words where
  /-- The word for infinity, written after the sign. -/
  infinity : Text
  /-- The word for no number. -/
  undefined : Text

/-- The text of a number, with the words to use for infinity and for no number. -/
def toText (words : Words) : Binary64 → Text
  | finite negative significand exponent =>
    (if negative then "-" else "") ++ finiteText Layout.standard significand exponent
  | infinite negative => (if negative then "-" else "") ++ words.infinity
  | undefined => words.undefined

end Binary64

end BundleDecl
