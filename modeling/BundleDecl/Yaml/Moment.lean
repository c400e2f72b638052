import BundleDecl.Yaml.Fault

/-!
# Moments in YAML

A moment is a day, or a time of a day to the microsecond, possibly with the distance of its time
zone from universal time. The calendar is the Gregorian one for the years from 1 to 9999.
-/

namespace BundleDecl

namespace Yaml

/-- A day of the calendar. -/
structure Day where
  year : Nat
  /-- The month, counted from one. -/
  month : Nat
  /-- The day of the month, counted from one. -/
  day : Nat
  deriving DecidableEq, Repr

namespace Day

/-- Whether a year has a day more. -/
def isLeap (year : Nat) : Bool :=
  year % 4 = 0 && (year % 100 != 0 || year % 400 = 0)

/-- The number of days of a month. -/
def daysIn (year month : Nat) : Nat :=
  if month = 2 then (if isLeap year then 29 else 28)
  else if [4, 6, 9, 11].contains month then 30
  else 31

/-- A day that exists. -/
def check (day : Day) : Except Fault Unit :=
  if day.year = 0 then .error (.year day.year)
  else if day.month = 0 ∨ 12 < day.month then .error .month
  else if day.day = 0 ∨ daysIn day.year day.month < day.day then .error .day
  else .ok ()

end Day

structure Time where
  hour : Nat
  minute : Nat
  second : Nat
  microsecond : Nat
  /-- The distance from universal time in seconds, if it is known. -/
  offset : Option Int
  deriving DecidableEq, Repr

namespace Time

/-- The time zone of a time, which must be less than a day away. -/
def checkOffset (time : Time) : Except Fault Unit :=
  match time.offset with
  | some seconds => if seconds.natAbs < 86400 then .ok () else .error (.offset seconds)
  | none => .ok ()

/-- The hour, minute and second of a time, which must exist. -/
def checkClock (time : Time) : Except Fault Unit :=
  if 24 ≤ time.hour then .error .hour
  else if 60 ≤ time.minute then .error .minute
  else if 60 ≤ time.second then .error .second
  else .ok ()

end Time

structure Moment where
  day : Day
  time : Option Time
  deriving DecidableEq, Repr

namespace Moment

/-- A moment that exists. Its time zone is looked at first. -/
def check (moment : Moment) : Except Fault Moment := do
  moment.time.forM Time.checkOffset
  moment.day.check
  moment.time.forM Time.checkClock
  return moment

/-- A number of decimal digits at the beginning of a text, as many as possible, and the rest. -/
def takeDigits? (least most : Nat) (text : Text) : Option (Nat × Text) :=
  let digits := (text.take most).takeWhile Char.isDigit
  if digits.length < least then none else some (Text.toNat digits 0, text.drop digits.length)

/-- What follows a certain character. -/
def after? (character : Char) : Text → Option Text
  | first :: rest => if first = character then some rest else none
  | [] => none

/-- The first six digits after the point of a second, as microseconds. -/
def microseconds (digits : Text) : Nat :=
  let kept := digits.take 6
  Text.toNat kept 0 * Nat.pow 10 (6 - kept.length)

/-- The time zone at the end of a text, if there is nothing else. -/
def offset? (text : Text) : Option (Option Int) :=
  match text.dropWhile fun character => character = ' ' || character = '\t' with
  | [] => if text = [] then some none else none
  | 'Z' :: rest => if rest = [] then some (some 0) else none
  | sign :: rest => do
    let (hours, rest) ← takeDigits? 1 2 rest
    let (minutes, rest) ← if rest = [] then some (0, []) else after? ':' rest >>= takeDigits? 2 2
    let seconds : Int := 3600 * hours + 60 * minutes
    if rest ≠ [] then none
    else if sign = '-' then some (some (-seconds))
    else if sign = '+' then some (some seconds)
    else none

/-- The time of a text that consists of nothing else. -/
def time? (text : Text) : Option Time := do
  let (hour, rest) ← takeDigits? 1 2 text
  let (minute, rest) ← after? ':' rest >>= takeDigits? 2 2
  let (second, rest) ← after? ':' rest >>= takeDigits? 2 2
  let fraction := ((after? '.' rest).getD []).takeWhile Char.isDigit
  let rest := match after? '.' rest with
    | some digits => digits.drop fraction.length
    | none => rest
  return ⟨hour, minute, second, microseconds fraction, ← offset? rest⟩

/-- The moment that a text has the form of, whether or not it exists. -/
def form? (text : Text) : Option Moment := do
  let (year, rest) ← takeDigits? 4 4 text
  let (month, rest) ← after? '-' rest >>= takeDigits? 1 2
  let (day, rest) ← after? '-' rest >>= takeDigits? 1 2
  match rest with
  | [] => return ⟨⟨year, month, day⟩, none⟩
  | separator :: rest =>
    let clock ←
      if separator = 'T' || separator = 't' then some rest
      else if separator = ' ' || separator = '\t' then
        some (rest.dropWhile fun character => character = ' ' || character = '\t')
      else none
    return ⟨⟨year, month, day⟩, some (← time? clock)⟩

/-- Whether a text has the form of a moment; a mere day has two digits for month and day. -/
def isWritten (text : Text) : Bool :=
  (form? text).any fun moment => moment.time.isSome || text.length = 10

/-- A number with at least so many digits. -/
def numberText (width number : Nat) : Text :=
  Text.padded width (Text.ofNat number)

/-- A distance from universal time in hours and minutes. -/
def offsetText (seconds : Int) : Text :=
  (if seconds < 0 then "-" else "+") ++ numberText 2 (seconds.natAbs / 3600) ++ ":" ++
    numberText 2 (seconds.natAbs / 60 % 60)

/-- The time of a day as it is shown. -/
def timeText (time : Time) : Text :=
  numberText 2 time.hour ++ ":" ++ numberText 2 time.minute ++ ":" ++ numberText 2 time.second ++
    (if time.microsecond = 0 then [] else '.' :: numberText 6 time.microsecond) ++
    (time.offset.map offsetText).getD []

/-- A moment as it is shown. -/
def toText (moment : Moment) : Text :=
  numberText 4 moment.day.year ++ "-" ++ numberText 2 moment.day.month ++ "-" ++
    numberText 2 moment.day.day ++ (moment.time.map fun time => ' ' :: timeText time).getD []

end Moment

end Yaml

end BundleDecl
