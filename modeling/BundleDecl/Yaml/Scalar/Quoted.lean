import BundleDecl.Entries
import BundleDecl.Yaml.Number
import BundleDecl.Yaml.Scalar.Plain

/-!
# Quoted scalars

Between single quotes every character stands for itself, and a quote is written twice. Between
double quotes a backslash starts an escape sequence. In both styles line breaks are folded as in
plain scalars, and no line may start with the mark of a document.
-/

namespace BundleDecl

namespace Yaml

namespace Quoted

/-- The characters that one character after a backslash stands for. -/
def letterEscapes : List (Char × Char) :=
  [('0', '\x00'), ('a', '\x07'), ('b', '\x08'), ('t', '\t'), ('\t', '\t'), ('n', '\n'),
    ('v', '\x0b'), ('f', '\x0c'), ('r', '\r'), ('e', '\x1b'), (' ', ' '), ('"', '"'), ('\\', '\\'),
    ('/', '/'), ('N', '\u0085'), ('_', '\u00a0'), ('L', '\u2028'), ('P', '\u2029')]

/-- The numbers of hexadecimal digits after the letters of numeric escapes. -/
def numericEscapes : List (Char × Nat) :=
  [('x', 2), ('u', 4), ('U', 8)]

/-- The number in a numeric escape from its letter on, and the length of the escape. -/
def escapedNumber? : Text → Option (Nat × Nat)
  | [] => none
  | letter :: rest => do
    let width ← Entries.get? letter numericEscapes
    let digits := rest.take width
    if digits.length = width && digits.all isHexDigit then
      some (numberInBase 16 digits, width + 1)
    else
      none

def character (number : Nat) : Except Fault Char :=
  if 0x7FFFFFFF < number then .error .numberTooLarge
  else if 0x10FFFF < number then .error .noCharacter
  else if 0xD800 ≤ number ∧ number ≤ 0xDFFF then .ok '\ufffd'
  else .ok (Char.ofNat number)

/-- The second half of a surrogate pair, escaped at the beginning of a text, and its length. -/
def lowSurrogate? : Text → Option (Nat × Nat)
  | '\\' :: rest => do
    let (number, length) ← escapedNumber? rest
    if 0xDC00 ≤ number ∧ number ≤ 0xDFFF then some (number, length + 1) else none
  | _ => none

/-- The character of a numeric escape, two of which may form a pair, and the length of it all. -/
def escapedCharacter (number length : Nat) (rest : Text) : Except Fault (Char × Nat) :=
  match if 0xD800 ≤ number ∧ number ≤ 0xDBFF then lowSurrogate? rest else none with
  | some (low, more) =>
    .ok (Char.ofNat (0x10000 + (number - 0xD800) * 0x400 + (low - 0xDC00)), length + more)
  | none => do return (← character number, length)

/-- The line breaks and blanks at the beginning of a text, and the place after them. -/
def furtherBreaks : Bool → Text → Place → Except Fault (Text × Place)
  | _, [], place => .ok ([], place)
  | atLineStart, first :: rest, place =>
    if atLineStart && startsWithDocumentMark (first :: rest) then
      .error .malformed
    else if isBlankCharacter first then
      furtherBreaks false rest place.next
    else if isBreak first then do
      let (breaks, last) ← furtherBreaks true rest place.next
      return (unifiedBreak first :: breaks, last)
    else
      .ok ([], place)

def putBefore (text : Text) (reading : Text × Place) : Text × Place :=
  (text ++ reading.1, reading.2)

/--
The rest of a quoted scalar, and the place after its closing quote. The fuel is greater than the
number of the characters from the place on.
-/
def readRest (quote : Char) : Nat → Place → Except Fault (Text × Place)
  | 0, _ => .error .malformed
  | fuel + 1, place =>
    match place.rest with
    | [] => .error .malformed
    | first :: rest =>
      if first = quote then
        if quote = '\'' && rest.head? = some '\'' then
          putBefore ['\''] <$> readRest quote fuel (place.advance 2)
        else
          .ok ([], place.next)
      else if first = '\\' && quote = '"' then
        match rest with
        | [] => .error .malformed
        | letter :: others =>
          match Entries.get? letter letterEscapes, escapedNumber? rest with
          | some escaped, _ => putBefore [escaped] <$> readRest quote fuel (place.advance 2)
          | none, some (number, length) => do
            let (escaped, length) ← escapedCharacter number length (rest.drop length)
            putBefore [escaped] <$> readRest quote fuel (place.advance (length + 1))
          | none, none =>
            if isBreak letter then do
              let (breaks, next) ← furtherBreaks true others (place.advance 2)
              putBefore breaks <$> readRest quote fuel next
            else
              .error .malformed
      else if isSpace first then
        let blanks := place.rest.takeWhile isBlankCharacter
        let after := place.advance blanks.length
        match after.rest with
        | [] => .error .malformed
        | next :: others =>
          if isBreak next then do
            let (breaks, last) ← furtherBreaks true others after.next
            putBefore (folded (unifiedBreak next) breaks) <$> readRest quote fuel last
          else
            putBefore blanks <$> readRest quote fuel after
      else
        putBefore [first] <$> readRest quote fuel place.next

/-- The quoted scalar at the place of its opening quote, and the place after it. -/
def read (quote : Char) (place : Place) : Except Fault (Text × Place) :=
  readRest quote (place.rest.length + 1) place.next

end Quoted

end Yaml

end BundleDecl
