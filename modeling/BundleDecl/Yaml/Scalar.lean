import BundleDecl.Json.Printer
import BundleDecl.Text
import BundleDecl.Yaml.Moment
import BundleDecl.Yaml.Node

/-!
# Scalar values of YAML documents

A plain scalar stands for what its form says: a truth value, nothing, a number, a moment, or else a
text. A tag says what a text is to be taken for, whatever its form.

Bytes are written with sixty-four characters, each of which stands for six bits, so that four of
them make up three bytes. Characters outside this alphabet count for nothing. Equals signs fill up
the last four characters; where they do so, the text ends.
-/

namespace BundleDecl

namespace Text

namespace Base64

/-- The number that a character stands for. -/
def sextet? (character : Char) : Option Nat :=
  if 'A' ≤ character ∧ character ≤ 'Z' then some (character.toNat - 'A'.toNat)
  else if 'a' ≤ character ∧ character ≤ 'z' then some (character.toNat - 'a'.toNat + 26)
  else if '0' ≤ character ∧ character ≤ '9' then some (character.toNat - '0'.toNat + 52)
  else if character = '+' then some 62
  else if character = '/' then some 63
  else none

/--
The bytes of a text that continues a group of four characters. So many of them are known, the last
one by the bits of its number that are left, and so many signs that fill up the group were seen.
-/
def decodeFrom (position signs last : Nat) : Text → Option (List UInt8)
  | [] => if position = 0 then some [] else none
  | first :: rest =>
    if first = '=' then
      if position < 2 then decodeFrom position signs last rest
      else if 4 ≤ position + signs + 1 then some []
      else decodeFrom position (signs + 1) last rest
    else
      match sextet? first, position with
      | none, _ => decodeFrom position signs last rest
      | some next, 0 => decodeFrom 1 0 next rest
      | some next, 1 => ((last * 4 + next / 16).toUInt8 :: ·) <$> decodeFrom 2 0 (next % 16) rest
      | some next, 2 => ((last * 16 + next / 4).toUInt8 :: ·) <$> decodeFrom 3 0 (next % 4) rest
      | some next, _ => ((last * 64 + next).toUInt8 :: ·) <$> decodeFrom 0 0 0 rest

/-- The bytes of a text, unless it ends within a group or holds a character that is not ASCII. -/
def decode? (text : Text) : Option (List UInt8) :=
  if text.all (·.toNat < 0x80) then decodeFrom 0 0 0 text else none

end Base64

end Text

namespace Yaml

/-- A scalar value. -/
inductive Scalar where
  /-- Nothing. -/
  | null
  /-- A truth value. -/
  | boolean (value : Bool)
  /-- A whole number. -/
  | integer (value : Int)
  /-- A number with a point. -/
  | real (value : Binary64)
  /-- A day, or a time of a day. -/
  | moment (value : Moment)
  | text (text : Text)
  | bytes (bytes : List UInt8)
  deriving DecidableEq, Repr

namespace Scalar

/-- The words for truth. -/
def trueWords : List Text :=
  ["yes", "Yes", "YES", "true", "True", "TRUE", "on", "On", "ON"]

/-- The words for falsehood. -/
def falseWords : List Text :=
  ["no", "No", "NO", "false", "False", "FALSE", "off", "Off", "OFF"]

/-- The words for nothing. -/
def nullWords : List Text :=
  ["~", "null", "Null", "NULL", ""]

/-- The texts that have a meaning of their own, but no value. -/
def reservedWords : List Text :=
  ["<<", "=", "!", "&", "*"]

/-- The beginning of the tags that say what a scalar is to be taken for. -/
def tagStart : Text := "tag:yaml.org,2002:"

/-- The tag of a certain name. -/
def tagNamed (name : Text) : Text :=
  tagStart ++ name

/-- The truth value of a word in any letter case. -/
def truthOf (text : Text) : Except Fault Scalar :=
  let word := Text.lower text
  if trueWords.contains word then .ok (.boolean true)
  else if falseWords.contains word then .ok (.boolean false)
  else .error (.noTruthValue word)

/-- The form of a text. A line feed at its end does not belong to it, unless it stands alone. -/
def formOf (text : Text) : Text :=
  if text.length ≠ 1 && text.getLast? = some '\n' then text.dropLast else text

/-- The moment that a text has the form of. -/
def momentOf (text : Text) : Except Fault Scalar :=
  match Moment.form? (formOf text) with
  | some found => moment <$> found.check
  | none => .error .noMoment

/-- The value of a text by its form. -/
def ofForm (text : Text) : Except Fault Scalar :=
  let form := formOf text
  if trueWords.contains form || falseWords.contains form then truthOf text
  else if Number.isWritten form then real <$> Number.ofText text
  else if WholeNumber.isWritten form then integer <$> WholeNumber.ofText text
  else if nullWords.contains form then .ok .null
  else if reservedWords.contains form then .error .malformed
  else if Moment.isWritten form then momentOf text
  else .ok (.text text)

/-- The bytes that a text in base 64 stands for. -/
def bytesOf (text : Text) : Except Fault Scalar :=
  match Text.Base64.decode? text with
  | some decoded => .ok (.bytes decoded)
  | none => .error .malformed

/-- The value that a tag makes of a text. -/
def ofTag (tag text : Text) : Except Fault Scalar :=
  if tag = tagNamed "str" then .ok (.text text)
  else if tag = tagNamed "null" then .ok .null
  else if tag = tagNamed "bool" then truthOf text
  else if tag = tagNamed "int" then integer <$> WholeNumber.ofText text
  else if tag = tagNamed "float" then real <$> Number.ofText text
  else if tag = tagNamed "timestamp" then momentOf text
  else if tag = tagNamed "binary" then bytesOf text
  else .error .malformed

/-- The value of a scalar that is to be taken for something. -/
def ofKind : ScalarKind → Text → Except Fault Scalar
  | .byForm, content => ofForm content
  | .text, content => .ok (text content)
  | .tagged tag, content => ofTag tag content

/-- The scalar that stands for all scalars of the same value. -/
def canonical : Scalar → Scalar
  | boolean value => integer (if value then 1 else 0)
  | real value => (value.toInt?.map integer).getD (real value)
  | other => other

def toJson : Scalar → Json
  | null => .null
  | boolean value => .boolean value
  | integer value => .integer value
  | real value => .real value
  | moment value => .string value.toText
  | text content => .string content
  | bytes content => .string (content.map fun byte => Char.ofNat byte.toNat)

/-- The name that a key has in JSON. -/
def toName : Scalar → Text
  | text content => content
  | moment value => value.toText
  | bytes content => content.map fun byte => Char.ofNat byte.toNat
  | other => other.toJson.toText none

end Scalar

end Yaml

end BundleDecl
