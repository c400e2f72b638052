import BundleDecl.Json

/-!
# Printing JSON

Output is ASCII: quotes, backslashes and every character outside the printable ASCII range are
escaped, characters above the basic plane as two escaped surrogates. Without an indentation the
whole value stands on one line; with one, every item stands on a line of its own.
-/

namespace BundleDecl

namespace Json

/-- The hexadecimal digits of a number below 65536, four of them. -/
def fourHexDigits (number : Nat) : Text :=
  [Nat.digitChar (number / 4096 % 16), Nat.digitChar (number / 256 % 16),
    Nat.digitChar (number / 16 % 16), Nat.digitChar (number % 16)]

/-- The escape sequence of a number below 65536. -/
def escapedUnit (number : Nat) : Text :=
  '\\' :: 'u' :: fourHexDigits number

/-- The escape sequences of a character by its code point. -/
def escapedCodePoint (codePoint : Nat) : Text :=
  if codePoint < 0x10000 then
    escapedUnit codePoint
  else
    escapedUnit (0xD800 + (codePoint - 0x10000) / 0x400) ++
      escapedUnit (0xDC00 + (codePoint - 0x10000) % 0x400)

/-- A character as it stands inside a string. -/
def printCharacter (character : Char) : Text :=
  match character with
  | '"' => ['\\', '"']
  | '\\' => ['\\', '\\']
  | '\n' => ['\\', 'n']
  | '\r' => ['\\', 'r']
  | '\t' => ['\\', 't']
  | '\x08' => ['\\', 'b']
  | '\x0c' => ['\\', 'f']
  | _ =>
    if 0x20 ≤ character.toNat ∧ character.toNat ≤ 0x7E then
      [character]
    else
      escapedCodePoint character.toNat

/-- A string with its quotes. -/
def printString (text : Text) : Text :=
  '"' :: text.flatMap printCharacter ++ ['"']

/-- The words that stand for the numbers without digits. -/
def numberWords : Binary64.Words := ⟨"Infinity", "NaN"⟩

/-- The line break and indentation at a nesting depth; nothing when all stands on one line. -/
def lineBreak (indent : Option Nat) (depth : Nat) : Text :=
  match indent with
  | none => []
  | some width => '\n' :: List.replicate (width * depth) ' '

/-- What separates two items. -/
def itemSeparator (indent : Option Nat) (depth : Nat) : Text :=
  match indent with
  | none => ", "
  | some _ => ',' :: lineBreak indent depth

mutual

/-- The text of a value that stands at a nesting depth. -/
def print (indent : Option Nat) (depth : Nat) : Json → Text
  | null => "null"
  | boolean true => "true"
  | boolean false => "false"
  | integer value => Text.ofInt value
  | real value => value.toText numberWords
  | string text => printString text
  | array [] => "[]"
  | array (item :: items) =>
    '[' :: lineBreak indent (depth + 1) ++ print indent (depth + 1) item ++
      printItems indent depth items
  | object [] => "\x7b\x7d"
  | object ((name, value) :: members) =>
    '\x7b' :: lineBreak indent (depth + 1) ++ printString name ++ ": " ++
      print indent (depth + 1) value ++ printMembers indent depth members

/-- The text from the end of an item to the end of its array. -/
def printItems (indent : Option Nat) (depth : Nat) : List Json → Text
  | [] => lineBreak indent depth ++ "]"
  | item :: items =>
    itemSeparator indent (depth + 1) ++ print indent (depth + 1) item ++
      printItems indent depth items

/-- The text from the end of a member to the end of its object. -/
def printMembers (indent : Option Nat) (depth : Nat) : List (Text × Json) → Text
  | [] => lineBreak indent depth ++ "\x7d"
  | (name, value) :: members =>
    itemSeparator indent (depth + 1) ++ printString name ++ ": " ++
      print indent (depth + 1) value ++ printMembers indent depth members

end

/-- The text of a value, on one line or with the given indentation. -/
def toText (indent : Option Nat) (value : Json) : Text :=
  print indent 0 value

end Json

end BundleDecl
