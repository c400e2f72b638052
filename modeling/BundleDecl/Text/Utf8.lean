import BundleDecl.Text

/-!
# UTF-8

A character is encoded by one to four bytes. Only the shortest encoding of a character is valid, and
surrogates have none.
-/

namespace BundleDecl

namespace Text

namespace Utf8

/-- The bytes of a character. -/
def encodeCharacter (character : Char) : List UInt8 :=
  let codePoint := character.toNat
  if codePoint < 0x80 then
    [codePoint.toUInt8]
  else if codePoint < 0x800 then
    [(0xC0 + codePoint / 0x40).toUInt8, (0x80 + codePoint % 0x40).toUInt8]
  else if codePoint < 0x10000 then
    [(0xE0 + codePoint / 0x1000).toUInt8, (0x80 + codePoint / 0x40 % 0x40).toUInt8,
      (0x80 + codePoint % 0x40).toUInt8]
  else
    [(0xF0 + codePoint / 0x40000).toUInt8, (0x80 + codePoint / 0x1000 % 0x40).toUInt8,
      (0x80 + codePoint / 0x40 % 0x40).toUInt8, (0x80 + codePoint % 0x40).toUInt8]

/-- The bytes of a text. -/
def encode (text : Text) : List UInt8 :=
  text.flatMap encodeCharacter

/-- A byte that continues a character. -/
def isContinuation (byte : UInt8) : Bool :=
  0x80 ≤ byte && byte ≤ 0xBF

/-- The six bits that a continuation byte contributes. -/
def payload (byte : UInt8) : Nat :=
  byte.toNat % 0x40

/-- Puts a character before the text of the remaining bytes. -/
def prepend (codePoint : Nat) (text : Option Text) : Option Text :=
  text.map (Char.ofNat codePoint :: ·)

/-- The text that some bytes encode, if they are valid. -/
def decode? : List UInt8 → Option Text
  | [] => some []
  | first :: rest =>
    if first < 0x80 then
      prepend first.toNat (decode? rest)
    else if first < 0xC2 then
      none
    else if first < 0xE0 then
      match rest with
      | second :: rest =>
        if isContinuation second then
          prepend ((first.toNat - 0xC0) * 0x40 + payload second) (decode? rest)
        else
          none
      | _ => none
    else if first < 0xF0 then
      match rest with
      | second :: third :: rest =>
        let codePoint := (first.toNat - 0xE0) * 0x1000 + payload second * 0x40 + payload third
        if isContinuation second && isContinuation third && 0x800 ≤ codePoint &&
            !(0xD800 ≤ codePoint && codePoint ≤ 0xDFFF) then
          prepend codePoint (decode? rest)
        else
          none
      | _ => none
    else if first < 0xF5 then
      match rest with
      | second :: third :: fourth :: rest =>
        let codePoint := (first.toNat - 0xF0) * 0x40000 + payload second * 0x1000 +
          payload third * 0x40 + payload fourth
        if isContinuation second && isContinuation third && isContinuation fourth &&
            0x10000 ≤ codePoint && codePoint ≤ 0x10FFFF then
          prepend codePoint (decode? rest)
        else
          none
      | _ => none
    else
      none

end Utf8

end Text

end BundleDecl
