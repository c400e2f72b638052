import BundleDecl.Text.Quoted
import BundleDecl.Text.Utf8

/-!
# Flaws of encoded texts

Bytes that are no UTF-8 are described by the first flaw: a byte that starts no character, a
character that is broken off by a byte that does not continue it, or one that is broken off by the
end. What the end breaks off is set aside by whoever reads the bytes, so that its position is
counted from its own first byte.
-/

namespace BundleDecl

namespace Text

namespace Utf8

/-- What is wrong with a sequence of bytes. -/
inductive FlawReason where
  /-- No character starts with the byte. -/
  | start
  /-- The byte after the sequence does not continue the character. -/
  | continuation
  /-- The character is incomplete at the end. -/
  | ending
  deriving DecidableEq, Repr

/-- The first flaw of some bytes. -/
structure Flaw where
  /-- The position of the first byte of the sequence. -/
  position : Nat
  /-- The first byte. -/
  first : UInt8
  /-- The number of bytes in the sequence. -/
  count : Nat
  /-- What is wrong with them. -/
  reason : FlawReason
  deriving DecidableEq, Repr

/-- The number of bytes that follow the first one of a character, if a byte is such a first one. -/
def following? (first : UInt8) : Option Nat :=
  if first < 0x80 then some 0
  else if first < 0xC2 then none
  else if first < 0xE0 then some 1
  else if first < 0xF0 then some 2
  else if first < 0xF5 then some 3
  else none

/-- Whether a byte may follow the first one of a character directly. -/
def isSecond (first second : UInt8) : Bool :=
  isContinuation second &&
    (first != 0xE0 || 0xA0 ≤ second) && (first != 0xED || second < 0xA0) &&
    (first != 0xF0 || 0x90 ≤ second) && (first != 0xF4 || second < 0x90)

/-- The number of the bytes that continue a character, of which so many are needed. -/
def continuing (first : UInt8) (needed : Nat) (rest : List UInt8) : Nat :=
  match rest.take needed with
  | [] => 0
  | second :: others =>
    if isSecond first second then 1 + (others.takeWhile isContinuation).length else 0

/-- Whether some bytes are the first two of a half of a pair. Such a half is no character, but it is
set aside at the end like one. -/
def isHalfBroken (first : UInt8) (rest : List UInt8) : Bool :=
  first = 0xED && rest.length = 1 && rest.all fun second => isContinuation second && 0xA0 ≤ second

/-- The first flaw of the bytes from a position on. -/
def flawFrom (position : Nat) : List UInt8 → Option Flaw
  | [] => none
  | first :: rest =>
    match following? first with
    | none => some ⟨position, first, 1, .start⟩
    | some needed =>
      let found := continuing first needed rest
      if found = needed then flawFrom (position + 1 + needed) (rest.drop needed)
      else if found = rest.length then some ⟨0, first, found + 1, .ending⟩
      else
        some ⟨if isHalfBroken first rest then 0 else position, first, found + 1, .continuation⟩
termination_by bytes => bytes.length
decreasing_by simp only [List.length_drop, List.length_cons]; omega

/-- The first flaw of some bytes. -/
def flaw? (bytes : List UInt8) : Option Flaw :=
  flawFrom 0 bytes

namespace Flaw

/-- The description of a reason. -/
def reasonText : FlawReason → Text
  | .start => "invalid start byte"
  | .continuation => "invalid continuation byte"
  | .ending => "unexpected end of data"

/-- The description of a flaw. -/
def message (flaw : Flaw) : Text :=
  let bytes : Text :=
    if flaw.count = 1 then
      "byte 0x" ++ hexadecimal 2 flaw.first.toNat ++ " in position " ++ ofNat flaw.position
    else
      "bytes in position " ++ ofNat flaw.position ++ "-" ++
        ofNat (flaw.position + flaw.count - 1)
  "'utf-8' codec can't decode " ++ bytes ++ ": " ++ reasonText flaw.reason

end Flaw

end Utf8

end Text

end BundleDecl
