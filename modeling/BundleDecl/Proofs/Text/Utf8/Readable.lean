import BundleDecl.Proofs.Text.Utf8
import Mathlib.Data.List.Infix

/-!
# The readable beginning of bytes

Bytes that are no UTF-8 are those of a text up to the first byte that cannot be decoded: no
character starts there. However many of the bytes from there on are taken, they are undecodable.
-/

namespace BundleDecl

namespace Text

namespace Utf8

/-! ## Characters, from their bytes -/

theorem payload_lt (byte : UInt8) : payload byte < 0x40 :=
  Nat.mod_lt _ (by decide)

/-- A byte that continues a character is determined by the bits that it contributes. -/
theorem toUInt8_payload {byte : UInt8} (continues : isContinuation byte = true) :
    (0x80 + payload byte).toUInt8 = byte := by
  simp only [isContinuation, Bool.and_eq_true, decide_eq_true_eq, UInt8.le_iff_toNat_le,
    UInt8.reduceToNat] at continues
  have value : 0x80 + payload byte = byte.toNat := by
    rw [payload]
    omega
  rw [value]
  exact UInt8.ofNat_toNat

theorem toUInt8_toNat (byte : UInt8) : byte.toNat.toUInt8 = byte :=
  UInt8.ofNat_toNat

section

variable {first second third fourth : UInt8}

theorem encodeCharacter_one (small : first.toNat < 0x80) :
    encodeCharacter (Char.ofNat first.toNat) = [first] := by
  rw [encodeCharacter, toNat_ofNat (.inl (by omega))]
  simp only [if_pos small, toUInt8_toNat]

theorem encodeCharacter_two (least : 0xC2 ≤ first.toNat) (most : first.toNat < 0xE0)
    (continues : isContinuation second = true) :
    encodeCharacter (Char.ofNat ((first.toNat - 0xC0) * 0x40 + payload second)) =
      [first, second] := by
  have small := payload_lt second
  have high : 0xC0 + ((first.toNat - 0xC0) * 0x40 + payload second) / 0x40 = first.toNat := by omega
  have low : ((first.toNat - 0xC0) * 0x40 + payload second) % 0x40 = payload second := by omega
  rw [encodeCharacter, toNat_ofNat (.inl (by omega))]
  rw [if_neg (by omega), if_pos (by omega), high, low, toUInt8_toNat, toUInt8_payload continues]

theorem encodeCharacter_three (least : 0xE0 ≤ first.toNat) (most : first.toNat < 0xF0)
    (secondContinues : isContinuation second = true) (thirdContinues : isContinuation third = true)
    {codePoint : Nat}
    (value : (first.toNat - 0xE0) * 0x1000 + payload second * 0x40 + payload third = codePoint)
    (long : 0x800 ≤ codePoint) (character : ¬(0xD800 ≤ codePoint ∧ codePoint ≤ 0xDFFF)) :
    encodeCharacter (Char.ofNat codePoint) = [first, second, third] := by
  have secondSmall := payload_lt second
  have thirdSmall := payload_lt third
  have high : 0xE0 + codePoint / 0x1000 = first.toNat := by omega
  have middle : codePoint / 0x40 % 0x40 = payload second := by omega
  have low : codePoint % 0x40 = payload third := by omega
  have valid : codePoint.isValidChar := by
    rw [Nat.isValidChar]
    omega
  rw [encodeCharacter, toNat_ofNat valid]
  rw [if_neg (by omega), if_neg (by omega), if_pos (by omega), high, middle, low, toUInt8_toNat,
    toUInt8_payload secondContinues, toUInt8_payload thirdContinues]

theorem encodeCharacter_four (least : 0xF0 ≤ first.toNat)
    (secondContinues : isContinuation second = true) (thirdContinues : isContinuation third = true)
    (fourthContinues : isContinuation fourth = true) {codePoint : Nat}
    (value : (first.toNat - 0xF0) * 0x40000 + payload second * 0x1000 + payload third * 0x40 +
      payload fourth = codePoint)
    (long : 0x10000 ≤ codePoint) (most : codePoint ≤ 0x10FFFF) :
    encodeCharacter (Char.ofNat codePoint) = [first, second, third, fourth] := by
  have secondSmall := payload_lt second
  have thirdSmall := payload_lt third
  have fourthSmall := payload_lt fourth
  have high : 0xF0 + codePoint / 0x40000 = first.toNat := by omega
  have upper : codePoint / 0x1000 % 0x40 = payload second := by omega
  have lower : codePoint / 0x40 % 0x40 = payload third := by omega
  have low : codePoint % 0x40 = payload fourth := by omega
  have valid : codePoint.isValidChar := by
    rw [Nat.isValidChar]
    omega
  rw [encodeCharacter, toNat_ofNat valid]
  rw [if_neg (by omega), if_neg (by omega), if_neg (by omega), high, upper, lower, low,
    toUInt8_toNat, toUInt8_payload secondContinues, toUInt8_payload thirdContinues,
    toUInt8_payload fourthContinues]

end

/-- Bytes that can be decoded begin with the bytes of the first character. -/
theorem exists_encodeCharacter_of_decode? {bytes : List UInt8} {text : Text}
    (decoded : decode? bytes = some text) (nonempty : bytes ≠ []) :
    ∃ character others, bytes = encodeCharacter character ++ others := by
  cases bytes with
  | nil => contradiction
  | cons first rest =>
  rw [decode?.eq_def] at decoded
  simp only [UInt8.lt_iff_toNat_lt, UInt8.reduceToNat] at decoded
  -- One case for each number of bytes; the others are not decoded.
  split at decoded
  · rename_i small
    exact ⟨_, rest, congrArg (· ++ rest) (encodeCharacter_one small).symm⟩
  split at decoded
  · contradiction
  split at decoded
  · rename_i most
    split at decoded
    · rename_i second others
      rw [Option.ite_none_right_eq_some] at decoded
      have bytes := encodeCharacter_two (by omega) most decoded.1
      exact ⟨_, others, congrArg (· ++ others) bytes.symm⟩
    · contradiction
  split at decoded
  · rename_i most
    split at decoded
    · rename_i second third others
      rw [Option.ite_none_right_eq_some] at decoded
      simp only [Bool.and_eq_true, Bool.not_eq_true', Bool.and_eq_false_iff, decide_eq_true_eq,
        decide_eq_false_iff_not] at decoded
      have bytes := encodeCharacter_three (by omega) most decoded.1.1.1.1 decoded.1.1.1.2 rfl
        decoded.1.1.2 (by omega)
      exact ⟨_, others, congrArg (· ++ others) bytes.symm⟩
    · contradiction
  split at decoded
  · split at decoded
    · rename_i second third fourth others
      rw [Option.ite_none_right_eq_some] at decoded
      simp only [Bool.and_eq_true, decide_eq_true_eq] at decoded
      have bytes := encodeCharacter_four (by omega) decoded.1.1.1.1.1 decoded.1.1.1.1.2
        decoded.1.1.1.2 rfl decoded.1.1.2 decoded.1.2
      exact ⟨_, others, congrArg (· ++ others) bytes.symm⟩
    · contradiction
  · contradiction

/-! ## Bytes that cannot be decoded -/

/-- Some bytes begin with no character. -/
def Undecodable (bytes : List UInt8) : Prop :=
  bytes ≠ [] ∧ ∀ character, ¬encodeCharacter character <+: bytes

theorem Undecodable.decode?_eq_none {bytes : List UInt8} (undecodable : Undecodable bytes) :
    decode? bytes = none := by
  rw [Option.eq_none_iff_forall_ne_some]
  intro text decoded
  rcases exists_encodeCharacter_of_decode? decoded undecodable.1 with ⟨character, others, split⟩
  exact undecodable.2 character ⟨others, split.symm⟩

/-- However many bytes are taken, no character starts with them. -/
theorem Undecodable.of_prefix {bytes front : List UInt8} (undecodable : Undecodable bytes)
    (initial : front <+: bytes) (nonempty : front ≠ []) : Undecodable front :=
  ⟨nonempty, fun character begins => undecodable.2 character (begins.trans initial)⟩

theorem decode?_encode_append (text : Text) (rest : List UInt8) :
    decode? (encode text ++ rest) = (decode? rest).map (text ++ ·) := by
  induction text with
  | nil => simp [encode]
  | cons character text ih =>
      rw [encode, List.flatMap_cons, List.append_assoc, decode?_encodeCharacter]
      rw [encode] at ih
      rw [ih, Option.map_map]
      rfl

/-- Bytes that are no UTF-8 are those of a text and undecodable from there on. -/
theorem exists_undecodable {bytes : List UInt8} (invalid : decode? bytes = none) :
    ∃ text rest, bytes = encode text ++ rest ∧ Undecodable rest := by
  induction size : bytes.length using Nat.strong_induction_on generalizing bytes with
  | h count ih =>
      by_cases begins : ∃ character, encodeCharacter character <+: bytes
      · rcases begins with ⟨character, others, rfl⟩
        rw [decode?_encodeCharacter, Option.map_eq_none_iff] at invalid
        have shorter : others.length < count := by
          rw [← size, List.length_append]
          have := List.length_pos_iff.2 (encodeCharacter_ne_nil character)
          omega
        rcases ih _ shorter invalid rfl with ⟨text, rest, rfl, undecodable⟩
        refine ⟨character :: text, rest, ?_, undecodable⟩
        rw [encode, encode, List.flatMap_cons, List.append_assoc]
      · refine ⟨[], bytes, rfl, ?_, not_exists.1 begins⟩
        rintro rfl
        contradiction

/-- The text of the longest beginning of some bytes that can be decoded. -/
def readable (bytes : List UInt8) : Text :=
  (bytes.inits.reverse.findSome? decode?).getD []

theorem reverse_inits_concat (bytes : List UInt8) (last : UInt8) :
    (bytes ++ [last]).inits.reverse = (bytes ++ [last]) :: bytes.inits.reverse := by
  simp [List.inits_append]

theorem exists_reverse_inits (bytes : List UInt8) :
    ∃ shorter, bytes.inits.reverse = bytes :: shorter := by
  rcases List.eq_nil_or_concat bytes with rfl | ⟨front, last, rfl⟩
  · exact ⟨[], rfl⟩
  · rw [List.concat_eq_append]
    exact ⟨_, reverse_inits_concat front last⟩

/-- What is readable ends where the bytes are undecodable. -/
theorem readable_eq {text : Text} {rest : List UInt8} (undecodable : Undecodable rest) :
    readable (encode text ++ rest) = text := by
  -- The bytes are given up from the end, one by one, until those of the text are left.
  have found (front : List UInt8) (initial : front <+: rest) :
      (encode text ++ front).inits.reverse.findSome? decode? = some text := by
    induction front using List.reverseRecOn with
    | nil =>
        rcases exists_reverse_inits (encode text) with ⟨shorter, inits⟩
        rw [List.append_nil, inits, List.findSome?_cons_of_isSome (by simp [decode?_encode]),
          decode?_encode]
    | append_singleton front last ih =>
        have broken := (undecodable.of_prefix initial (by simp)).decode?_eq_none
        rw [← List.append_assoc, reverse_inits_concat, List.findSome?_cons_of_isNone]
        · exact ih ((List.prefix_append front [last]).trans initial)
        · simp [decode?_encode_append, broken, List.append_assoc]
  rw [readable, found rest List.prefix_rfl, Option.getD_some]

end Utf8

end Text

end BundleDecl
