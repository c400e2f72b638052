import BundleDecl.Text.Utf8
import BundleDecl.Proofs.Text

/-!
# Laws of UTF-8

Every text is decoded from its bytes, one character after the other, and the byte of a line feed
occurs only where a line feed is encoded.
-/

namespace BundleDecl

namespace Text

namespace Utf8

/-! ## Bytes -/

theorem toNat_toUInt8 {number : Nat} (small : number < 256) : number.toUInt8.toNat = number := by
  rw [Nat.toUInt8, UInt8.toNat_ofNat', Nat.mod_eq_of_lt small]

theorem isContinuation_toUInt8 {bits : Nat} (small : bits < 0x40) :
    isContinuation (0x80 + bits).toUInt8 = true := by
  have value : (0x80 + bits).toUInt8.toNat = 0x80 + bits := toNat_toUInt8 (by omega)
  simp only [isContinuation, UInt8.le_iff_toNat_le, value, UInt8.reduceToNat, Bool.and_eq_true,
    decide_eq_true_eq]
  omega

theorem payload_toUInt8 {bits : Nat} (small : bits < 0x40) :
    payload (0x80 + bits).toUInt8 = bits := by
  rw [payload, toNat_toUInt8 (by omega)]
  omega

/-! ## Characters, by the number of their bytes -/

section

variable {high low : Nat} (rest : List UInt8)

theorem decode?_one {codePoint : Nat} (small : codePoint < 0x80) :
    decode? (codePoint.toUInt8 :: rest) = prepend codePoint (decode? rest) := by
  have value : codePoint.toUInt8.toNat = codePoint := toNat_toUInt8 (by omega)
  rw [decode?.eq_def]
  simp only [UInt8.lt_iff_toNat_lt, value, UInt8.reduceToNat]
  rw [if_pos small]

theorem decode?_two (least : 2 ≤ high) (most : high < 0x20) (lowSmall : low < 0x40) :
    decode? ((0xC0 + high).toUInt8 :: (0x80 + low).toUInt8 :: rest) =
      prepend (high * 0x40 + low) (decode? rest) := by
  have value : (0xC0 + high).toUInt8.toNat = 0xC0 + high := toNat_toUInt8 (by omega)
  rw [decode?.eq_def]
  simp only [UInt8.lt_iff_toNat_lt, value, UInt8.reduceToNat, isContinuation_toUInt8 lowSmall,
    payload_toUInt8 lowSmall, Nat.add_sub_cancel_left, if_true]
  rw [if_neg (by omega), if_neg (by omega), if_pos (by omega)]

theorem decode?_three {middle : Nat} (most : high < 0x10) (middleSmall : middle < 0x40)
    (lowSmall : low < 0x40) (least : 0x800 ≤ high * 0x1000 + middle * 0x40 + low)
    (character : high * 0x1000 + middle * 0x40 + low < 0xD800 ∨
      0xDFFF < high * 0x1000 + middle * 0x40 + low) :
    decode? ((0xE0 + high).toUInt8 :: (0x80 + middle).toUInt8 :: (0x80 + low).toUInt8 :: rest) =
      prepend (high * 0x1000 + middle * 0x40 + low) (decode? rest) := by
  have value : (0xE0 + high).toUInt8.toNat = 0xE0 + high := toNat_toUInt8 (by omega)
  rw [decode?.eq_def]
  simp only [UInt8.lt_iff_toNat_lt, value, UInt8.reduceToNat, isContinuation_toUInt8 middleSmall,
    isContinuation_toUInt8 lowSmall, payload_toUInt8 middleSmall, payload_toUInt8 lowSmall,
    Nat.add_sub_cancel_left, Bool.true_and]
  rw [if_neg (by omega), if_neg (by omega), if_neg (by omega), if_pos (by omega), if_pos]
  simp only [Bool.and_eq_true, Bool.not_eq_true', Bool.and_eq_false_iff, decide_eq_true_eq,
    decide_eq_false_iff_not]
  omega

theorem decode?_four {second third : Nat} (most : high < 5) (secondSmall : second < 0x40)
    (thirdSmall : third < 0x40) (lowSmall : low < 0x40)
    (least : 0x10000 ≤ high * 0x40000 + second * 0x1000 + third * 0x40 + low)
    (character : high * 0x40000 + second * 0x1000 + third * 0x40 + low ≤ 0x10FFFF) :
    decode? ((0xF0 + high).toUInt8 :: (0x80 + second).toUInt8 :: (0x80 + third).toUInt8 ::
        (0x80 + low).toUInt8 :: rest) =
      prepend (high * 0x40000 + second * 0x1000 + third * 0x40 + low) (decode? rest) := by
  have value : (0xF0 + high).toUInt8.toNat = 0xF0 + high := toNat_toUInt8 (by omega)
  rw [decode?.eq_def]
  simp only [UInt8.lt_iff_toNat_lt, value, UInt8.reduceToNat, isContinuation_toUInt8 secondSmall,
    isContinuation_toUInt8 thirdSmall, isContinuation_toUInt8 lowSmall, payload_toUInt8 secondSmall,
    payload_toUInt8 thirdSmall, payload_toUInt8 lowSmall, Nat.add_sub_cancel_left, Bool.true_and]
  rw [if_neg (by omega), if_neg (by omega), if_neg (by omega), if_neg (by omega),
    if_pos (by omega), if_pos]
  simp only [Bool.and_eq_true, decide_eq_true_eq]
  omega

end

theorem toNat_bounds (character : Char) :
    character.toNat < 0xD800 ∨ 0xDFFF < character.toNat ∧ character.toNat < 0x110000 :=
  character.valid

/-- The bytes of a character are decoded to it, whatever follows. -/
theorem decode?_encodeCharacter (character : Char) (rest : List UInt8) :
    decode? (encodeCharacter character ++ rest) = (decode? rest).map (character :: ·) := by
  have prepended :
      (decode? rest).map (character :: ·) = prepend character.toNat (decode? rest) := by
    rw [prepend, Char.ofNat_toNat]
  have bounds := toNat_bounds character
  rw [prepended, encodeCharacter]
  generalize character.toNat = codePoint at bounds
  -- The code point is put together again from the bits that its bytes carry.
  split
  · rename_i small
    exact decode?_one rest small
  · split
    · apply (decode?_two rest _ _ _).trans _
      · omega
      · omega
      · omega
      · congr 1
        omega
    · split
      · apply (decode?_three rest _ _ _ _ _).trans _
        · omega
        · omega
        · omega
        · omega
        · omega
        · congr 1
          omega
      · apply (decode?_four rest _ _ _ _ _ _).trans _
        · omega
        · omega
        · omega
        · omega
        · omega
        · omega
        · congr 1
          omega

theorem encode_append (before after : Text) :
    encode (before ++ after) = encode before ++ encode after :=
  List.flatMap_append

/-- Every text is decoded from its bytes. -/
theorem decode?_encode (text : Text) : decode? (encode text) = some text := by
  induction text with
  | nil => rfl
  | cons character text ih =>
      rw [encode, List.flatMap_cons, decode?_encodeCharacter]
      rw [encode] at ih
      rw [ih]
      rfl

/-- No other character than a line feed has its byte. -/
theorem feed_notMem_encodeCharacter {character : Char} (other : character ≠ '\n') :
    10 ∉ encodeCharacter character := by
  have different : character.toNat ≠ 10 := by
    intro same
    exact other (Char.toNat_inj.1 same)
  have bounds := toNat_bounds character
  have absent {number : Nat} (small : number < 256) (differs : number ≠ 10) :
      10 ≠ number.toUInt8 := by
    intro same
    apply differs
    rw [← toNat_toUInt8 small, ← same]
    rfl
  rw [encodeCharacter]
  generalize character.toNat = codePoint at *
  split
  · simpa using absent (by omega) different
  · split
    · simp only [List.mem_cons, List.not_mem_nil, or_false, not_or]
      refine ⟨absent ?_ ?_, absent ?_ ?_⟩ <;> omega
    · split
      · simp only [List.mem_cons, List.not_mem_nil, or_false, not_or]
        refine ⟨absent ?_ ?_, absent ?_ ?_, absent ?_ ?_⟩ <;> omega
      · simp only [List.mem_cons, List.not_mem_nil, or_false, not_or]
        refine ⟨absent ?_ ?_, absent ?_ ?_, absent ?_ ?_, absent ?_ ?_⟩ <;> omega

theorem encodeCharacter_ne_nil (character : Char) : encodeCharacter character ≠ [] := by
  simp only [encodeCharacter]
  split
  · simp
  · split
    · simp
    · split <;> simp

end Utf8

end Text

end BundleDecl
