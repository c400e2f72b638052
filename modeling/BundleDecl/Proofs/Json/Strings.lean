import BundleDecl.Json.Parser
import BundleDecl.Json.Printer
import BundleDecl.Proofs.Text.Utf8

/-!
# Strings between quotes

Every text that is printed as a string is read as that text again, whatever stands behind the
closing quote. A character is escaped as its code point, or as a pair of surrogates if it lies above
the basic plane; since no character is a surrogate, pairs never arise by chance.
-/

namespace BundleDecl

namespace Json

/-- The code point of a character, or its two surrogates above the basic plane. -/
def unitsOf (character : Char) : List Nat :=
  if character.toNat < 0x10000 then
    [character.toNat]
  else
    [0xD800 + (character.toNat - 0x10000) / 0x400, 0xDC00 + (character.toNat - 0x10000) % 0x400]

theorem hexDigit?_digitChar : ∀ digit < 16, hexDigit? (Nat.digitChar digit) = some digit := by
  decide

/-- Four hexadecimal digits denote the number that they were made of. -/
theorem hexUnit?_fourHexDigits {number : Nat} (small : number < 0x10000) :
    hexUnit? (Nat.digitChar (number / 4096 % 16)) (Nat.digitChar (number / 256 % 16))
      (Nat.digitChar (number / 16 % 16)) (Nat.digitChar (number % 16)) = some number := by
  have digit (quotient : Nat) :
      hexDigit? (Nat.digitChar (quotient % 16)) = some (quotient % 16) :=
    hexDigit?_digitChar _ (Nat.mod_lt _ (by decide))
  simp only [hexUnit?, digit, Option.bind_eq_bind, Option.bind_some, Option.pure_def,
    Option.some.injEq]
  omega

theorem readUnits_escapedUnit {number : Nat} (small : number < 0x10000) (rest : Text) :
    readUnits (escapedUnit number ++ rest) =
      (readUnits rest).map fun (units, after) => (number :: units, after) := by
  simp only [escapedUnit, fourHexDigits, List.cons_append, List.nil_append]
  rw [readUnits, hexUnit?_fourHexDigits small]

theorem readUnits_escapedCodePoint (character : Char) (rest : Text) :
    readUnits (escapedCodePoint character.toNat ++ rest) =
      (readUnits rest).map fun (units, after) => (unitsOf character ++ units, after) := by
  have bounds := Text.Utf8.toNat_bounds character
  rw [escapedCodePoint, unitsOf]
  split
  · rename_i small
    exact readUnits_escapedUnit small rest
  · rw [List.append_assoc, readUnits_escapedUnit (by omega), readUnits_escapedUnit (by omega),
      Option.map_map]
    rfl

theorem readUnits_cons {character : Char} (printable : 0x20 ≤ character.toNat)
    (notQuote : character ≠ '"') (notBackslash : character ≠ '\\') (rest : Text) :
    readUnits (character :: rest) =
      (readUnits rest).map fun (units, after) => (character.toNat :: units, after) := by
  rw [readUnits]
  · rw [if_neg]
    rintro (control | backslash)
    · omega
    · exact notBackslash backslash
  · exact notQuote
  · intro _ _ _ _ _ backslash
    exact absurd backslash notBackslash
  · intro _ _ backslash
    exact absurd backslash notBackslash

/-- A printed character is read as its code point or its surrogates. -/
theorem readUnits_printCharacter (character : Char) (rest : Text) :
    readUnits (printCharacter character ++ rest) =
      (readUnits rest).map fun (units, after) => (unitsOf character ++ units, after) := by
  unfold printCharacter
  split
  case h_8 notQuote notBackslash _ _ _ _ _ =>
    split
    · rename_i printable
      rw [List.singleton_append, readUnits_cons printable.1 notQuote notBackslash, unitsOf,
        if_pos (by omega)]
      rfl
    · exact readUnits_escapedCodePoint character rest
  all_goals rfl

theorem isHighSurrogate_toNat (character : Char) : isHighSurrogate character.toNat = false := by
  have bounds := Text.Utf8.toNat_bounds character
  simp only [isHighSurrogate, Bool.and_eq_false_iff, decide_eq_false_iff_not]
  omega

theorem isLowSurrogate_toNat (character : Char) : isLowSurrogate character.toNat = false := by
  have bounds := Text.Utf8.toNat_bounds character
  simp only [isLowSurrogate, Bool.and_eq_false_iff, decide_eq_false_iff_not]
  omega

/-- The units of a character make up this character in front of any other units. -/
theorem ofUnits_unitsOf_append (character : Char) (units : List Nat) :
    ofUnits (unitsOf character ++ units) = character :: ofUnits units := by
  have bounds := Text.Utf8.toNat_bounds character
  rw [unitsOf]
  split
  · have alone : characterOf character.toNat = character := by
      simp [characterOf, isHighSurrogate_toNat, isLowSurrogate_toNat]
    cases units with
    | nil => simp [ofUnits, alone]
    | cons unit units => simp [ofUnits, isHighSurrogate_toNat, alone]
  · have high : isHighSurrogate (0xD800 + (character.toNat - 0x10000) / 0x400) = true := by
      simp only [isHighSurrogate, Bool.and_eq_true, decide_eq_true_eq]
      omega
    have low : isLowSurrogate (0xDC00 + (character.toNat - 0x10000) % 0x400) = true := by
      simp only [isLowSurrogate, Bool.and_eq_true, decide_eq_true_eq]
      omega
    -- The code point is put together again from the halves of its offset.
    have codePoint : 0x10000 + (0xD800 + (character.toNat - 0x10000) / 0x400 - 0xD800) * 0x400 +
        (0xDC00 + (character.toNat - 0x10000) % 0x400 - 0xDC00) = character.toNat := by
      omega
    rw [List.cons_append, List.cons_append, ofUnits, high, low, codePoint, Char.ofNat_toNat]
    rfl

/-- A printed text is read up to its closing quote. -/
theorem readString_flatMap_printCharacter (text rest : Text) :
    readString (text.flatMap printCharacter ++ '"' :: rest) = some (text, rest) := by
  simp only [readString, Option.map_eq_some_iff, Prod.exists, Prod.mk.injEq]
  induction text with
  | nil => exact ⟨[], rest, rfl, rfl, rfl⟩
  | cons character text ih =>
      rcases ih with ⟨units, after, read, made, rfl⟩
      refine ⟨unitsOf character ++ units, after, ?_, ?_, rfl⟩
      · rw [List.flatMap_cons, List.append_assoc, readUnits_printCharacter, read]
        rfl
      · rw [ofUnits_unitsOf_append, made]

/-! ## Characters -/

theorem toNat_digitChar_lt (digit : Nat) : (Nat.digitChar (digit % 16)).toNat < 128 := by
  have all : ∀ digit < 16, (Nat.digitChar digit).toNat < 128 := by decide
  exact all _ (Nat.mod_lt _ (by decide))

theorem toNat_lt_of_mem_escapedUnit {number : Nat} {character : Char}
    (member : character ∈ escapedUnit number) : character.toNat < 128 := by
  simp only [escapedUnit, fourHexDigits, List.mem_cons, List.not_mem_nil, or_false] at member
  rcases member with rfl | rfl | rfl | rfl | rfl | rfl
  · decide
  · decide
  all_goals exact toNat_digitChar_lt _

theorem toNat_lt_of_mem_printCharacter {character printed : Char}
    (member : printed ∈ printCharacter character) : printed.toNat < 128 := by
  unfold printCharacter at member
  split at member
  case h_8 =>
    split at member
    · rename_i printable
      rcases List.mem_singleton.1 member with rfl
      omega
    · rw [escapedCodePoint] at member
      split at member
      · exact toNat_lt_of_mem_escapedUnit member
      · rcases List.mem_append.1 member with high | low
        · exact toNat_lt_of_mem_escapedUnit high
        · exact toNat_lt_of_mem_escapedUnit low
  all_goals
    simp only [List.mem_cons, List.not_mem_nil, or_false] at member
    rcases member with rfl | rfl <;> decide

/-- A printed string holds ASCII characters only. -/
theorem toNat_lt_of_mem_printString {text : Text} {character : Char}
    (member : character ∈ printString text) : character.toNat < 128 := by
  simp only [printString, List.cons_append, List.mem_cons, List.mem_append, List.mem_flatMap,
    List.not_mem_nil, or_false] at member
  rcases member with rfl | ⟨source, -, printed⟩ | rfl
  · decide
  · exact toNat_lt_of_mem_printCharacter printed
  · decide

end Json

end BundleDecl
