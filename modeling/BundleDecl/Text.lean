/-!
# Texts

A text is the list of its Unicode scalar values, so that lengths and positions count characters.
Surrogate code points, which are no characters, do not occur in texts. The order on texts is the
lexicographic order by code point that lists of characters carry.

This file holds the operations on texts that every other part of the library uses: pieces between
separators, trimming, and the decimal notation of natural numbers.

Two sets of blank characters occur. Spaces and tabs make up indentation and separate tokens. The
wider set of white-space characters is the Unicode property `White_Space` together with the four
information separators; it is what is trimmed from settings and from unquoted metadata.
-/

namespace BundleDecl

/-- A text: its Unicode scalar values in order. -/
abbrev Text := List Char

instance : Coe String Text := ⟨String.toList⟩

namespace Text

/-- What is left of a text after something was read from it: less than there was. -/
abbrev Rest (text : Text) := { rest : Text // rest.length < text.length }

/--
The pieces of a text between the characters that satisfy a test; there is always at least one.
-/
def splitWhere (test : Char → Bool) : Text → List Text
  | [] => [[]]
  | character :: rest =>
    if test character then
      [] :: splitWhere test rest
    else
      match splitWhere test rest with
      | [] => [[character]]
      | piece :: pieces => (character :: piece) :: pieces

/-- The pieces of a text between the occurrences of a separator. -/
def splitOn (separator : Char) (text : Text) : List Text :=
  splitWhere (· = separator) text

/-- The pieces in order with the separator between neighbours. -/
def joinWith (separator : Text) : List Text → Text
  | [] => []
  | [piece] => piece
  | piece :: next :: pieces => piece ++ separator ++ joinWith separator (next :: pieces)

theorem splitWhere_ne_nil (test : Char → Bool) (text : Text) : splitWhere test text ≠ [] := by
  cases text with
  | nil => simp [splitWhere]
  | cons character rest =>
    rw [splitWhere]
    split
    · simp
    · split <;> simp

/-- Pieces with their separators between them make up the text again. -/
theorem joinWith_splitOn (separator : Char) (text : Text) :
    joinWith [separator] (splitOn separator text) = text := by
  unfold splitOn
  induction text with
  | nil => rfl
  | cons character rest ih =>
    rw [splitWhere]
    have nonempty := splitWhere_ne_nil (· = separator) rest
    match pieces : splitWhere (· = separator) rest with
    | [] => exact absurd pieces nonempty
    | piece :: others =>
      rw [pieces] at ih
      split
      · simp_all [joinWith]
      · cases others <;> simp_all [joinWith]

/-- A text without the longest final part whose characters all satisfy the test. -/
def trimEnd (test : Char → Bool) : Text → Text
  | [] => []
  | character :: rest =>
    match trimEnd test rest with
    | [] => if test character then [] else [character]
    | kept => character :: kept

/-- A text without the longest initial and final parts whose characters all satisfy the test. -/
def trim (test : Char → Bool) (text : Text) : Text :=
  trimEnd test (text.dropWhile test)

/-- The part before the first occurrence of a character and the part after it. -/
def splitFirst? (character : Char) : Text → Option (Text × Text)
  | [] => none
  | first :: rest =>
    if first = character then
      some ([], rest)
    else
      (splitFirst? character rest).map fun (before, after) => (first :: before, after)

/-- The part before the last occurrence of a character and the part after it. -/
def splitLast? (character : Char) : Text → Option (Text × Text)
  | [] => none
  | first :: rest =>
    match splitLast? character rest with
    | some (before, after) => some (first :: before, after)
    | none => if first = character then some ([], rest) else none

/-- What stands before the first occurrence of a character does not hold it. -/
theorem splitFirst?_eq_some_iff {character : Char} {text before after : Text} :
    splitFirst? character text = some (before, after) ↔
      text = before ++ character :: after ∧ character ∉ before := by
  induction text generalizing before with
  | nil => simp [splitFirst?]
  | cons first rest ih =>
    rw [splitFirst?]
    by_cases same : first = character
    · cases before <;> simp +contextual [same, eq_comm]
    · cases before with
      | nil => simp [same]
      | cons second others =>
        simp only [same, if_false, Option.map_eq_some_iff, Prod.exists, Prod.mk.injEq,
          List.cons.injEq, List.cons_append, List.mem_cons, not_or]
        constructor
        · rintro ⟨start, finish, found, ⟨rfl, rfl⟩, rfl⟩
          have := ih.1 found
          exact ⟨⟨rfl, this.1⟩, Ne.symm same, this.2⟩
        · rintro ⟨⟨rfl, parts⟩, -, absent⟩
          exact ⟨others, after, ih.2 ⟨parts, absent⟩, ⟨rfl, rfl⟩, rfl⟩

theorem splitLast?_eq_none_iff {character : Char} {text : Text} :
    splitLast? character text = none ↔ character ∉ text := by
  induction text with
  | nil => simp [splitLast?]
  | cons first rest ih =>
    rw [splitLast?]
    by_cases same : first = character
    · split <;> simp [same]
    · rw [List.mem_cons, not_or, ← ih]
      split <;> simp_all [Ne.symm same]

/-- What stands after the last occurrence of a character does not hold it. -/
theorem splitLast?_eq_some_iff {character : Char} {text before after : Text} :
    splitLast? character text = some (before, after) ↔
      text = before ++ character :: after ∧ character ∉ after := by
  induction text generalizing before after with
  | nil => simp [splitLast?]
  | cons first rest ih =>
    rw [splitLast?]
    split
    · rename_i start finish found
      have parts := ih.1 found
      cases before with
      | nil =>
        have : character ∈ rest := by simp [parts.1]
        simp only [Option.some.injEq, Prod.mk.injEq, List.nil_append, List.cons.injEq]
        grind
      | cons second others =>
        have := @ih others after
        rw [found] at this
        simp only [Option.some.injEq, Prod.mk.injEq, List.cons.injEq, List.cons_append] at *
        grind
    · rename_i found
      have absent := splitLast?_eq_none_iff.1 found
      cases before with
      | nil => grind
      | cons second others => grind

/-- A text of digits filled up with zeros on the left. -/
def padded (width : Nat) (digits : Text) : Text :=
  List.replicate (width - digits.length) '0' ++ digits

/-- The decimal notation of a natural number. -/
def ofNat (number : Nat) : Text :=
  Nat.toDigits 10 number

/-- The decimal notation of a whole number. -/
def ofInt (number : Int) : Text :=
  (if number < 0 then ['-'] else []) ++ ofNat number.natAbs

/-- The number that a sequence of decimal digits denotes, read after the number already seen. -/
def toNat (digits : Text) (seen : Nat) : Nat :=
  digits.foldl (fun number digit => 10 * number + (digit.toNat - '0'.toNat)) seen

/--
The greatest number of digits that a number may have to be converted from decimal notation or to it.
Conversions of longer ones are interrupted; where that is of no concern, they are made all the same.
-/
def longestNumber : Nat := 4300

/-- A text that is shown for a value that may be absent. -/
def ofOption : Option Text → Text
  | some text => text
  | none => "None"

/-- The lower-case form of an ASCII letter; every other character is kept. -/
def lowerCharacter (character : Char) : Char :=
  character.toLower

/--
The text with its ASCII letters in lower case. Names and qualifiers consist of ASCII characters, and
no letter outside ASCII has a lower-case form made of letters of the words that are compared in
lower case, so nothing further needs to be folded.
-/
def lower (text : Text) : Text :=
  text.map lowerCharacter

/-- A space or a tab. -/
def isIndentCharacter (character : Char) : Bool :=
  character = ' ' || character = '\t'

/-- The white-space characters as closed ranges of code points. -/
def whiteSpaceRanges : List (Nat × Nat) :=
  [(0x09, 0x0D), (0x1C, 0x20), (0x85, 0x85), (0xA0, 0xA0), (0x1680, 0x1680), (0x2000, 0x200A),
    (0x2028, 0x2029), (0x202F, 0x202F), (0x205F, 0x205F), (0x3000, 0x3000)]

def isWhiteSpace (character : Char) : Bool :=
  whiteSpaceRanges.any fun (first, last) => first ≤ character.toNat && character.toNat ≤ last

/-- A text of spaces and tabs only. -/
def isBlank (text : Text) : Bool :=
  text.all isIndentCharacter

/-- The longest initial part that consists of spaces and tabs. -/
def indentation (text : Text) : Text :=
  text.takeWhile isIndentCharacter

/-- A text without its white space at both ends. -/
def strip (text : Text) : Text :=
  trim isWhiteSpace text

end Text

end BundleDecl
