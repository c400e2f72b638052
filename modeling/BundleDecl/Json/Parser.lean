import BundleDecl.Json

/-!
# Reading JSON

A document is one value with white space around it. Every step takes the text that is left and
returns what it leaves, which is always shorter; that is why reading ends. Of two members of one
name the later value counts. Besides the standard numbers the words `NaN`, `Infinity` and
`-Infinity` are accepted.
-/

namespace BundleDecl

namespace Json

/-- White space between tokens. -/
def isSpace (character : Char) : Bool :=
  character = ' ' || character = '\t' || character = '\n' || character = '\r'

/-- A text from its first token on. -/
def skipSpace (text : Text) : Text :=
  text.dropWhile isSpace

theorem skipSpace_length_le (text : Text) : (skipSpace text).length ≤ text.length :=
  (List.dropWhile_sublist _).length_le

/-- The value of a hexadecimal digit. -/
def hexDigit? (character : Char) : Option Nat :=
  if '0' ≤ character ∧ character ≤ '9' then
    some (character.toNat - '0'.toNat)
  else if 'a' ≤ character ∧ character ≤ 'f' then
    some (character.toNat - 'a'.toNat + 10)
  else if 'A' ≤ character ∧ character ≤ 'F' then
    some (character.toNat - 'A'.toNat + 10)
  else
    none

/-- The number that four hexadecimal digits denote. -/
def hexUnit? (first second third fourth : Char) : Option Nat := do
  return 4096 * (← hexDigit? first) + 256 * (← hexDigit? second) + 16 * (← hexDigit? third)
    + (← hexDigit? fourth)

/-- The character that an escape of one letter stands for. -/
def shortEscape? (letter : Char) : Option Char :=
  match letter with
  | '"' => some '"'
  | '\\' => some '\\'
  | '/' => some '/'
  | 'b' => some '\x08'
  | 'f' => some '\x0c'
  | 'n' => some '\n'
  | 'r' => some '\r'
  | 't' => some '\t'
  | _ => none

/--
The code points and surrogates of a string after its opening quote, and the text after its closing
quote. Control characters have to be escaped.
-/
def readUnits : Text → Option (List Nat × Text)
  | [] => none
  | '"' :: rest => some ([], rest)
  | '\\' :: 'u' :: first :: second :: third :: fourth :: rest =>
    match hexUnit? first second third fourth with
    | some unit => (readUnits rest).map fun (units, after) => (unit :: units, after)
    | none => none
  | '\\' :: letter :: rest =>
    match shortEscape? letter with
    | some character =>
      (readUnits rest).map fun (units, after) => (character.toNat :: units, after)
    | none => none
  | character :: rest =>
    if character.toNat < 0x20 ∨ character = '\\' then
      none
    else
      (readUnits rest).map fun (units, after) => (character.toNat :: units, after)

/-- The first half of a pair of surrogates. -/
def isHighSurrogate (unit : Nat) : Bool :=
  0xD800 ≤ unit && unit < 0xDC00

/-- The second half of a pair of surrogates. -/
def isLowSurrogate (unit : Nat) : Bool :=
  0xDC00 ≤ unit && unit < 0xE000

/-- The character of a code point. A lone surrogate, which no text can hold, gives the replacement
character. -/
def characterOf (codePoint : Nat) : Char :=
  if isHighSurrogate codePoint || isLowSurrogate codePoint then
    '\uFFFD'
  else
    Char.ofNat codePoint

/-- The text of code points and surrogates, where a pair of surrogates makes one character. -/
def ofUnits : List Nat → Text
  | [] => []
  | [unit] => [characterOf unit]
  | high :: low :: rest =>
    if isHighSurrogate high && isLowSurrogate low then
      Char.ofNat (0x10000 + (high - 0xD800) * 0x400 + (low - 0xDC00)) :: ofUnits rest
    else
      characterOf high :: ofUnits (low :: rest)

/-- A string after its opening quote, and the text after its closing quote. -/
def readString (text : Text) : Option (Text × Text) :=
  (readUnits text).map fun (units, after) => (ofUnits units, after)

theorem readUnits_length {text after : Text} {units : List Nat}
    (read : readUnits text = some (units, after)) : after.length < text.length := by
  fun_induction readUnits text generalizing units after with
  | case1 => simp at read
  | case2 rest => simp_all
  | case3 first second third fourth rest unit _ ih =>
    obtain ⟨⟨units', after'⟩, read', same⟩ := Option.map_eq_some_iff.1 read
    obtain ⟨-, rfl⟩ := Prod.mk.inj same
    have := ih read'
    simp only [List.length_cons]
    omega
  | case4 => simp at read
  | case5 letter rest _ character _ ih =>
    obtain ⟨⟨units', after'⟩, read', same⟩ := Option.map_eq_some_iff.1 read
    obtain ⟨-, rfl⟩ := Prod.mk.inj same
    have := ih read'
    simp only [List.length_cons]
    omega
  | case6 => simp at read
  | case7 => simp at read
  | case8 character rest _ _ _ _ ih =>
    obtain ⟨⟨units', after'⟩, read', same⟩ := Option.map_eq_some_iff.1 read
    obtain ⟨-, rfl⟩ := Prod.mk.inj same
    have := ih read'
    simp only [List.length_cons]
    omega

theorem readString_length {text after content : Text}
    (read : readString text = some (content, after)) : after.length < text.length := by
  obtain ⟨⟨units, after'⟩, read', same⟩ := Option.map_eq_some_iff.1 read
  simp only [Prod.mk.injEq] at same
  exact same.2 ▸ readUnits_length read'

/-- The digits at the start of a text, and what follows them. -/
def readDigits (text : Text) : Text × Text :=
  (text.takeWhile Char.isDigit, text.dropWhile Char.isDigit)

/-- The digits of a fraction and what follows it; a point without a digit is not a fraction. -/
def readFraction (text : Text) : Option Text × Text :=
  match text with
  | '.' :: rest =>
    match readDigits rest with
    | ([], _) => (none, text)
    | (digits, after) => (some digits, after)
  | _ => (none, text)

/-- A power of ten and what follows it; an exponent mark without a digit is not an exponent. -/
def readExponent (text : Text) : Option Int × Text :=
  match text with
  | mark :: rest =>
    if mark = 'e' ∨ mark = 'E' then
      let (negative, digitsOn) :=
        match rest with
        | '-' :: digitsOn => (true, digitsOn)
        | '+' :: digitsOn => (false, digitsOn)
        | _ => (false, rest)
      match readDigits digitsOn with
      | ([], _) => (none, text)
      | (digits, after) =>
        let power : Int := Text.toNat digits 0
        (some (if negative then -power else power), after)
    else
      (none, text)
  | [] => (none, text)

/-- The whole part of a number: a zero alone, or digits that do not start with zero. -/
def readWhole (text : Text) : Option (Text × Text) :=
  match text with
  | '0' :: rest => some (['0'], rest)
  | _ =>
    match readDigits text with
    | ([], _) => none
    | (digits, after) => some (digits, after)

/-- The number with the given sign at the start of a text, and what follows it. -/
def readUnsigned (negative : Bool) (text : Text) : Option (Json × Text) :=
  match readWhole text with
  | none => none
  | some (whole, afterWhole) =>
    match readFraction afterWhole with
    | (fraction, afterFraction) =>
      match readExponent afterFraction with
      | (power, after) =>
        match fraction, power with
        | none, none =>
          let value : Int := Text.toNat whole 0
          some (.integer (if negative then -value else value), after)
        | _, _ =>
          let decimals := fraction.getD []
          let digits := Text.toNat decimals (Text.toNat whole 0)
          some (.real (.ofDecimal negative digits (power.getD 0 - decimals.length)), after)

/-- The number at the start of a text, and what follows it. -/
def readNumber (text : Text) : Option (Json × Text) :=
  match text with
  | '-' :: rest => readUnsigned true rest
  | _ => readUnsigned false text

theorem readDigits_length (text : Text) : (readDigits text).2.length ≤ text.length :=
  (List.dropWhile_sublist _).length_le

theorem readDigits_length_lt {text digits after : Text} (read : readDigits text = (digits, after))
    (some_digit : digits ≠ []) : after.length < text.length := by
  simp only [readDigits, Prod.mk.injEq] at read
  have whole := congrArg List.length
    (List.takeWhile_append_dropWhile (p := Char.isDigit) (l := text))
  rw [read.1, read.2, List.length_append] at whole
  have := List.length_pos_iff.2 some_digit
  omega

theorem readFraction_length (text : Text) : (readFraction text).2.length ≤ text.length := by
  unfold readFraction
  split
  · rename_i rest
    have := readDigits_length rest
    split <;> simp_all
    omega
  · simp

theorem readExponent_length (text : Text) : (readExponent text).2.length ≤ text.length := by
  unfold readExponent
  split
  · rename_i mark rest
    split
    · split
      rename_i negative digitsOn same
      have shorter : digitsOn.length ≤ rest.length := by
        split at same <;>
          · obtain ⟨-, rfl⟩ := Prod.mk.inj same
            simp
      have := readDigits_length digitsOn
      split
      · simp
      · simp_all
        omega
    · simp
  · simp

theorem readWhole_length {text whole after : Text} (read : readWhole text = some (whole, after)) :
    after.length < text.length := by
  unfold readWhole at read
  split at read
  · simp_all
  · split at read
    · simp at read
    · rename_i digits after' nonempty same
      simp only [Option.some.injEq, Prod.mk.injEq] at read
      exact read.2 ▸ readDigits_length_lt same (by intro empty; exact nonempty empty)

theorem readUnsigned_length {negative : Bool} {text after : Text} {value : Json}
    (read : readUnsigned negative text = some (value, after)) : after.length < text.length := by
  unfold readUnsigned at read
  split at read
  · simp at read
  · rename_i whole afterWhole wholeRead
    have shorter := readWhole_length wholeRead
    have fraction := readFraction_length afterWhole
    have exponent := readExponent_length (readFraction afterWhole).2
    dsimp only at read
    split at read <;> simp only [Option.some.injEq, Prod.mk.injEq] at read <;>
      · rw [← read.2]
        omega

theorem readNumber_length {text after : Text} {value : Json}
    (read : readNumber text = some (value, after)) : after.length < text.length := by
  unfold readNumber at read
  split at read
  · have := readUnsigned_length read
    simp only [List.length_cons]
    omega
  · exact readUnsigned_length read

/-- A word with a meaning of its own at the start of a text, and what follows it. -/
def readWord (text : Text) : Option (Json × Text) :=
  match text with
  | 'n' :: 'u' :: 'l' :: 'l' :: rest => some (.null, rest)
  | 't' :: 'r' :: 'u' :: 'e' :: rest => some (.boolean true, rest)
  | 'f' :: 'a' :: 'l' :: 's' :: 'e' :: rest => some (.boolean false, rest)
  | 'N' :: 'a' :: 'N' :: rest => some (.real .undefined, rest)
  | 'I' :: 'n' :: 'f' :: 'i' :: 'n' :: 'i' :: 't' :: 'y' :: rest =>
    some (.real (.infinite false), rest)
  | '-' :: 'I' :: 'n' :: 'f' :: 'i' :: 'n' :: 'i' :: 't' :: 'y' :: rest =>
    some (.real (.infinite true), rest)
  | _ => none

theorem readWord_length {text after : Text} {value : Json}
    (read : readWord text = some (value, after)) : after.length < text.length := by
  unfold readWord at read
  split at read <;> simp_all <;> omega

/-- The name of a member with the colon after it, and what follows. -/
def readName (text : Text) : Option (Text × Text) :=
  match skipSpace text with
  | '"' :: rest =>
    match readString rest with
    | some (name, after) =>
      match skipSpace after with
      | ':' :: value => some (name, value)
      | _ => none
    | none => none
  | _ => none

theorem readName_length {text after name : Text} (read : readName text = some (name, after)) :
    after.length < text.length := by
  unfold readName at read
  split at read
  · rename_i rest start
    have skipped := skipSpace_length_le text
    rw [start, List.length_cons] at skipped
    split at read
    · rename_i name' after' stringRead
      have shorter := readString_length stringRead
      have skippedAfter := skipSpace_length_le after'
      split at read
      · rename_i value colon
        rw [colon, List.length_cons] at skippedAfter
        simp only [Option.some.injEq, Prod.mk.injEq] at read
        rw [← read.2]
        omega
      · simp at read
    · simp at read
  · simp at read

mutual

/-- The value at the start of a text, and what follows it. -/
def readValue (text : Text) : Option (Json × Text.Rest text) :=
  match start : skipSpace text with
  | '"' :: rest =>
    match read : readString rest with
    | some (content, after) =>
      some (.string content, ⟨after, by
        have := readString_length read
        have skipped := skipSpace_length_le text
        rw [start, List.length_cons] at skipped
        omega⟩)
    | none => none
  | '[' :: rest =>
    match empty : skipSpace rest with
    | ']' :: after =>
      some (.array [], ⟨after, by
        have skipped := skipSpace_length_le text
        have skippedRest := skipSpace_length_le rest
        rw [start, List.length_cons] at skipped
        rw [empty, List.length_cons] at skippedRest
        omega⟩)
    | _ =>
      match readItems rest with
      | some (items, after) =>
        some (.array items, ⟨after.1, by
          have skipped := skipSpace_length_le text
          rw [start, List.length_cons] at skipped
          have := after.2
          omega⟩)
      | none => none
  | '\x7b' :: rest =>
    match empty : skipSpace rest with
    | '\x7d' :: after =>
      some (.object [], ⟨after, by
        have skipped := skipSpace_length_le text
        have skippedRest := skipSpace_length_le rest
        rw [start, List.length_cons] at skipped
        rw [empty, List.length_cons] at skippedRest
        omega⟩)
    | _ =>
      match readMembers rest with
      | some (members, after) =>
        some (ofMembers members, ⟨after.1, by
          have skipped := skipSpace_length_le text
          rw [start, List.length_cons] at skipped
          have := after.2
          omega⟩)
      | none => none
  | other =>
    match read : (readWord other).or (readNumber other) with
    | some (value, after) =>
      some (value, ⟨after, by
        have skipped := skipSpace_length_le text
        rw [start] at skipped
        rcases Option.or_eq_some_iff.1 read with word | ⟨_, number⟩
        · have := readWord_length word
          omega
        · have := readNumber_length number
          omega⟩)
    | none => none
termination_by (text.length, 0)
decreasing_by
  all_goals
    have skipped := skipSpace_length_le text
    rw [start, List.length_cons] at skipped
    apply Prod.Lex.left
    omega

/-- The items from here to the end of their array, and what follows it. -/
def readItems (text : Text) : Option (List Json × Text.Rest text) :=
  match readValue text with
  | none => none
  | some (item, afterItem) =>
    match next : skipSpace afterItem.1 with
    | ']' :: after =>
      some ([item], ⟨after, by
        have skipped := skipSpace_length_le afterItem.1
        rw [next, List.length_cons] at skipped
        have := afterItem.2
        omega⟩)
    | ',' :: rest =>
      match readItems rest with
      | some (items, after) =>
        some (item :: items, ⟨after.1, by
          have skipped := skipSpace_length_le afterItem.1
          rw [next, List.length_cons] at skipped
          have := afterItem.2
          have := after.2
          omega⟩)
      | none => none
    | _ => none
termination_by (text.length, 1)
decreasing_by
  · apply Prod.Lex.right
    omega
  · have skipped := skipSpace_length_le afterItem.1
    rw [next, List.length_cons] at skipped
    have := afterItem.2
    apply Prod.Lex.left
    omega

/-- The members from here to the end of their object, and what follows it. -/
def readMembers (text : Text) : Option (List (Text × Json) × Text.Rest text) :=
  match named : readName text with
  | none => none
  | some (name, valueOn) =>
    match readValue valueOn with
    | none => none
    | some (value, afterValue) =>
      match next : skipSpace afterValue.1 with
      | '\x7d' :: after =>
        some ([(name, value)], ⟨after, by
          have skipped := skipSpace_length_le afterValue.1
          rw [next, List.length_cons] at skipped
          have := afterValue.2
          have := readName_length named
          omega⟩)
      | ',' :: rest =>
        match readMembers rest with
        | some (members, after) =>
          some ((name, value) :: members, ⟨after.1, by
            have skipped := skipSpace_length_le afterValue.1
            rw [next, List.length_cons] at skipped
            have := afterValue.2
            have := after.2
            have := readName_length named
            omega⟩)
        | none => none
      | _ => none
termination_by (text.length, 1)
decreasing_by
  · have := readName_length named
    apply Prod.Lex.left
    omega
  · have skipped := skipSpace_length_le afterValue.1
    rw [next, List.length_cons] at skipped
    have := afterValue.2
    have := readName_length named
    apply Prod.Lex.left
    omega

end

/-- The value that a whole text denotes. A byte order mark is not white space. -/
def ofText? (text : Text) : Option Json :=
  match readValue text with
  | some (value, after) => if skipSpace after.1 = [] then some value else none
  | none => none

/-- A text without what stands between quotes. -/
def unquoted (isInside : Bool) : Text → Text
  | [] => []
  | '"' :: rest => '"' :: unquoted (!isInside) rest
  | '\\' :: escaped :: rest =>
    if isInside then unquoted isInside rest else '\\' :: unquoted isInside (escaped :: rest)
  | character :: rest =>
    if isInside then unquoted isInside rest else character :: unquoted isInside rest

/-- A character that a number may hold. -/
def isNumberCharacter (character : Char) : Bool :=
  character.isDigit || ['-', '+', '.', 'e', 'E'].contains character

/-- The digits of the first whole number in a document that has too many of them. -/
def longNumber? (text : Text) : Option Text :=
  ((Text.splitWhere (!isNumberCharacter ·) (unquoted false text)).map (·.dropWhile (· = '-'))).find?
    fun number => number.all Char.isDigit && Text.longestNumber < number.length

end Json

end BundleDecl
