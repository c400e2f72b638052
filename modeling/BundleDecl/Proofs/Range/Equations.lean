import BundleDecl.Proofs.Range.Derivation

/-!
# The reader as equations

What the reader gives for a text, without the proofs that it consumes text, in terms of what it
gives for later parts of that text. Blanks before a range make no difference to it.

A reader with an index in the text has moved over the blanks before an ampersand by the time it
finds none. `readExpression` and `readMore` therefore leave what the reader leaves without its
blanks.
-/

namespace BundleDecl

namespace Range

variable {Value : Type} {text rest : Text}

/-- What a step of the reader gives, without the proof that text was consumed. -/
def plain (result : Except Obstacle (Value × Text.Rest text)) : Except Obstacle (Value × Text) :=
  result.map fun (value, rest) => (value, rest.1)

theorem plain_ok (value : Value) (rest : Text.Rest text) :
    plain (.ok (value, rest)) = .ok (value, rest.1) :=
  rfl

theorem length_lt_of_plain {result : Except Obstacle (Value × Text.Rest text)} {value : Value}
    (found : plain result = .ok (value, rest)) : rest.length < text.length := by
  rcases result with obstacle | ⟨value', rest'⟩
  · simp [plain, Except.map] at found
  · rw [plain_ok, Except.ok.injEq, Prod.mk.injEq] at found
    rw [← found.2]
    exact rest'.2

/-! ## Blanks and numbers -/

theorem skipBlanks_skipBlanks (text : Text) : skipBlanks (skipBlanks text) = skipBlanks text :=
  List.dropWhile_idempotent ..

theorem skipBlanks_cons {character : Char} {tail : Text}
    (start : skipBlanks text = character :: tail) :
    skipBlanks (character :: tail) = character :: tail := by
  rw [← start, skipBlanks_skipBlanks]

theorem readNumber_skipBlanks (text : Text) : readNumber (skipBlanks text) = readNumber text := by
  rw [readNumber, readNumber, skipBlanks_skipBlanks]

/-- A number lies between the blanks before it and what follows it. -/
theorem readNumber_fst_eq_take (text : Text) : (readNumber text).1 =
    (skipBlanks text).take ((skipBlanks text).length - (readNumber text).2.length) := by
  have split : (readNumber text).1 ++ (readNumber text).2 = skipBlanks text :=
    List.takeWhile_append_dropWhile
  have size : (skipBlanks text).length - (readNumber text).2.length =
      (readNumber text).1.length := by
    rw [← split, List.length_append, Nat.add_sub_cancel]
  rw [size, ← split]
  exact List.take_left.symm

theorem map_checkNumber (number left : Text) (f : Text → Value) :
    (((checkNumber number left).map fun version => (version, left)).map
      fun (version, left) => (f version, left)) =
      (checkNumber number left).map fun version => (f version, left) := by
  rcases checkNumber number left with _ | _ <;> rfl

/-! ## Ranges in braces -/

/-- The right bound and the closing brace, after a left bound and its comma. -/
theorem readRightBound_eq (opening : Char) (left text : Text) : readRightBound opening left text =
    if (readNumber text).1 = [] then
      .error ⟨.emptyRightBound, (readNumber text).2⟩
    else
      (checkNumber (readNumber text).1 (readNumber text).2).bind fun right =>
        match skipBlanks (readNumber text).2 with
        | [] => .error ⟨.unexpectedEnd, []⟩
        | closing :: after =>
          if closing ≠ ')' ∧ closing ≠ ']' then
            .error ⟨.invalidEnding closing, closing :: after⟩
          else if Version.isBelow left right then
            .ok (bounded left right (opening = '[') (closing = ']'), after)
          else
            .error ⟨.invalidBounds opening left right closing, after⟩ :=
  rfl

/-- A range in braces, after its opening brace. -/
theorem readBraced_eq (opening : Char) (text : Text) : readBraced opening text =
    match skipBlanks (readNumber text).2 with
    | [] => .error ⟨.missingClosingBrace, []⟩
    | ',' :: rest =>
      if (readNumber text).1 = [] then
        .error ⟨.emptyLeftBound, ',' :: rest⟩
      else
        (checkNumber (readNumber text).1 (',' :: rest)).bind fun left =>
          readRightBound opening left rest
    | closing :: after =>
      if closing ≠ ')' ∧ closing ≠ ']' then
        .error ⟨.invalidCharacter closing, closing :: after⟩
      else if (readNumber text).1 = [] then
        .error ⟨.emptyBound, after⟩
      else
        (checkNumber (readNumber text).1 after).bind fun version =>
          (singleBound opening closing version after).bind fun range => .ok (range, after) :=
  rfl

/-! ## Ranges -/

/-- A union, after its opening brace. -/
def readUnion (text : Text) : Except Obstacle (Range × Text) :=
  match skipBlanks text with
  | [] => .error ⟨.unclosedUnion, []⟩
  | '\x7d' :: after => .ok (unsatisfiable, after)
  | _ => (plain (readAlternatives text)).map fun (members, after) => (unionOf members, after)

theorem readUnion_of_ne (notNil : skipBlanks text ≠ [])
    (notBrace : ∀ after, skipBlanks text ≠ '\x7d' :: after) : readUnion text =
      (plain (readAlternatives text)).map fun (members, after) => (unionOf members, after) := by
  rw [readUnion]
  split
  · rename_i next
    exact absurd next notNil
  · rename_i after next
    exact absurd next (notBrace after)
  · rfl

theorem length_lt_of_readUnion {range : Range} (found : readUnion text = .ok (range, rest)) :
    rest.length < text.length := by
  rw [readUnion] at found
  split at found
  · cases found
  · rename_i after start
    cases found
    exact Symbol.length_lt start
  · rcases read : plain (readAlternatives text) with obstacle | ⟨members, after⟩
    · simp [read, Except.map] at found
    · rw [read] at found
      cases found
      exact length_lt_of_plain read

/-- The first character after blanks decides which form an atom has. -/
theorem plain_readAtom (text : Text) : plain (readAtom text) =
    match skipBlanks text with
    | [] => .error ⟨.unexpectedEnd, []⟩
    | first :: tail =>
      if Text.isDigitCharacter first then
        (checkNumber (readNumber text).1 (readNumber text).2).map
          fun version => (base version, (readNumber text).2)
      else if first = '(' ∨ first = '[' then
        readBraced first tail
      else if first = '\x7b' then
        readUnion tail
      else
        .error ⟨.invalidCharacter first, first :: tail⟩ := by
  rcases start : skipBlanks text with _ | ⟨first, tail⟩
  · rw [readAtom]
    split
    · rfl
    · rename_i start'
      exact absurd (start.symm.trans start') (by simp)
  · rw [readAtom]
    split
    · rename_i start'
      exact absurd (start.symm.trans start') (by simp)
    · rename_i start'
      rcases List.cons.inj (start.symm.trans start') with ⟨rfl, rfl⟩
      simp only
      split
      · -- A version number.
        split
        · rename_i checked
          rw [checked]
          rfl
        · rename_i checked
          simp only [plain_ok, checked]
          rfl
      · split
        · -- Braces around bounds.
          split
          · rename_i braced
            exact braced.symm
          · rename_i braced
            exact braced.symm
        · split
          · -- A union.
            split
            · rename_i next
              simp only [readUnion, next]
              rfl
            · rename_i next
              simp only [readUnion, next]
              rfl
            · rename_i notNil notBrace
              rw [readUnion_of_ne notNil notBrace]
              rcases readAlternatives tail with _ | _ <;> rfl
          · rfl

theorem plain_readFactors (text : Text) : plain (readFactors text) =
    (plain (readAtom text)).bind fun (factor, mid) =>
      match skipBlanks mid with
      | '&' :: next =>
        (plain (readFactors next)).map fun (factors, after) => (factor :: factors, after)
      | _ => .ok ([factor], mid) := by
  rcases found : readAtom text with obstacle | ⟨factor, mid⟩
  · rw [readFactors, found]
    rfl
  · rw [readFactors, found]
    simp only [plain_ok, Except.bind]
    split
    · rename_i next start
      simp only [start]
      rcases readFactors next with _ | _ <;> rfl
    · rename_i noAmpersand
      split
      · rename_i next start
        exact absurd start (noAmpersand next)
      · rfl

theorem plain_readAtom_skipBlanks (text : Text) :
    plain (readAtom (skipBlanks text)) = plain (readAtom text) := by
  rw [plain_readAtom, plain_readAtom, skipBlanks_skipBlanks, readNumber_skipBlanks]

theorem plain_readFactors_skipBlanks (text : Text) :
    plain (readFactors (skipBlanks text)) = plain (readFactors text) := by
  rw [plain_readFactors, plain_readFactors, plain_readAtom_skipBlanks]

/-- Ranges with ampersands between them as one range, and what follows them and blanks. -/
def readExpression (text : Text) : Except Obstacle (Range × Text) :=
  (plain (readFactors text)).map fun (factors, after) => (intersectionOf factors, skipBlanks after)

theorem readExpression_skipBlanks (text : Text) :
    readExpression (skipBlanks text) = readExpression text := by
  rw [readExpression, readExpression, plain_readFactors_skipBlanks]

theorem readExpression_eq_ok {factors : List Range} {mid : Text}
    (found : plain (readFactors text) = .ok (factors, mid)) :
    readExpression text = .ok (intersectionOf factors, skipBlanks mid) := by
  rw [readExpression, found]
  rfl

theorem length_lt_of_readExpression {range : Range}
    (found : readExpression text = .ok (range, rest)) : rest.length < text.length := by
  rcases read : plain (readFactors text) with obstacle | ⟨factors, mid⟩
  · simp [readExpression, read, Except.map] at found
  · rw [readExpression_eq_ok read, Except.ok.injEq, Prod.mk.injEq] at found
    rw [← found.2]
    exact (skipBlanks_length_le mid).trans_lt (length_lt_of_plain read)

/-- The ranges that follow after ampersands, and what follows them and blanks. -/
def readMore (text : Text) : Except Obstacle (List Range × Text) :=
  match skipBlanks text with
  | '&' :: next =>
    (plain (readFactors next)).map fun (factors, after) => (factors, skipBlanks after)
  | left => .ok ([], left)

theorem readMore_of_ne (other : ∀ next, skipBlanks text ≠ '&' :: next) :
    readMore text = .ok ([], skipBlanks text) := by
  rw [readMore]
  split
  · rename_i next start
    exact absurd start (other next)
  · rfl

theorem map_readFactors (text : Text) :
    ((plain (readFactors text)).map fun (factors, after) => (factors, skipBlanks after)) =
      (plain (readAtom text)).bind fun (factor, mid) =>
        (readMore mid).map fun (factors, after) => (factor :: factors, after) := by
  rw [plain_readFactors]
  rcases plain (readAtom text) with obstacle | ⟨factor, mid⟩
  · rfl
  · simp only [Except.bind, readMore]
    split
    · rename_i next start
      rcases plain (readFactors next) with _ | _ <;> rfl
    · rfl

theorem readMore_of_ampersand {next : Text} (start : skipBlanks text = '&' :: next) :
    readMore text = (plain (readAtom next)).bind fun (factor, mid) =>
      (readMore mid).map fun (factors, after) => (factor :: factors, after) := by
  rw [← map_readFactors, readMore]
  simp only [start]

theorem readExpression_eq (text : Text) : readExpression text =
    (plain (readAtom text)).bind fun (factor, mid) =>
      (readMore mid).map fun (factors, after) => (intersectionOf (factor :: factors), after) := by
  have whole : readExpression text =
      ((plain (readFactors text)).map fun (factors, after) => (factors, skipBlanks after)).map
        fun (factors, after) => (intersectionOf factors, after) := by
    rw [readExpression]
    rcases plain (readFactors text) with _ | _ <;> rfl
  rw [whole, map_readFactors]
  rcases plain (readAtom text) with obstacle | ⟨factor, mid⟩
  · rfl
  · simp only [Except.bind]
    rcases readMore mid with _ | _ <;> rfl

theorem plain_readAlternatives (text : Text) : plain (readAlternatives text) =
    (readExpression text).bind fun (member, mid) =>
      match skipBlanks mid with
      | [] => .error ⟨.unclosedUnion, []⟩
      | '\x7d' :: after => .ok ([member], after)
      | '|' :: next =>
        (plain (readAlternatives next)).map fun (members, after) => (member :: members, after)
      | character :: after => .error ⟨.unexpectedCharacter character, after⟩ := by
  rcases found : readFactors text with obstacle | ⟨factors, mid⟩
  · rw [readAlternatives, readExpression, found]
    rfl
  · have read : readExpression text = .ok (intersectionOf factors, skipBlanks mid.1) :=
      readExpression_eq_ok (by rw [found, plain_ok])
    rw [readAlternatives, read, found]
    simp only [Except.bind, skipBlanks_skipBlanks]
    split
    · rename_i start
      simp only [start]
      rfl
    · rename_i after start
      simp only [start]
      rfl
    · rename_i next start
      simp only [start]
      rcases readAlternatives next with _ | _ <;> rfl
    · rename_i character after notBrace notBar start
      simp only [start]
      rfl

theorem plain_readAlternatives_skipBlanks (text : Text) :
    plain (readAlternatives (skipBlanks text)) = plain (readAlternatives text) := by
  rw [plain_readAlternatives, plain_readAlternatives, readExpression_skipBlanks]

end Range

end BundleDecl
