import BundleDecl.Range
import BundleDecl.Text
import BundleDecl.Text.Digit

/-!
# Reading version ranges

The written forms of a range, with any spaces and tabs between their parts:

* `1.0` is that version and every version that continues it;
* `[1.0)` is at least, `(1.0]` at most and `[1.0]` exactly that version;
* `[1.0, 2.0)` lies between two versions, where a square brace includes its bound;
* a list of ranges with bars between them in curly braces is their union, and empty curly braces
  include nothing;
* ranges with ampersands between them are their intersection.

Every step takes the text that is left and returns what it leaves, which is always shorter; that is
why reading ends. A problem is reported with the text that was left when it was found, from which
the position in the whole text follows.
-/

namespace BundleDecl

namespace Range

/-- A problem and the text that was left when it was found. -/
structure Obstacle where
  /-- What is wrong. -/
  problem : RangeProblem
  left : Text
  deriving DecidableEq, Repr

/-- A text from its first part on. -/
def skipBlanks (text : Text) : Text :=
  text.dropWhile Text.isIndentCharacter

theorem skipBlanks_length_le (text : Text) : (skipBlanks text).length ≤ text.length :=
  (List.dropWhile_sublist _).length_le

/-- A character that a version number may hold. -/
def isNumberCharacter (character : Char) : Bool :=
  character.isDigit || character = '.'

/-- The longest run of digits and dots after blanks, which may be empty, and what follows it. -/
def readNumber (text : Text) : Text × Text :=
  let start := skipBlanks text
  (start.takeWhile isNumberCharacter, start.dropWhile isNumberCharacter)

/-- A version number that was read; other runs of digits and dots are a problem. -/
def checkNumber (number left : Text) : Except Obstacle Text :=
  if Version.isValid number then .ok number else .error ⟨.invalidNumber number, left⟩

/-- The right bound and the closing brace of a range with two bounds. -/
def readRightBound (opening : Char) (left text : Text) : Except Obstacle (Range × Text) := do
  let (right, afterRight) := readNumber text
  if right = [] then
    throw ⟨.emptyRightBound, afterRight⟩
  let right ← checkNumber right afterRight
  match skipBlanks afterRight with
  | [] => throw ⟨.unexpectedEnd, []⟩
  | closing :: after =>
    if closing ≠ ')' ∧ closing ≠ ']' then
      throw ⟨.invalidEnding closing, closing :: after⟩
    else if Version.isBelow left right then
      return (bounded left right (opening = '[') (closing = ']'), after)
    else
      throw ⟨.invalidBounds opening left right closing, after⟩

/-- The range of one version between two braces. -/
def singleBound (opening closing : Char) (version after : Text) : Except Obstacle Range :=
  if opening = '[' then
    .ok (if closing = ']' then exact version else minimum version)
  else if closing = ')' then
    .error ⟨.illegalDefinition version, after⟩
  else
    .ok (maximum version)

/-- The range that starts with an opening brace, after that brace. -/
def readBraced (opening : Char) (text : Text) : Except Obstacle (Range × Text) := do
  let (left, afterLeft) := readNumber text
  match skipBlanks afterLeft with
  | [] => throw ⟨.missingClosingBrace, []⟩
  | ',' :: rest =>
    if left = [] then
      throw ⟨.emptyLeftBound, ',' :: rest⟩
    let left ← checkNumber left (',' :: rest)
    readRightBound opening left rest
  | closing :: after =>
    if closing ≠ ')' ∧ closing ≠ ']' then
      throw ⟨.invalidCharacter closing, closing :: after⟩
    if left = [] then
      throw ⟨.emptyBound, after⟩
    let version ← checkNumber left after
    return (← singleBound opening closing version after, after)

theorem readNumber_length_le (text : Text) : (readNumber text).2.length ≤ text.length :=
  Nat.le_trans (List.dropWhile_sublist _).length_le (skipBlanks_length_le text)

theorem isValid_nil : Version.isValid [] = false := by
  decide

theorem readNumber_length_lt {text : Text} (valid : Version.isValid (readNumber text).1 = true) :
    (readNumber text).2.length < text.length := by
  have whole := congrArg List.length
    (List.takeWhile_append_dropWhile (p := isNumberCharacter) (l := skipBlanks text))
  have skipped := skipBlanks_length_le text
  have nonempty : (readNumber text).1 ≠ [] := by
    intro empty
    rw [empty, isValid_nil] at valid
    exact Bool.false_ne_true valid
  have := List.length_pos_iff.2 nonempty
  simp only [readNumber] at *
  rw [List.length_append] at whole
  omega

theorem checkNumber_eq_ok {number left version : Text}
    (checked : checkNumber number left = .ok version) :
    Version.isValid number = true ∧ version = number := by
  unfold checkNumber at checked
  split at checked
  · exact ⟨by assumption, (Except.ok.inj checked).symm⟩
  · simp at checked

theorem readRightBound_length {opening : Char} {left text after : Text} {range : Range}
    (read : readRightBound opening left text = .ok (range, after)) :
    after.length < text.length := by
  have number := readNumber_length_le text
  unfold readRightBound at read
  simp only [bind, Except.bind, pure, Except.pure, throw, throwThe, MonadExceptOf.throw] at read
  have skipped := skipBlanks_length_le (readNumber text).2
  split at read
  · simp at read
  · split at read
    · simp at read
    · split at read
      · simp at read
      · rename_i closing after' same
        rw [same, List.length_cons] at skipped
        split at read
        · simp at read
        · split at read
          · simp only [Except.ok.injEq, Prod.mk.injEq] at read
            rw [← read.2]
            omega
          · simp at read

theorem readBraced_length {opening : Char} {text after : Text} {range : Range}
    (read : readBraced opening text = .ok (range, after)) : after.length < text.length := by
  have number := readNumber_length_le text
  unfold readBraced at read
  simp only [bind, Except.bind, pure, Except.pure, throw, throwThe, MonadExceptOf.throw] at read
  have skipped := skipBlanks_length_le (readNumber text).2
  split at read
  · simp at read
  · rename_i rest same
    rw [same, List.length_cons] at skipped
    split at read
    · simp at read
    · split at read
      · simp at read
      · have := readRightBound_length read
        omega
  · rename_i closing after' _ same
    rw [same, List.length_cons] at skipped
    split at read
    · simp at read
    · split at read
      · simp at read
      · split at read
        · simp at read
        · split at read
          · simp at read
          · simp only [Except.ok.injEq, Prod.mk.injEq] at read
            rw [← read.2]
            omega

mutual

/-- The range without ampersands at the start of a text, and what follows it. -/
def readAtom (text : Text) : Except Obstacle (Range × Text.Rest text) :=
  match start : skipBlanks text with
  | [] => .error ⟨.unexpectedEnd, []⟩
  | first :: rest =>
    if Text.isDigitCharacter first then
      match checked : checkNumber (readNumber text).1 (readNumber text).2 with
      | .error obstacle => .error obstacle
      | .ok version =>
        .ok (base version,
          ⟨(readNumber text).2, readNumber_length_lt (checkNumber_eq_ok checked).1⟩)
    else if first = '(' ∨ first = '[' then
      match read : readBraced first rest with
      | .error obstacle => .error obstacle
      | .ok (range, after) =>
        .ok (range, ⟨after, by
          have := readBraced_length read
          have skipped := skipBlanks_length_le text
          rw [start, List.length_cons] at skipped
          omega⟩)
    else if first = '\x7b' then
      match next : skipBlanks rest with
      | [] => .error ⟨.unclosedUnion, []⟩
      | '\x7d' :: after =>
        .ok (unsatisfiable, ⟨after, by
          have skipped := skipBlanks_length_le text
          have skippedRest := skipBlanks_length_le rest
          rw [start, List.length_cons] at skipped
          rw [next, List.length_cons] at skippedRest
          omega⟩)
      | _ =>
        match readAlternatives rest with
        | .error obstacle => .error obstacle
        | .ok (members, after) =>
          .ok (unionOf members, ⟨after.1, by
            have skipped := skipBlanks_length_le text
            rw [start, List.length_cons] at skipped
            have := after.2
            omega⟩)
    else
      .error ⟨.invalidCharacter first, first :: rest⟩
termination_by (text.length, 0)
decreasing_by
  have skipped := skipBlanks_length_le text
  rw [start, List.length_cons] at skipped
  apply Prod.Lex.left
  omega

/-- The ranges between ampersands at the start of a text, and what follows them. -/
def readFactors (text : Text) : Except Obstacle (List Range × Text.Rest text) :=
  match readAtom text with
  | .error obstacle => .error obstacle
  | .ok (factor, afterFactor) =>
    match next : skipBlanks afterFactor.1 with
    | '&' :: rest =>
      match readFactors rest with
      | .error obstacle => .error obstacle
      | .ok (factors, after) =>
        .ok (factor :: factors, ⟨after.1, by
          have skipped := skipBlanks_length_le afterFactor.1
          rw [next, List.length_cons] at skipped
          have := afterFactor.2
          have := after.2
          omega⟩)
    | _ => .ok ([factor], afterFactor)
termination_by (text.length, 1)
decreasing_by
  · apply Prod.Lex.right
    omega
  · have skipped := skipBlanks_length_le afterFactor.1
    rw [next, List.length_cons] at skipped
    have := afterFactor.2
    apply Prod.Lex.left
    omega

/-- The members of a union from here to its closing brace, and what follows that brace. -/
def readAlternatives (text : Text) : Except Obstacle (List Range × Text.Rest text) :=
  match readFactors text with
  | .error obstacle => .error obstacle
  | .ok (factors, afterFactors) =>
    match next : skipBlanks afterFactors.1 with
    | [] => .error ⟨.unclosedUnion, []⟩
    | '\x7d' :: after =>
      .ok ([intersectionOf factors], ⟨after, by
        have skipped := skipBlanks_length_le afterFactors.1
        rw [next, List.length_cons] at skipped
        have := afterFactors.2
        omega⟩)
    | '|' :: rest =>
      match readAlternatives rest with
      | .error obstacle => .error obstacle
      | .ok (members, after) =>
        .ok (intersectionOf factors :: members, ⟨after.1, by
          have skipped := skipBlanks_length_le afterFactors.1
          rw [next, List.length_cons] at skipped
          have := afterFactors.2
          have := after.2
          omega⟩)
    | character :: rest => .error ⟨.unexpectedCharacter character, rest⟩
termination_by (text.length, 2)
decreasing_by
  · apply Prod.Lex.right
    omega
  · have skipped := skipBlanks_length_le afterFactors.1
    rw [next, List.length_cons] at skipped
    have := afterFactors.2
    apply Prod.Lex.left
    omega

end

/-- The range that a non-blank text denotes. -/
def read (text : Text) : Except Obstacle Range :=
  match readFactors text with
  | .error obstacle => .error obstacle
  | .ok (factors, after) =>
    match skipBlanks after.1 with
    | [] => .ok (intersectionOf factors)
    | left => .error ⟨.extraCharacters, left⟩

/-- The range that a text denotes, however deep and long it is. -/
def ofText (text : Text) : Except Failure Range :=
  if text = [] then
    fail .emptyRange
  else if skipBlanks text = [] then
    fail (.blankRange text)
  else
    match read text with
    | .ok range => .ok range
    | .error obstacle =>
      fail (.range obstacle.problem (text.length - obstacle.left.length) text)

end Range

end BundleDecl
