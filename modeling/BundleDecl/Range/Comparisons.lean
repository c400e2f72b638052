import BundleDecl.Host
import BundleDecl.Range.Parser

/-!
# Comparisons in the reading of ranges

When a range with two bounds is read, its bounds are compared as soon as its closing brace has been
seen. These comparisons are all that is converted to numbers in the reading of a range. Which of
them are made follows the reading of the text itself, up to its end or to the first problem.
-/

namespace BundleDecl

namespace Range

theorem skipBlanks_length_lt {text rest : Text} {first : Char}
    (start : skipBlanks text = first :: rest) : rest.length < text.length := by
  have skipped := skipBlanks_length_le text
  rw [start, List.length_cons] at skipped
  omega

/-- The bounds that are compared when the right one of them is read. -/
def rightComparisons (left text : Text) : List (Text × Text) :=
  let (right, afterRight) := readNumber text
  match skipBlanks afterRight with
  | [] => []
  | closing :: _ =>
    if Version.isValid right ∧ (closing = ')' ∨ closing = ']') then [(left, right)] else []

/-- The bounds that are compared in the range after an opening brace. -/
def bracedComparisons (text : Text) : List (Text × Text) :=
  let (left, afterLeft) := readNumber text
  match skipBlanks afterLeft with
  | ',' :: rest => if Version.isValid left then rightComparisons left rest else []
  | _ => []

mutual

/-- The bounds that are compared in the range without ampersands at the start of a text. -/
def atomComparisons (text : Text) : List (Text × Text) :=
  match _ : skipBlanks text with
  | [] => []
  | first :: rest =>
    if Text.isDigitCharacter first then
      []
    else if first = '(' ∨ first = '[' then
      bracedComparisons rest
    else if first = '\x7b' then
      match skipBlanks rest with
      | [] => []
      | '\x7d' :: _ => []
      | _ => unionComparisons rest
    else
      []
termination_by (text.length, 0)
decreasing_by exact .left _ _ (skipBlanks_length_lt ‹_›)

/-- The bounds that are compared in the ranges between ampersands at the start of a text. -/
def comparisons (text : Text) : List (Text × Text) :=
  atomComparisons text ++
    match readAtom text with
    | .error _ => []
    | .ok (_, afterFactor) =>
      match _ : skipBlanks afterFactor.1 with
      | '&' :: rest => comparisons rest
      | _ => []
termination_by (text.length, 1)
decreasing_by
  · exact .right _ (by decide)
  · exact .left _ _ (Nat.lt_trans (skipBlanks_length_lt ‹_›) afterFactor.2)

/-- The bounds that are compared in the members of a union from here on. -/
def unionComparisons (text : Text) : List (Text × Text) :=
  comparisons text ++
    match readFactors text with
    | .error _ => []
    | .ok (_, afterFactors) =>
      match _ : skipBlanks afterFactors.1 with
      | '|' :: rest => unionComparisons rest
      | _ => []
termination_by (text.length, 2)
decreasing_by
  · exact .right _ (by decide)
  · exact .left _ _ (Nat.lt_trans (skipBlanks_length_lt ‹_›) afterFactors.2)

end

/-- The interruption of the reading of a text as a range. -/
def interruption? (host : Host) (text : Text) : Option Interruption :=
  (host.interruption? (.range text)).or
    ((comparisons text).findSome? fun (left, right) => Version.interruption? left right)

/-- The range that a text denotes, within the limits of the host. -/
def ofTextWithin (host : Host) (text : Text) : Except (Halt Failure) Range :=
  interruptedBy (interruption? host text) (ofText text)

end Range

end BundleDecl
