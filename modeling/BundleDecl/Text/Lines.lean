import BundleDecl.Text

/-!
# Lines

A line ends at a carriage return, a line feed, or a carriage return followed by a line feed. The
physical lines of a text are numbered from one; lines of spaces and tabs only are skipped by every
reader, but they count.
-/

namespace BundleDecl

namespace Text

/-- The pieces of a text between its line terminators; there is always at least one. -/
def splitLines : Text → List Text
  | [] => [[]]
  | '\r' :: '\n' :: rest => [] :: splitLines rest
  | character :: rest =>
    if character = '\r' ∨ character = '\n' then
      [] :: splitLines rest
    else
      match splitLines rest with
      | [] => [[character]]
      | line :: lines => (character :: line) :: lines

/-- The text with a line feed in place of every line terminator. -/
def withLineFeeds (text : Text) : Text :=
  joinWith ['\n'] (splitLines text)

/-- The lines of a text; nothing after the last line terminator is not a line. -/
def lines (text : Text) : List Text :=
  let pieces := splitLines text
  if pieces.getLast? = some [] then pieces.dropLast else pieces

end Text

/-- A line with its number. -/
structure Line where
  /-- The number of the line, counted from one. -/
  number : Nat
  /-- The text of the line without its terminator. -/
  text : Text
  deriving DecidableEq, Repr

namespace Line

/-- The lines that are not blank, numbered on from a line that was already seen. -/
def nonBlankFrom (seen : Nat) : List Text → List Line
  | [] => []
  | text :: rest =>
    if Text.isBlank text then
      nonBlankFrom (seen + 1) rest
    else
      ⟨seen + 1, text⟩ :: nonBlankFrom (seen + 1) rest

/-- The lines that are not blank, with their numbers. -/
def nonBlank (lines : List Text) : List Line :=
  nonBlankFrom 0 lines

theorem nonBlankFrom_append (seen : Nat) (left right : List Text) :
    nonBlankFrom seen (left ++ right) =
      nonBlankFrom seen left ++ nonBlankFrom (seen + left.length) right := by
  induction left generalizing seen with
  | nil => rfl
  | cons text rest ih =>
    simp only [List.cons_append, nonBlankFrom, ih, List.length_cons, Nat.add_assoc,
      Nat.add_comm 1]
    split <;> rfl

end Line

end BundleDecl
