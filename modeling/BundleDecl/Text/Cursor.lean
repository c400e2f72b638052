import BundleDecl.Text.Lines

/-!
# Stepping through lines

A cursor stands behind the lines that were consumed and has the next line that is not blank in
sight. So that line can be looked at without consuming it, and the blank lines in front of it have
been passed already, although the last consumed line is still the one before them.
-/

namespace BundleDecl

/-- A place among the lines of a text. -/
structure Cursor where
  /-- The lines behind the one in sight. -/
  ahead : List Text
  /-- The number of lines that are not ahead. -/
  seen : Nat
  /-- The next line, if there is one. -/
  inSight : Option Line
  /-- The number of the line that was consumed last, or zero. -/
  lineNumber : Nat
  deriving DecidableEq, Repr

namespace Cursor

/-- The place from which the first of some lines that is not blank is in sight. -/
def lookAhead (seen lineNumber : Nat) : List Text → Cursor
  | [] => ⟨[], seen, none, lineNumber⟩
  | text :: rest =>
    if Text.isBlank text then
      lookAhead (seen + 1) lineNumber rest
    else
      ⟨rest, seen + 1, some ⟨seen + 1, text⟩, lineNumber⟩

/-- The place before the first of some lines. -/
def ofLines (lines : List Text) : Cursor :=
  lookAhead 0 0 lines

/-- Whether a line remains. -/
def hasNext (cursor : Cursor) : Bool :=
  cursor.inSight.isSome

/-- The next line, which stays where it is. -/
def peek? (cursor : Cursor) : Option Text :=
  cursor.inSight.map Line.text

/-- The place after the next line. -/
def move? (cursor : Cursor) : Option Cursor :=
  cursor.inSight.map fun line => lookAhead cursor.seen line.number cursor.ahead

/-- The next line and the place after it. -/
def next? (cursor : Cursor) : Option (Text × Cursor) := do
  let text ← cursor.peek?
  let after ← cursor.move?
  return (text, after)

end Cursor

end BundleDecl
