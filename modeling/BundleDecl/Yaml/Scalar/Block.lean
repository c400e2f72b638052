import BundleDecl.Yaml.Fault
import BundleDecl.Yaml.Place

/-!
# Block scalars

A block scalar consists of lines that are indented more than the collection it stands in. Its lines
are kept, or folded where neither of two neighbouring lines starts with a blank. A header says what
becomes of the line breaks at the end, and may say how far the lines are indented.
-/

namespace BundleDecl

namespace Yaml

namespace Block

/-- What becomes of the line breaks at the end. -/
inductive Chomping where
  /-- One of them is kept. -/
  | clip
  /-- None of them is kept. -/
  | strip
  /-- All of them are kept. -/
  | keep
  deriving DecidableEq, Repr

/-- The header of a block scalar. -/
structure Header where
  /-- What becomes of the line breaks at the end. -/
  chomping : Chomping
  /-- The number of columns by which the lines are indented more, if it is given. -/
  increment : Option Nat
  deriving DecidableEq, Repr

/-- What a sign at a place says about the line breaks at the end, and the place after it. -/
def chomping? (place : Place) : Option (Chomping × Place) :=
  match place.rest with
  | '+' :: _ => some (.keep, place.next)
  | '-' :: _ => some (.strip, place.next)
  | _ => none

/--
The number of columns that a digit at a place says, which is not zero, and the place after it.
-/
def increment? (place : Place) : Except Fault (Option Nat × Place) :=
  match place.rest with
  | [] => .ok (none, place)
  | digit :: _ =>
    if digit = '0' then .error .malformed
    else if digit.isDigit then .ok (some (digit.toNat - '0'.toNat), place.next)
    else .ok (none, place)

/--
The header at a place, in which sign and digit may be in either order, and the place after it.
-/
def header (place : Place) : Except Fault (Header × Place) :=
  match chomping? place with
  | some (chomping, next) => do
    let (increment, last) ← increment? next
    return (⟨chomping, increment⟩, last)
  | none => do
    let (increment, next) ← increment? place
    match increment, chomping? next with
    | some _, some (chomping, last) => return (⟨chomping, increment⟩, last)
    | _, _ => return (⟨.clip, increment⟩, next)

/-- The place after the rest of a line that holds nothing but spaces and a comment. -/
def skipLine (place : Place) : Except Fault Place :=
  let start := place.skipSpaces
  let after := if start.isAt '#' then start.skipWhile (!isBreak ·) else start
  if endsLine after.rest then .ok after.next else .error .malformed

/-- The line breaks before the first line, the greatest column before it, and its place. -/
def detectIndent : Nat → Text → Place → Text × Nat × Place
  | greatest, [], place => ([], greatest, place)
  | greatest, first :: rest, place =>
    if first = ' ' then
      detectIndent (max greatest place.next.column) rest place.next
    else if isBreak first then
      let (breaks, column, last) := detectIndent greatest rest place.next
      (unifiedBreak first :: breaks, column, last)
    else
      ([], greatest, place)

/-- The line breaks before the next line that is indented at most to a column, and its place. -/
def breaksBefore (indent : Nat) : Text → Place → Text × Place
  | [], place => ([], place)
  | first :: rest, place =>
    if first = ' ' && place.column < indent then
      breaksBefore indent rest place.next
    else if isBreak first then
      let (breaks, last) := breaksBefore indent rest place.next
      (unifiedBreak first :: breaks, last)
    else
      ([], place)

/-- Whether a line starts with a blank. -/
def startsBlank (text : Text) : Bool :=
  text.head?.any isBlankCharacter

/-- The lines of a block scalar, and what follows the last one. -/
structure Lines where
  /-- The lines with the line breaks between them. -/
  text : Text
  /-- The line break after the last line, if there is one. -/
  lineBreak : Text
  /-- The further line breaks. -/
  breaks : Text
  /-- The place after the line breaks. -/
  next : Place
  deriving DecidableEq, Repr

/-- Whether a line of a block scalar starts at a place. -/
def isLine (indent : Nat) (place : Place) : Bool :=
  place.column = indent && !place.rest.isEmpty

/--
The lines from a place on, after some line breaks. The fuel is at least the number of the characters
from the place on.
-/
def readLines (folds : Bool) (indent : Nat) : Nat → Text → Place → Lines
  | 0, breaks, place => ⟨[], [], breaks, place⟩
  | fuel + 1, breaks, place =>
    if !isLine indent place then
      ⟨[], [], breaks, place⟩
    else
      let line := place.rest.takeWhile (!isBreak ·)
      let after := place.advance line.length
      let lineBreak := (after.rest.take 1).map unifiedBreak
      let (others, next) := breaksBefore indent after.next.rest after.next
      if isLine indent next then
        let joint :=
          if folds && lineBreak = ['\n'] && !startsBlank line && !startsBlank next.rest then
            if others = [] then [' '] else []
          else
            lineBreak
        let more := readLines folds indent fuel others next
        { more with text := breaks ++ line ++ joint ++ more.text }
      else
        ⟨breaks ++ line, lineBreak, others, next⟩

/-- The characters of some lines, with what is kept of the line breaks at the end. -/
def chomp (chomping : Chomping) (lines : Lines) : Text :=
  match chomping with
  | .strip => lines.text
  | .clip => lines.text ++ lines.lineBreak
  | .keep => lines.text ++ lines.lineBreak ++ lines.breaks

/--
The block scalar at the place of its mark, in a collection with a margin, and the place after it.
-/
def read (folds : Bool) (margin : Nat) (place : Place) : Except Fault (Text × Place) := do
  let (header, afterHeader) ← header place.next
  if endsName afterHeader.rest then
    let start ← skipLine afterHeader
    let least := max margin 1
    let (breaks, indent, first) :=
      match header.increment with
      | some increment =>
        let (breaks, first) := breaksBefore (least + increment - 1) start.rest start
        (breaks, least + increment - 1, first)
      | none =>
        let (breaks, column, first) := detectIndent 0 start.rest start
        (breaks, max least column, first)
    let lines := readLines folds indent first.rest.length breaks first
    return (chomp header.chomping lines, lines.next)
  else
    .error .malformed

end Block

end Yaml

end BundleDecl
