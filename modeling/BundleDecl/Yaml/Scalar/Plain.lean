import BundleDecl.Yaml.Place

/-!
# Plain scalars

A plain scalar stands without quotes. It consists of words on one line or on several ones; a single
line break between words counts as a space, and of several line breaks the first one is dropped. In
block style its further lines must reach the margin of the collection that it stands in.
-/

namespace BundleDecl

namespace Yaml

namespace Plain

/-- The characters that structure flow collections. -/
def flowIndicators : Text := ",[]\x7b\x7d"

/-- Whether a colon before a text ends a word. -/
def endsKey (inFlow : Bool) (rest : Text) : Bool :=
  endsWord rest || (inFlow && rest.head?.any flowIndicators.contains)

/-- The word at the beginning of a text, which may be empty. -/
def word (inFlow : Bool) : Text → Text
  | [] => []
  | first :: rest =>
    if isSpace first || (first = ':' && endsKey inFlow rest) ||
        (inFlow && (first = '?' || flowIndicators.contains first)) then
      []
    else
      first :: word inFlow rest

/-- The characters that no plain scalar starts with, unless some of them are followed closely. -/
def indicators : Text := "-?:,[]\x7b\x7d#&*!|>'\"%@\x60"

/-- Whether a text can start with a plain scalar. -/
def startsHere (inFlow : Bool) : Text → Bool
  | [] => false
  | first :: rest =>
    (!isSpace first && !indicators.contains first) ||
      (!endsWord rest && (first = '-' || (!inFlow && (first = '?' || first = ':'))))

end Plain

/-- What several line breaks contribute to a scalar. -/
def folded (first : Char) (others : Text) : Text :=
  (if first ≠ '\n' then [first] else if others = [] then [' '] else []) ++ others

namespace Plain

/-- What stands between two words of a plain scalar. -/
structure Gap where
  /-- What it contributes to the scalar. -/
  text : Text
  /-- Whether it goes over a line break. -/
  hasBreak : Bool
  /-- Whether it goes up to the mark of a document, which no word may follow. -/
  atMark : Bool
  /-- The place after it. -/
  next : Place
  deriving DecidableEq, Repr

/--
The further line breaks and the spaces at the beginning of a text, the place after them, and whether
it is that of the mark of a document.
-/
def furtherBreaks : Bool → Text → Place → Text × Place × Bool
  | _, [], place => ([], place, false)
  | atLineStart, first :: rest, place =>
    if atLineStart && startsWithDocumentMark (first :: rest) then
      ([], place, true)
    else if first = ' ' then
      furtherBreaks false rest place.next
    else if isBreak first then
      let (breaks, last, atMark) := furtherBreaks true rest place.next
      (unifiedBreak first :: breaks, last, atMark)
    else
      ([], place, false)

def gap (place : Place) : Gap :=
  let spaces := place.rest.takeWhile (· = ' ')
  let after := place.advance spaces.length
  match after.rest with
  | first :: rest =>
    if isBreak first then
      let (breaks, last, atMark) := furtherBreaks true rest after.next
      ⟨folded (unifiedBreak first) breaks, true, atMark, last⟩
    else
      ⟨spaces, false, false, after⟩
  | [] => ⟨spaces, false, false, after⟩

/-- A plain scalar. -/
structure Reading where
  /-- Its characters. -/
  text : Text
  /-- Whether the gap after it goes over a line break. -/
  isFresh : Bool
  /-- The place after it and the gap that follows it. -/
  next : Place
  deriving DecidableEq, Repr

/--
The plain scalar at a place, which is empty if there is no word. The fuel is at least the number of
the characters from the place on.
-/
def readWords (inFlow : Bool) (margin : Nat) : Nat → Bool → Place → Reading
  | 0, isFresh, place => ⟨[], isFresh, place⟩
  | fuel + 1, isFresh, place =>
    let first := word inFlow place.rest
    if first = [] || place.isAt '#' then
      ⟨[], isFresh, place⟩
    else
      let passed := gap (place.advance first.length)
      if passed.atMark || passed.text = [] || passed.next.isAt '#' ||
          (!inFlow && passed.next.column < margin) then
        ⟨first, passed.hasBreak, passed.next⟩
      else
        let more := readWords inFlow margin fuel passed.hasBreak passed.next
        if more.text = [] then
          { more with text := first }
        else
          { more with text := first ++ passed.text ++ more.text }

/-- The plain scalar at a place in flow style, or in a block with a margin. -/
def read (inFlow : Bool) (margin : Nat) (place : Place) : Reading :=
  readWords inFlow margin place.rest.length false place

end Plain

end Yaml

end BundleDecl
