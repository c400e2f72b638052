import BundleDecl.Text

/-!
# Places in a document

A place is what is left of a document, together with the position that was reached. Besides the line
feed there are three more line breaks; carriage returns have been replaced before.
-/

namespace BundleDecl

namespace Yaml

/-- A line break. -/
def isBreak (character : Char) : Bool :=
  ['\n', '\u0085', '\u2028', '\u2029'].contains character

/-- A line break as it counts in a scalar: a line feed, unless it separates lines or paragraphs. -/
def unifiedBreak (character : Char) : Char :=
  if character = '\u0085' then '\n' else character

/-- A space or a tab. -/
def isBlankCharacter (character : Char) : Bool :=
  character = ' ' || character = '\t'

/-- A space, a tab or a line break. -/
def isSpace (character : Char) : Bool :=
  isBlankCharacter character || isBreak character

/-- Whether a text ends or goes on with a space, a tab or a line break. -/
def endsWord (text : Text) : Bool :=
  text.head?.all isSpace

/-- Whether a text ends or goes on with a space or a line break. -/
def endsName (text : Text) : Bool :=
  text.head?.all fun character => character = ' ' || isBreak character

/-- Whether a text ends or goes on with a line break. -/
def endsLine (text : Text) : Bool :=
  text.head?.all isBreak

/-- Whether a text starts with a mark of three equal characters and nothing is attached to it. -/
def startsWithMark (character : Char) (text : Text) : Bool :=
  text.take 3 = [character, character, character] && endsWord (text.drop 3)

/-- Whether a text starts with the mark between documents or that of the end of a document. -/
def startsWithDocumentMark (text : Text) : Bool :=
  startsWithMark '-' text || startsWithMark '.' text

/-- The byte order mark, which takes up no column. -/
def byteOrderMark : Char := '\ufeff'

/-- A place in a document. -/
structure Place where
  /-- What is left of the document. -/
  rest : Text
  /-- The number of characters before the place. -/
  index : Nat := 0
  /-- The number of lines before that of the place. -/
  line : Nat := 0
  /-- The number of columns before the place on its line. -/
  column : Nat := 0
  deriving DecidableEq, Repr

namespace Place

/-- The place after one more character. -/
def next (place : Place) : Place :=
  match place.rest with
  | [] => place
  | character :: rest =>
    if isBreak character then
      ⟨rest, place.index + 1, place.line + 1, 0⟩
    else
      ⟨rest, place.index + 1, place.line,
        if character = byteOrderMark then place.column else place.column + 1⟩

/-- The place after some more characters. -/
def advance (count : Nat) (place : Place) : Place :=
  Nat.repeat next count place

/-- The place after the longest part whose characters all satisfy a test. -/
def skipWhile (test : Char → Bool) (place : Place) : Place :=
  place.advance (place.rest.takeWhile test).length

/-- The place after the spaces. -/
def skipSpaces (place : Place) : Place :=
  place.skipWhile (· = ' ')

/-- Whether a certain character comes next. -/
def isAt (character : Char) (place : Place) : Bool :=
  place.rest.head? == some character

end Place

end Yaml

end BundleDecl
