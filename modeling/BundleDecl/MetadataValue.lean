import BundleDecl.Text.Lines

/-!
# Metadata values

A value follows the colon after its name. An unquoted value ends with its line and loses the white
space around it. A quoted value starts with a quote and ends at a line whose last quote is followed
by blanks only, so that it may hold quotes and several lines; its line breaks are kept. At the end
of a line that does not close the value, a backslash marks the end of the text of that line. It is
needed where the line would otherwise close the value, be skipped as blank, or lose a backslash of
its own.
-/

namespace BundleDecl

namespace MetadataValue

/-- A line of a quoted value that would be misread without a backslash at its end. -/
def needsMark (line : Text) : Bool :=
  let kept := Text.trimEnd Text.isIndentCharacter line
  kept.isEmpty || kept.getLast? = some '"' || kept.getLast? = some '\\'

/-- A line of a quoted value other than the last one. -/
def renderLine (line : Text) : Text :=
  if needsMark line then line ++ ['\\'] else line

/-- The lines of a quoted value with line breaks between them. -/
def renderLines : List Text → Text
  | [] => []
  | [last] => last
  | line :: next :: rest => renderLine line ++ '\n' :: renderLines (next :: rest)

/-- A text between quotes. -/
def quote (text : Text) : Text :=
  '"' :: text ++ ['"']

/-- The written form of a value; nothing is written for the empty value. -/
def render (value : Text) : Text :=
  match Text.splitLines value with
  | first :: second :: rest => quote (renderLines (first :: second :: rest))
  | _ => if value.head? = some '"' || value != Text.strip value then quote value else value

/-- The part of a line before its last quote, if only blanks follow that quote. -/
def closing? (line : Text) : Option Text :=
  match Text.splitLast? '"' line with
  | some (before, after) => if Text.isBlank after then some before else none
  | none => none

/-- The text of a line that does not close its value, without the mark at its end. -/
def openLine (line : Text) : Text :=
  match Text.splitLast? '\\' line with
  | some (before, after) => if Text.isBlank after then before else line
  | none => line

/-- The beginning of a value: complete, or the text of the lines of a quoted value so far. -/
inductive Start where
  /-- A value that ends with its line. -/
  | complete (value : Text)
  /-- A quoted value that goes on, with the text of its lines so far. -/
  | unclosed (content : Text)
  deriving DecidableEq, Repr

/-- A quoted value after one more of its lines. -/
def extend (content line : Text) : Start :=
  match closing? line with
  | some before => .complete (content ++ before)
  | none => .unclosed (content ++ openLine line ++ ['\n'])

/-- The value that starts after a colon. -/
def start (tail : Text) : Start :=
  match tail.dropWhile Text.isIndentCharacter with
  | '"' :: line => extend [] line
  | _ => .complete (Text.strip tail)

end MetadataValue

end BundleDecl
