import BundleDecl.Delivery
import BundleDecl.Range.Comparisons

/-!
# Reading declarations within the limits of the host

The ranges of kind lines are all that may be interrupted in the reading of declarations, and the
reader handles failures only: an interruption ends the reading at once and gets no line. A range is
read after the colon of its kind line was found, and before the kinds are looked at. A failure of an
earlier line comes first, and so does an invalid chunk right behind the kind line, because chunks
are taken one line ahead.
-/

namespace BundleDecl

namespace Declarations

/-- The text that is read as the range of a kind line, which is given without its indentation. -/
def kindRangeText? (this : Option Text) (text : Text) : Option Text :=
  (Text.splitFirst? ':' text).map fun (_, tail) => rangeText this tail

/-- The text that is read as a range if a line is one more kind line of a block. -/
def Block.rangeText? (block : Block) (this : Option Text) (line : Text) : Option Text :=
  match block.position with
  | .openValue .. => none
  | _ =>
    match block.metadataIndentation? line with
    | some _ => none
    | none =>
      if Text.indentation line = block.indentation then
        kindRangeText? this (line.drop block.indentation.length)
      else
        none

namespace State

/-- The text that is read as a range when a line is consumed, if there is one. -/
def rangeText? (declaring : Option Identifier) (state : State) (line : Text) : Option Text :=
  match state.place with
  | .outside => none
  | .announced target _ =>
    kindRangeText? (thisVersion declaring target) (line.drop (Text.indentation line).length)
  | .inside block => block.rangeText? (thisVersion declaring block.target) line

/-- The interruption of a step of the reader. -/
def interruption? (host : Host) (declaring : Option Identifier) (state : State) (line : Line) :
    Option Interruption :=
  match state.expect (some line) with
  | .error _ => none
  | .ok () => (state.rangeText? declaring line.text).bind (Range.interruption? host)

end State

/-- The interruption of the reading of some lines, and the lines behind the one where it comes. -/
def interruption? (host : Host) (declaring : Option Identifier) (lines : List Line) :
    Option (Interruption × List Line) :=
  firstInterruption? (State.interruption? host declaring) (State.step declaring) .initial lines

/-- The declarations on delivered lines, within the limits of the host. -/
def ofDeliveredWithin (host : Host) (declaring : Option Identifier) (delivered : Delivered) :
    Except (Halt Failure) Declarations :=
  let interruption := (interruption? host declaring (Line.nonBlank delivered.lines)).filter
    fun (_, unread) => !(delivered.invalid && unread.isEmpty)
  interruptedBy (interruption.map Prod.fst) (ofDelivered declaring delivered)

/-- The declarations that a source delivers, within the limits of the host. -/
def ofSourceWithin (host : Host) (declaring : Option Identifier) (source : Source) :
    Except (Halt Failure) Declarations :=
  ofDeliveredWithin host declaring (.ofChunks source.toChunks)

/-- The declarations of a text, within the limits of the host. -/
def ofTextWithin (host : Host) (declaring : Option Identifier) (text : Text) :
    Except (Halt Failure) Declarations :=
  ofSourceWithin host declaring (.text text)

end Declarations

end BundleDecl
