import BundleDecl.Declarations
import BundleDecl.MetadataValue
import BundleDecl.Range.Parser

/-!
# Reading declarations

Declarations are read line by line, blank lines left out. A line that is not indented names a target
bundle. The kind lines of its dependencies follow, all with the indentation of the first one, and
under each kind line its metadata lines, all with one indentation that continues that of the kind
line. A quoted metadata value may go on over several lines of any form.

If a target has the name of the declaring bundle, the word `this` in its version ranges stands for
the version of the declaring bundle.

The reader is a machine that consumes one line after the other. Its state knows what the next line
may be; some failures show as soon as the next line is in sight, before it is consumed.
-/

namespace BundleDecl

namespace Declarations

/-- What the lines of a dependency that were read allow to follow. -/
inductive Position where
  /-- The kind line was read last. -/
  | kindLine
  /-- A metadata line of the given indentation was read last. -/
  | metadata (indentation : Text)
  /-- A quoted value goes on; the last of its lines had the given number. -/
  | openValue (indentation name content : Text) (line : Nat)
  deriving DecidableEq, Repr

/-- The lines of one target that were read. -/
structure Block where
  target : Identifier
  /-- The indentation of its kind lines. -/
  indentation : Text
  /-- The dependencies that are complete. -/
  complete : List Dependency
  /-- The dependency whose lines are being read. -/
  current : Dependency
  /-- The place among the lines of that dependency. -/
  position : Position
  deriving DecidableEq, Repr

/-- What was read last. -/
inductive Place where
  /-- Nothing yet. -/
  | outside
  | announced (target : Identifier) (line : Nat)
  /-- A line of a dependency. -/
  | inside (block : Block)
  deriving DecidableEq, Repr

/-- The state of the reader. -/
structure State where
  /-- The targets that are complete. -/
  entries : List (Identifier × DependencyList)
  /-- What was read last. -/
  place : Place
  deriving DecidableEq, Repr

/-- The version that the word `this` stands for in the ranges of a target. -/
def thisVersion (declaring : Option Identifier) (target : Identifier) : Option Text :=
  match declaring with
  | some bundle => if bundle.name = target.name then bundle.version else none
  | none => none

/-- A text with every occurrence of the word `this` replaced. -/
def replaceThis (version : Text) : Text → Text
  | [] => []
  | 't' :: 'h' :: 'i' :: 's' :: rest => version ++ replaceThis version rest
  | character :: rest => character :: replaceThis version rest

/-- The range text of a kind line after replacement. -/
def rangeText (this : Option Text) (text : Text) : Text :=
  match this with
  | some version => replaceThis version text
  | none => text

/-- What separates kinds. -/
def isKindSeparator (character : Char) : Bool :=
  character = ',' || Text.isIndentCharacter character

/--
The kinds that stand before the colon of a kind line: the non-empty pieces between separators.
-/
def kindsOf (text : Text) : List Text :=
  (Text.splitWhere isKindSeparator text).filter (!·.isEmpty)

/-- The dependency of a kind line, which is given without its indentation. -/
def readKindLine (this : Option Text) (number : Nat) (text : Text) : Except Failure Dependency :=
  match Text.splitFirst? ':' text with
  | none => failAt number (.malformedKindLine text)
  | some (kindsText, tail) =>
    match Range.ofText (rangeText this tail) with
    | .error _ =>
      failAt number
        (.malformedKindRange (Text.strip (rangeText this tail)) (rangeText this tail))
    | .ok range =>
      match kindsOf kindsText with
      | [] => failAt number (.noKindOnLine kindsText)
      | kinds =>
        match kinds.forM Dependency.checkKind with
        | .error failure => .error (failure.locate number)
        | .ok () => .ok ⟨SortedSet.ofList kinds, range, []⟩

/-- The name of a metadata line, and the text after its colon. -/
def readMetadataName (known : List (Text × Text)) (line : Line) : Except Failure (Text × Text) :=
  match Text.splitFirst? ':' line.text with
  | none => failAt line.number (.malformedMetadataLine line.text)
  | some (before, tail) =>
    let name := Text.strip before
    if name = [] then
      failAt line.number (.emptyMetadataName line.text)
    else if !Dependency.isMetadataName name then
      failAt line.number (.invalidMetadataName name)
    else if Entries.has name known then
      failAt line.number (.repeatedMetadataName name)
    else if Dependency.isReserved name then
      failAt line.number (.reservedMetadataName name)
    else
      .ok (name, tail)

namespace Block

/-- The block with a metadata entry added to the current dependency. -/
def addMetadata (block : Block) (indentation name value : Text) : Block :=
  { block with
    current := { block.current with metadata := block.current.metadata ++ [(name, value)] }
    position := .metadata indentation }

/-- The block after a line of a metadata value. -/
def takeValue (block : Block) (indentation name : Text) (line : Nat) :
    MetadataValue.Start → Block
  | .complete value => block.addMetadata indentation name value
  | .unclosed content => { block with position := .openValue indentation name content line }

/-- The block after a metadata line of the given indentation. -/
def readMetadataLine (block : Block) (indentation : Text) (line : Line) :
    Except Failure Block := do
  if Text.indentation line.text ≠ indentation then
    failAt line.number (.metadataIndentation indentation block.indentation)
  else
    let (name, tail) ← readMetadataName block.current.metadata line
    return block.takeValue indentation name line.number (MetadataValue.start tail)

/-- The block after a kind line. -/
def readNextKindLine (block : Block) (this : Option Text) (line : Line) : Except Failure Block := do
  if Text.indentation line.text ≠ block.indentation then
    failAt line.number (.kindIndentation block.indentation)
  else
    let next ← readKindLine this line.number (line.text.drop block.indentation.length)
    return { block with
      complete := block.complete ++ [block.current]
      current := next
      position := .kindLine }

/-- The target of a block with all its dependencies. -/
def entry (block : Block) : Identifier × DependencyList :=
  (block.target, .ofList (block.complete ++ [block.current]))

/-- The indentation of the metadata lines to which a line belongs, if it is one. -/
def metadataIndentation? (block : Block) (line : Text) : Option Text :=
  match block.position with
  | .metadata indentation => if indentation.isPrefixOf line then some indentation else none
  | _ =>
    let own := Text.indentation line
    if block.indentation.isPrefixOf own && block.indentation.length < own.length then
      some own
    else
      none

end Block

/-- The state after the line of a target. -/
def readTarget (entries : List (Identifier × DependencyList)) (line : Line) :
    Except Failure State :=
  if Text.indentation line.text ≠ [] then
    failAt line.number .indentedTarget
  else
    match Identifier.ofText (Text.trimEnd Text.isIndentCharacter line.text) with
    | .error failure => .error (failure.locate line.number)
    | .ok target =>
      if target.version.isSome then
        failAt line.number (.versionedTargetLine target.toText)
      else if Entries.has target entries then
        failAt line.number (.repeatedTarget target.toText)
      else
        .ok ⟨entries, .announced target line.number⟩

namespace State

/-- The state before the first line. -/
def initial : State := ⟨[], .outside⟩

/-- The state inside a block of the same targets. -/
def within (state : State) (block : Block) : State :=
  ⟨state.entries, .inside block⟩

/-- The complete targets, the one that is being read included. -/
def allEntries (state : State) : List (Identifier × DependencyList) :=
  match state.place with
  | .inside block => state.entries ++ [block.entry]
  | _ => state.entries

/-- Refuses what is wrong as soon as the next line, or the end, is in sight. -/
def expect (state : State) (next : Option Line) : Except Failure Unit :=
  match state.place with
  | .announced target line =>
    if next.any fun following => !(Text.indentation following.text).isEmpty then
      .ok ()
    else
      failAt line (.undescribedTarget target.toText)
  | .inside block =>
    match block.position, next with
    | .openValue _ _ _ line, none => failAt line .unclosedQuotes
    | _, _ => .ok ()
  | .outside => .ok ()

/-- The state after a line that belongs to a block. -/
def consumeInside (declaring : Option Identifier) (state : State) (block : Block) (line : Line) :
    Except Failure State :=
  match block.position with
  | .openValue indentation name content _ =>
    .ok (state.within
      (block.takeValue indentation name line.number (MetadataValue.extend content line.text)))
  | _ =>
    match block.metadataIndentation? line.text with
    | some indentation => state.within <$> block.readMetadataLine indentation line
    | none =>
      if block.indentation.isPrefixOf line.text then
        state.within <$> block.readNextKindLine (thisVersion declaring block.target) line
      else
        readTarget state.allEntries line

/-- The state after one more line. -/
def consume (declaring : Option Identifier) (state : State) (line : Line) :
    Except Failure State :=
  match state.place with
  | .outside => readTarget state.entries line
  | .announced target _ => do
    let indentation := Text.indentation line.text
    let first ← readKindLine (thisVersion declaring target) line.number
      (line.text.drop indentation.length)
    return state.within ⟨target, indentation, [], first, .kindLine⟩
  | .inside block => state.consumeInside declaring block line

/-- The state after one more line, if that line may follow. -/
def step (declaring : Option Identifier) (state : State) (line : Line) : Except Failure State := do
  state.expect (some line)
  state.consume declaring line

end State

/-- A failure and the lines that had not been consumed when it was found. -/
structure Stop where
  /-- What is wrong. -/
  failure : Failure
  /-- The lines that were left. -/
  unread : List Line
  deriving DecidableEq, Repr

/-- Reports a failure together with the lines that are left. -/
def stopAt {Result : Type} (unread : List Line) : Except Failure Result → Except Stop Result
  | .ok result => .ok result
  | .error failure => .error ⟨failure, unread⟩

/-- The state after all lines. -/
def run (declaring : Option Identifier) (state : State) : List Line → Except Stop State
  | [] => do
    stopAt [] (state.expect none)
    return state
  | line :: rest => do
    stopAt (line :: rest) (state.expect (some line))
    let next ← stopAt rest (state.consume declaring line)
    run declaring next rest

/-- The declarations on some lines. -/
def ofLines (declaring : Option Identifier) (lines : List Line) : Except Stop Declarations := do
  let state ← run declaring .initial lines
  stopAt [] (ofEntries state.allEntries)

/-- The declarations of a text, however long and deep its ranges are. -/
def ofText (declaring : Option Identifier) (text : Text) : Except Failure Declarations :=
  (ofLines declaring (Line.nonBlank (Text.lines text))).mapError Stop.failure

end Declarations

end BundleDecl
