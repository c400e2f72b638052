import BundleDecl.Range.Parser

/-!
# Walks through the text of a range

Ranges can be read with one index that moves through the whole text, where the reader passes what
is left of the text from step to step. A walk reads that way, and it keeps a record of what happens:
which characters it looks at, where the index goes, between which indices it finds a range, and
where the passes of its loops begin.

A walk may refuse the text, it may look for a character where the text has none, and it may go on
for ever. Its recursion is the least fixed point of its equations: no measure decreases by
definition, and no bound on the index is checked but where a condition asks for it.
-/

namespace BundleDecl

namespace Range

namespace Walk

/-- What walks go over. -/
inductive Part where
  /-- A run of characters that satisfy a test. -/
  | run
  /-- A range without ampersands. -/
  | atom
  /-- Ranges with ampersands between them. -/
  | expression
  /-- The members of a union and its closing brace. -/
  | union
  deriving DecidableEq, Repr

/-- What happens on a walk. -/
inductive Event where
  /-- The character at a position was looked at. -/
  | looked (position : Nat)
  /-- The characters from one position up to another one were taken. -/
  | taken (start stop : Nat)
  /-- The index was set to a position. -/
  | moved (position : Nat)
  /-- A pass of a loop begins at a position, where the pass before it, if any, began at another. -/
  | pass (part : Part) (before : Option Nat) (start : Nat)
  /-- A walk that began with the index at one position found a range and left it at another one. -/
  | returned (part : Part) (start stop : Nat)
  deriving DecidableEq, Repr

/-- An index in a text, and what happened until it got there. -/
structure Place where
  text : Text
  index : Nat
  events : List Event
  deriving DecidableEq, Repr

/-- Why a walk stops without a value. -/
inductive Stop where
  | refused (failure : Failure)
  /-- There is no character at the index. -/
  | outside
  deriving DecidableEq, Repr

end Walk

/-- A walk through a text. -/
abbrev Walk := ExceptT Walk.Stop (StateT Walk.Place Option)

namespace Walk

/-- How and where a walk from a place stops; there is no such thing if it goes on for ever. -/
def runAt {Value : Type} (walk : Walk Value) (place : Place) : Option (Except Stop Value × Place) :=
  StateT.run (ExceptT.run walk) place

/-! ## Steps -/

/-- Adds an event to the record. -/
def note (event : Event) : Walk Unit :=
  modify fun place => { place with events := place.events ++ [event] }

def position : Walk Nat :=
  return (← get).index

/-- Whether the text has a character at the index. -/
def within : Walk Bool :=
  return (← get).index < (← get).text.length

/-- The character at the index. -/
def look : Walk Char := do
  let place ← get
  note (.looked place.index)
  match place.text[place.index]? with
  | some character => return character
  | none => throw .outside

/-- Adds one to the index, whether or not the text has a character there. -/
def move : Walk Unit := do
  modify fun place => { place with index := place.index + 1 }
  note (.moved (← position))

/-- The characters from a position up to the index. -/
def take (start : Nat) : Walk Text := do
  let place ← get
  note (.taken start place.index)
  return (place.text.drop start).take (place.index - start)

/-- Refuses the text because of a problem at the index. -/
def refuse {Value : Type} (problem : RangeProblem) : Walk Value := do
  let place ← get
  throw (.refused ⟨.range problem place.index place.text, none⟩)

def ensure (condition : Bool) (problem : RangeProblem) : Walk Unit :=
  if condition then return else refuse problem

/-- A walk that is the next pass of a loop, or its first pass. -/
abbrev pass {Value : Type} (walk : Walk Value) (part : Part) (before : Option Nat) :
    Walk Value := do
  note (.pass part before (← position))
  walk

/-- A walk and the record of the range that it finds. -/
abbrev returning (walk : Walk Range) (part : Part) : Walk Range := do
  let start ← position
  let range ← walk
  note (.returned part start (← position))
  return range

/-! ## Symbols -/

section

variable (test : Char → Bool)

/-- Moves over the characters that satisfy a test. -/
def moveWhile : Walk Unit := do
  let start ← position
  if ← within then
    if test (← look) then
      move
      moveWhile.pass .run (some start)
partial_fixpoint

/-- Moves over the run of characters that satisfy a test. -/
def run : Walk Unit :=
  (moveWhile test).pass .run none

end

/-- Moves over blanks and tells whether something follows. -/
def hasNext : Walk Bool := do
  run Text.isIndentCharacter
  within

/-- The first character after blanks, which stays where it is. -/
def peek : Walk Char := do
  ensure (← hasNext) .unexpectedEnd
  look

/-- The first character after blanks, where something has to follow. -/
def expect (problem : RangeProblem) : Walk Char := do
  ensure (← hasNext) problem
  peek

/-- The run of digits and dots after blanks, which may be empty. -/
def number : Walk Text := do
  run Text.isIndentCharacter
  let start ← position
  run isNumberCharacter
  take start

def validNumber (number : Text) : Walk Text := do
  ensure (Version.isValid number) (.invalidNumber number)
  return number

/-- The version of a bound, which must not be empty. -/
def bound (number : Text) (missing : RangeProblem) : Walk Text := do
  ensure (number ≠ []) missing
  validNumber number

def isBelow (left right : Text) : Walk Bool :=
  match Version.compareNumbers left right with
  | .ok order => return order == .lt
  | .error failure => throw (.refused failure)

/-! ## Ranges -/

/-- The right bound of a range with two bounds, and its closing brace. -/
def rightBound (opening : Char) (left : Text) : Walk Range := do
  let right ← bound (← number) .emptyRightBound
  let closing ← peek
  ensure (closing = ')' ∨ closing = ']') (.invalidEnding closing)
  move
  ensure (← isBelow left right) (.invalidBounds opening left right closing)
  return bounded left right (opening = '[') (closing = ']')

/-- The range of one version between two braces. -/
def single (opening closing : Char) (version : Text) : Walk Range :=
  if opening = '[' then
    return if closing = ']' then exact version else minimum version
  else if closing = ')' then
    refuse (.illegalDefinition version)
  else
    return maximum version

/-- A range in braces, after its opening brace. -/
def braced (opening : Char) : Walk Range := do
  let left ← number
  let character ← expect .missingClosingBrace
  if character = ',' then
    let left ← bound left .emptyLeftBound
    move
    rightBound opening left
  else if character = ')' ∨ character = ']' then
    move
    single opening character (← bound left .emptyBound)
  else
    refuse (.invalidCharacter character)

mutual

/-- A range without ampersands. -/
def atom : Walk Range := do
  let first ← peek
  if Text.isDigitCharacter first then
    return base (← validNumber (← number))
  else if first = '(' ∨ first = '[' then
    move
    braced first
  else if first = '\x7b' then
    move
    union.returning .union
  else
    refuse (.invalidCharacter first)
partial_fixpoint

/-- Ranges with ampersands between them. -/
def expression : Walk Range := do
  let factor ← atom.returning .atom
  return intersectionOf (factor :: (← factors.pass .expression none))
partial_fixpoint

/-- The ranges that follow after ampersands. -/
def factors : Walk (List Range) := do
  let start ← position
  if ← hasNext then
    if (← peek) = '&' then
      move
      let factor ← atom.returning .atom
      return factor :: (← factors.pass .expression (some start))
    else
      return []
  else
    return []
partial_fixpoint

/-- A union, after its opening brace. -/
def union : Walk Range := do
  if (← expect .unclosedUnion) = '\x7d' then
    move
    return unsatisfiable
  else
    return unionOf (← alternatives.pass .union none)
partial_fixpoint

/-- The members of a union up to its closing brace. -/
def alternatives : Walk (List Range) := do
  let start ← position
  let member ← expression.returning .expression
  let character ← expect .unclosedUnion
  move
  if character = '\x7d' then
    return [member]
  else
    ensure (character = '|') (.unexpectedCharacter character)
    return member :: (← alternatives.pass .union (some start))
partial_fixpoint

end

/-- The range that is all of the text. -/
def whole : Walk Range := do
  let range ← expression.returning .expression
  ensure (!(← hasNext)) .extraCharacters
  return range

/-- The range that the text denotes. -/
def range : Walk Range := do
  let text := (← get).text
  if text = [] then
    throw (.refused ⟨.emptyRange, none⟩)
  else if ← hasNext then
    whole
  else
    throw (.refused ⟨.blankRange text, none⟩)

end Walk

end Range

end BundleDecl
