import BundleDecl.Entries
import BundleDecl.Text.Digit
import BundleDecl.Text.UpperCase

/-!
# Command lines

An interface consists of options, which are named, and of operands, which are told apart by their
order. Options of one letter start with one hyphen and may have their value attached; longer ones
start with two hyphens, may be abbreviated as long as they stay unambiguous, and take an attached
value after an equals sign. Everything after a separator of two hyphens is an operand.

Operands are assigned in groups: whenever operands stand together, as many of the operands still
missing are filled as they suffice for, in order. A repeated operand is filled by one group.

What an option or an operand is given loses its first argument that consists of two hyphens, be it
the separator or not. A value can thereby become void.
-/

namespace BundleDecl

namespace CommandLine

/-- Why reading a command line ends early. -/
inductive Stop where
  /-- Help is asked for. -/
  | help
  /-- The command line does not fit the interface. -/
  | usage
  deriving DecidableEq, Repr

/-- The separator: two hyphens. -/
def separator : Text := ['-', '-']

/-- The value of an option, or of an operand that takes one argument. -/
inductive Value where
  /-- An argument. -/
  | text (text : Text)
  /-- Nothing is left of what was given, which was two hyphens. -/
  | void
  deriving DecidableEq, Repr

namespace Value

/-- The value that some arguments leave once two hyphens were dropped. -/
def ofArguments (arguments : List Text) : Value :=
  match arguments.erase separator with
  | [] => void
  | argument :: _ => text argument

/-- The argument that a value consists of. -/
def text? : Value → Option Text
  | text argument => some argument
  | void => none

/-- A value as it is shown in a message. -/
def shown : Value → Text
  | text argument => argument
  | void => "[]"

end Value

/-- What an option does. -/
inductive Effect where
  /-- It asks for help. -/
  | help
  /-- It is a mark without a value. -/
  | mark
  /-- It has a value. -/
  | value
  /-- It has a value in upper case out of some words. -/
  | choice (words : List Text)
  deriving DecidableEq, Repr

/-- An option: its names, of which the last one identifies it, and what it does. -/
structure Switch where
  /-- The names, with their hyphens. -/
  names : List Text
  /-- What the option does. -/
  effect : Effect
  deriving DecidableEq, Repr

namespace Switch

/-- The name that identifies an option. -/
def key (switch : Switch) : Text :=
  switch.names.getLastD []

/-- Whether an option takes a value. -/
def takesValue (switch : Switch) : Bool :=
  match switch.effect with
  | .help | .mark => false
  | .value | .choice _ => true

end Switch

/-- How many arguments an operand takes. -/
inductive Operand where
  /-- One. -/
  | single
  /-- At least one. -/
  | repeated
  /-- One and everything that follows it, options included. -/
  | command
  deriving DecidableEq, Repr

/-- What may stand on a command line. -/
structure Interface where
  /-- The options. -/
  switches : List Switch
  /-- The operands in order. -/
  operands : List Operand
  deriving DecidableEq, Repr

/-- What is attached to the name of an option. -/
inductive Attachment where
  /-- Nothing. -/
  | nothing
  /-- A value after the equals sign of a long name. -/
  | value (text : Text)
  /-- A value, or letters of further options, after a letter or its equals sign. -/
  | letters (text : Text)
  deriving DecidableEq, Repr

/-- An option as it stands on a command line. -/
structure Mention where
  switch : Option Switch
  /-- What is attached to its name. -/
  attached : Attachment
  deriving DecidableEq, Repr

/-- The role of an argument. -/
inductive Role where
  /-- An operand or the value of an option. -/
  | plain
  | separator
  /-- An option. -/
  | mention (mention : Mention)
  deriving DecidableEq, Repr

/-- An argument and its role. -/
structure Token where
  /-- The argument. -/
  text : Text
  /-- Its role. -/
  role : Role
  deriving DecidableEq, Repr

namespace Token

/-- Whether an argument is an option. -/
def isMention (token : Token) : Bool :=
  match token.role with
  | .mention _ => true
  | _ => false

end Token

/-- A text that looks like a negative number, in the digits of any script. -/
def isNegativeNumber : Text → Bool
  | '-' :: number =>
    let digits := if number.getLast? = some '\n' then number.dropLast else number
    match Text.splitOn '.' digits with
    | [whole] => !whole.isEmpty && whole.all Text.isDecimalDigit
    | [whole, fraction] =>
      whole.all Text.isDecimalDigit && !fraction.isEmpty && fraction.all Text.isDecimalDigit
    | _ => false
  | _ => false

/-- The name of an option of more than one letter. -/
def isLong (name : Text) : Bool :=
  separator.isPrefixOf name

namespace Interface

/-- All options under all their names. -/
def named (interface : Interface) : List (Text × Switch) :=
  interface.switches.flatMap fun switch => switch.names.map fun name => (name, switch)

def switch? (interface : Interface) (name : Text) : Option Switch :=
  (interface.named.find? fun (known, _) => known = name).map Prod.snd

/-- The options that an argument may abbreviate, or to whose letter it may attach something. -/
def candidates (interface : Interface) (argument : Text) : List Mention :=
  match argument with
  | '-' :: '-' :: _ =>
    let (beginning, attached) := match Text.splitFirst? '=' argument with
      | some (before, after) => (before, Attachment.value after)
      | none => (argument, .nothing)
    (interface.named.filter fun (name, _) => beginning.isPrefixOf name).map fun (_, switch) =>
      ⟨some switch, attached⟩
  | '-' :: letter :: letters =>
    (interface.named.filter fun (name, _) => name = ['-', letter]).map fun (_, switch) =>
      ⟨some switch, .letters letters⟩
  | _ => []

/-- The role of an argument that stands before any separator. -/
def role (interface : Interface) (argument : Text) : Except Stop Role :=
  if argument.head? != some '-' || argument.length = 1 then
    .ok .plain
  else
    let split := Text.splitFirst? '=' argument
    let exact := split.bind fun (before, after) =>
      (interface.switch? before).map fun switch =>
        (⟨some switch, if isLong before then .value after else .letters after⟩ : Mention)
    match interface.switch? argument, exact, interface.candidates argument with
    | some switch, _, _ => .ok (.mention ⟨some switch, .nothing⟩)
    | none, some mention, _ => .ok (.mention mention)
    | none, none, [mention] => .ok (.mention mention)
    | none, none, [] =>
      if isNegativeNumber argument || argument.contains ' ' then
        .ok .plain
      else
        .ok (.mention ⟨none, .nothing⟩)
    | none, none, _ => .error .usage

/-- The arguments with their roles; the first separator makes everything after it an operand. -/
def tokens (interface : Interface) : List Text → Except Stop (List Token)
  | [] => .ok []
  | argument :: rest =>
    if argument = separator then
      .ok (⟨argument, .separator⟩ :: rest.map (⟨·, .plain⟩))
    else do
      let role ← interface.role argument
      return ⟨argument, role⟩ :: (← interface.tokens rest)

end Interface

/-- What a command line says. -/
structure Reading where
  /-- The values of options by key, the last one first. -/
  values : List (Text × Value) := []
  /-- The keys of the marks. -/
  marks : List Text := []
  /-- The arguments of the operands, in order. -/
  operands : List (List Text) := []
  /-- Whether something on the command line fits nowhere. -/
  hasExcess : Bool := false
  deriving DecidableEq, Repr

namespace Reading

def value? (reading : Reading) (key : Text) : Option Value :=
  Entries.get? key reading.values

/-- Whether a mark is set. -/
def isMarked (reading : Reading) (key : Text) : Bool :=
  reading.marks.contains key

/-- The arguments of an operand. -/
def operand (reading : Reading) (position : Nat) : List Text :=
  reading.operands.getD position []

/-- The first argument of an operand, which is there unless two hyphens were all it was given. -/
def argument (reading : Reading) (position : Nat) : Text :=
  (reading.operand position).headD []

/-- The value of an operand that takes one argument. -/
def single (reading : Reading) (position : Nat) : Value :=
  match reading.operand position with
  | [] => .void
  | argument :: _ => .text argument

/-- The value that an option makes of what it is given, which may be refused. -/
def convert (effect : Effect) : Value → Except Stop Value
  | .text text =>
    match effect with
    | .choice words =>
      if words.contains (Text.upper text) then .ok (.text (Text.upper text)) else .error .usage
    | _ => .ok (.text text)
  | .void => .ok .void

def addSetting (reading : Reading) : Switch × Option Value → Except Stop Reading
  | (switch, some value) => do
    let converted ← convert switch.effect value
    return { reading with values := (switch.key, converted) :: reading.values }
  | (switch, none) =>
    if switch.effect = .help then
      .error .help
    else
      .ok { reading with marks := switch.key :: reading.marks }

end Reading

/-- Whether a token is the separator. -/
def Token.isSeparator (token : Token) : Bool :=
  token.role == .separator

/--
The tokens that an operand takes from the beginning of some tokens, among them the separators around
them, and the tokens left.
-/
def take? (operand : Operand) (tokens : List Token) : Option (List Token × List Token) :=
  match tokens.dropWhile Token.isSeparator with
  | [] => none
  | first :: rest =>
    if first.isMention then
      none
    else
      let leading := tokens.takeWhile Token.isSeparator ++ [first]
      match operand with
      | .single =>
        some (leading ++ rest.takeWhile Token.isSeparator, rest.dropWhile Token.isSeparator)
      | .repeated =>
        some (leading ++ rest.takeWhile (!·.isMention), rest.dropWhile (!·.isMention))
      | .command => some (tokens, [])

/-- The arguments that an operand is given by some tokens; a command keeps its separator. -/
def argumentsFor (operand : Operand) (tokens : List Token) : List Text :=
  let texts := tokens.map Token.text
  match operand with
  | .command => texts
  | .single | .repeated => texts.erase separator

/--
The operands filled from the beginning of some tokens, the operands still missing and the rest.
-/
def fill : List Operand → List Token → List (List Text) × List Operand × List Token
  | [], tokens => ([], [], tokens)
  | operand :: operands, tokens =>
    match take? operand tokens with
    | none => ([], operand :: operands, tokens)
    | some (taken, rest) =>
      let (filled, missing, left) := fill operands rest
      (argumentsFor operand taken :: filled, missing, left)

/-- Options with their values, and the tokens left. -/
abbrev Settings := List (Switch × Option Value) × List Token

/-- An option whose value is attached to it. -/
def attachedValue (switch : Switch) (text : Text) (following : List Token) : Settings :=
  ([(switch, some (.ofArguments [text]))], following)

/-- An option whose value is the next token. -/
def separateValue (switch : Switch) : List Token → Except Stop Settings
  | ⟨text, .plain⟩ :: following => .ok (attachedValue switch text following)
  | _ => .error .usage

/-- An option to whose name nothing is attached. -/
def readBare (switch : Switch) (following : List Token) : Except Stop Settings :=
  if switch.takesValue then
    separateValue switch following
  else
    .ok ([(switch, none)], following)

/--
An option to whose letter something is attached: its value, or the letters of further options, all
of which must be known.
-/
def readLetters (interface : Interface) (following : List Token) :
    Switch → Text → Except Stop Settings
  | switch, [] =>
    if switch.takesValue then .ok (attachedValue switch [] following) else .error .usage
  | switch, letter :: rest =>
    if switch.takesValue then
      .ok (attachedValue switch (letter :: rest) following)
    else do
      let some next := interface.switch? ['-', letter] | .error .usage
      let (more, left) ←
        if rest = [] then readBare next following else readLetters interface following next rest
      return ((switch, none) :: more, left)

/-- The options that stand in one argument. -/
def readSwitch (interface : Interface) (switch : Switch) (attached : Attachment)
    (following : List Token) : Except Stop Settings :=
  match attached with
  | .nothing => readBare switch following
  | .value text =>
    if switch.takesValue then .ok (attachedValue switch text following) else .error .usage
  | .letters letters => readLetters interface following switch letters

/--
The reading of tokens for some operands, with the operands that are missing at the end. The fuel is
at least the number of the tokens.
-/
def readTokens (interface : Interface) :
    Nat → List Operand → List Token → Reading → Except Stop (Reading × List Operand)
  | 0, missing, _, reading => .ok (reading, missing)
  | fuel + 1, missing, tokens, reading =>
    let (filled, stillMissing, left) := fill missing tokens
    match tokens with
    | ⟨_, .mention ⟨none, _⟩⟩ :: following =>
      readTokens interface fuel missing following { reading with hasExcess := true }
    | ⟨_, .mention ⟨some switch, attached⟩⟩ :: following => do
      let (settings, left) ← readSwitch interface switch attached following
      readTokens interface fuel missing left (← settings.foldlM Reading.addSetting reading)
    | [] => .ok (reading, missing)
    | _ =>
      let next := { reading with operands := reading.operands ++ filled }
      if filled = [] then
        let mentions := tokens.dropWhile (!·.isMention)
        readTokens interface fuel missing mentions { next with hasExcess := true }
      else
        readTokens interface fuel stillMissing left next

/-- The reading of a command line. Every operand must be filled; excess does not count yet. -/
def Interface.read (interface : Interface) (arguments : List Text) : Except Stop Reading := do
  let tokens ← interface.tokens arguments
  let (reading, missing) ← readTokens interface (tokens.length + 1) interface.operands tokens {}
  if missing = [] then return reading else .error .usage

end CommandLine

end BundleDecl
