import BundleDecl.Declarations
import BundleDecl.Json
import BundleDecl.Text.Quoted
import BundleDecl.Text.UpperCase

/-!
# Logging

A record has a level, a message and a context. Records from a threshold on are written to the
outlets that logging was set up with: to the console, and to a log file if there is one. Before
logging is set up, warnings and worse records are written to the console as bare messages.
-/

namespace BundleDecl

namespace Log

/-- The levels by name. -/
def levels : List (Text × Nat) :=
  [("NOTSET", 0), ("DEBUG", 10), ("INFO", 20), ("WARN", 30), ("WARNING", 30), ("ERROR", 40),
    ("FATAL", 50), ("CRITICAL", 50)]

/-- The level of informative records, which is also the level of unknown names. -/
def informative : Nat := 20

/-- What a name may stand for that cannot be taken for a level. -/
inductive LevelProblem where
  /-- The basic layout of records, a text. -/
  | layout
  /-- The styles of layouts, a table. -/
  | styles
  deriving DecidableEq, Repr

namespace LevelProblem

/-- The words by which something is known that is no level. -/
def words : List (Text × LevelProblem) :=
  [("BASIC_FORMAT", layout), ("_STYLES", styles)]

/-- The entry of a style in the table of styles: its mark, its name, and its basic layout. -/
def styleEntry (mark style layout : Text) : Text :=
  Text.quoted mark ++ ": (<class 'logging." ++ style ++ "'>, " ++ Text.quoted layout ++ ")"

/-- The description of a problem. -/
def message : LevelProblem → Text
  | layout => "Unknown level: '%(levelname)s:%(name)s:%(message)s'"
  | styles =>
    "Level not an integer or a valid string: \x7b" ++
      Text.joinWith ", " [
        styleEntry "%" "PercentStyle" "%(levelname)s:%(name)s:%(message)s",
        styleEntry "\x7b" "StrFormatStyle"
          "\x7blevelname\x7d:\x7bname\x7d:\x7bmessage\x7d",
        styleEntry "$" "StringTemplateStyle"
          "$\x7blevelname\x7d:$\x7bname\x7d:$\x7bmessage\x7d"] ++ "\x7d"

end LevelProblem

/-- The level of a name in any letter case. -/
def levelNamed (name : Text) : Except LevelProblem Nat :=
  let word := Text.upper name
  match Entries.get? word LevelProblem.words with
  | some problem => .error problem
  | none => .ok ((Entries.get? word levels).getD informative)

/-- The levels of records. -/
inductive Level where
  /-- Traces of what is done. -/
  | debug
  /-- What was done. -/
  | info
  /-- What may be unexpected. -/
  | warning
  /-- What went wrong. -/
  | error
  deriving DecidableEq, Repr

namespace Level

def name : Level → Text
  | debug => "DEBUG"
  | info => "INFO"
  | warning => "WARNING"
  | error => "ERROR"

def rank : Level → Nat
  | debug => 10
  | info => 20
  | warning => 30
  | error => 40

end Level

/-- Facts about an event by name. -/
abbrev Context := List (Text × Json)

/-- The names of facts that come first, in their order. -/
def leadingFacts : List Text :=
  ["event", "component", "action", "outcome", "target", "count", "duration_ms", "line_number"]

/-- A fact that says nothing. -/
def isVoid : Json → Bool
  | .null => true
  | _ => false

/-- The context of some facts: those that say something, the leading ones first. -/
def contextOf (facts : List (Text × Json)) : Context :=
  let known := (Entries.ofPairs facts).filter fun (_, value) => !isVoid value
  leadingFacts.filterMap (fun name => (Entries.get? name known).map (name, ·)) ++
    known.filter fun (name, _) => !leadingFacts.contains name

/-- What is logged of an event. -/
structure Record where
  /-- The part of the library that the record is about. -/
  logger : Text
  level : Level
  message : Text
  /-- The facts about the event. -/
  context : Context
  /-- Whether the duration of the event belongs to the record. -/
  isTimed : Bool
  deriving Repr

/-- A record of a message alone. -/
def Record.plain (level : Level) (message : Text) : Record :=
  ⟨"root", level, message, [], false⟩

def declarationsRead (declaring : Option Identifier) (declarations : Declarations) : Record :=
  ⟨"codec.reader", .debug, "Parsed dependency declarations",
    contextOf [
      ("event", .string "parse"),
      ("component", .string "codec_reader"),
      ("outcome", .string "success"),
      ("count", .integer declarations.size),
      ("target", (declaring.map fun bundle => Json.string bundle.toText).getD .null)],
    true⟩

def declarationsWritten (declarations : Declarations) : Record :=
  ⟨"codec.writer", .debug, "Wrote dependency declarations",
    contextOf [
      ("event", .string "write"),
      ("component", .string "codec_writer"),
      ("outcome", .string "success"),
      ("count", .integer declarations.size)],
    true⟩

def commandStarted (action : Text) : Record :=
  ⟨"nestdeps", .debug, "CLI start",
    contextOf [
      ("event", .string "function_entry"), ("component", .string "cli"),
      ("action", .string action)],
    false⟩

/-- The record of a command that succeeded. -/
def commandFinished (action : Text) : Record :=
  ⟨"nestdeps", .debug, "CLI finished",
    contextOf [
      ("event", .string "function_exit"), ("component", .string "cli"),
      ("action", .string action), ("outcome", .string "success")],
    false⟩

/-- Where records are written to. -/
inductive Outlet where
  | console
  | file (name : Text)
  deriving DecidableEq, Repr

/-- How records are written. -/
structure Setup where
  /-- The least level of the records that are written. -/
  threshold : Nat
  /-- Where they are written to. -/
  outlets : List Outlet
  deriving DecidableEq, Repr

namespace Setup

/-- Logging that was not set up. -/
def initial : Setup := ⟨Level.warning.rank, []⟩

/-- The name of the level to use: the first of the two names that says something. -/
def levelName (level environment : Option Text) : Text :=
  ((level.filter (!·.isEmpty)) <|> (environment.filter (!·.isEmpty))).getD "INFO"

/-- Logging after it was set up once more. The console is an outlet from the first time on. -/
def configure (level environment file : Option Text) (setup : Setup) :
    Except LevelProblem Setup := do
  return ⟨← levelNamed (levelName level environment),
    (if setup.outlets = [] then [.console] else setup.outlets) ++
      ((file.filter (!·.isEmpty)).map Outlet.file).toList⟩

/-- Whether records of a level are written. -/
def isEnabled (setup : Setup) (level : Level) : Bool :=
  setup.threshold ≤ level.rank

def line (record : Record) : Text :=
  "[" ++ record.level.name ++ "] " ++ record.message ++ "\n"

/-- What is written of a record, outlet by outlet. -/
def emit (setup : Setup) (record : Record) : List (Outlet × Text) :=
  if !setup.isEnabled record.level then
    []
  else if setup.outlets = [] then
    [(.console, record.message ++ "\n")]
  else
    setup.outlets.map fun outlet => (outlet, line record)

end Setup

end Log

end BundleDecl
