import BundleDecl.Text

/-!
# Failures

A failure is a cause, which says what is wrong with a piece of text or with a declaration, and the
number of the input line where that was found, if there is one. Every cause belongs to a class; the
classes are ordered by generality. Causes that concern the form of a text carry that text.
-/

namespace BundleDecl

/-- The classes of failures. -/
inductive FailureClass where
  /-- Any failure of identifiers, ranges and declarations. -/
  | declaration
  /-- Malformed text. -/
  | format
  /-- A quoted metadata value without its closing quote. -/
  | unterminated
  /-- Well-formed text that breaks a structural rule. -/
  | structural
  /-- An identifier with several versions. -/
  | ambiguousVersion
  deriving DecidableEq, Repr

namespace FailureClass

/-- The classes that a class falls under, itself included, from the most general one on. -/
def generalizations : FailureClass → List FailureClass
  | declaration => [declaration]
  | format => [declaration, format]
  | unterminated => [declaration, format, unterminated]
  | structural => [declaration, structural]
  | ambiguousVersion => [declaration, structural, ambiguousVersion]

end FailureClass

/-- What is wrong at a position of a range text. -/
inductive RangeProblem where
  /-- The text ends where a range must start. -/
  | unexpectedEnd
  /-- A character that starts no range, or that does not belong between two braces. -/
  | invalidCharacter (character : Char)
  /-- A run of digits and dots that is no version number. -/
  | invalidNumber (number : Text)
  /-- The text ends before a closing brace. -/
  | missingClosingBrace
  /-- A bounded range without its left bound. -/
  | emptyLeftBound
  /-- A bounded range without its right bound. -/
  | emptyRightBound
  /-- A bounded range that ends with something else than a brace. -/
  | invalidEnding (character : Char)
  /-- A bounded range whose left bound is not below its right bound. -/
  | invalidBounds (opening : Char) (left right : Text) (closing : Char)
  /-- A pair of braces with nothing between them. -/
  | emptyBound
  /-- A single version between two round braces. -/
  | illegalDefinition (version : Text)
  /-- The text ends inside a union. -/
  | unclosedUnion
  /-- A character that does not continue a union. -/
  | unexpectedCharacter (character : Char)
  /-- Something follows the range. -/
  | extraCharacters
  deriving DecidableEq, Repr

namespace RangeProblem

/-- The description of a problem. -/
def message : RangeProblem → Text
  | unexpectedEnd => "Unexpected end of range"
  | invalidCharacter character => "Invalid range character: " ++ [character]
  | invalidNumber number => "Invalid version number: " ++ number
  | missingClosingBrace => "Missing range closing brace"
  | emptyLeftBound => "Empty left range bound"
  | emptyRightBound => "Empty right range bound"
  | invalidEnding character => "Invalid range ending character: " ++ [character]
  | invalidBounds opening left right closing =>
    "Invalid range bounds: " ++ [opening] ++ left ++ ", " ++ right ++ [closing]
  | emptyBound => "Empty range bound"
  | illegalDefinition version => "Illegal range definition: (" ++ version ++ ")"
  | unclosedUnion => "Unclosed \x7b"
  | unexpectedCharacter character => "Unexpected character: " ++ [character]
  | extraCharacters => "Extra characters"

end RangeProblem

/-- What is wrong with a piece of text or with a declaration. -/
inductive Cause where
  /-- A cause in the words of whoever reports it. -/
  | stated (failureClass : FailureClass) (message : Text) (text : Option Text)
  | identifierFormat (text : Text)
  /-- A text that is no bundle name; it may be absent. -/
  | nameFormat (name : Option Text)
  /-- A text that is no qualifier; it may be absent. -/
  | qualifierFormat (qualifier : Option Text)
  /-- Two different versions in one identifier. -/
  | severalVersions (name first second : Text)
  /-- No version qualifier where one is needed. -/
  | emptyVersionQualifier
  /-- A qualifier without the mark of a version. -/
  | versionQualifierFormat (qualifier : Text)
  /-- A text that is no dot-separated sequence of numbers. -/
  | versionNumberFormat (version : Text)
  /-- Two versions to compare of which one is empty or absent. -/
  | versionNumbers (left right : Option Text)
  /-- Two version qualifiers to compare of which one is none. -/
  | versionQualifiers (left right : Text)
  /-- No version to find the successor of. -/
  | emptyVersion
  /-- No version to count the components of. -/
  | emptyVersionNumber
  /-- An empty range text. -/
  | emptyRange
  /-- A range text of spaces and tabs only. -/
  | blankRange (text : Text)
  /-- A problem at a position of a range text. -/
  | range (problem : RangeProblem) (index : Nat) (text : Text)
  /-- A text that is no dependency kind. -/
  | kindFormat (kind : Text)
  /-- A dependency kind with the reserved beginning. -/
  | reservedKind (kind : Text)
  | metadataNameFormat (name : Text)
  /-- A metadata name with the reserved beginning. -/
  | reservedMetadataName (name : Text)
  /-- A dependency without a version range. -/
  | rangeNotSet
  /-- A dependency without kinds. -/
  | noKinds
  | versionedTarget (identifier : Text)
  /-- An indented line where a target bundle must stand. -/
  | indentedTarget
  | versionedTargetLine (identifier : Text)
  /-- A second declaration of a target bundle. -/
  | repeatedTarget (identifier : Text)
  /-- A target bundle without dependencies. -/
  | undescribedTarget (identifier : Text)
  /-- A kind line that is not indented like the kind lines before it. -/
  | kindIndentation (expected : Text)
  /-- A metadata line that is indented neither like metadata nor like a kind line. -/
  | metadataIndentation (expected alternative : Text)
  /-- A kind line without a colon. -/
  | malformedKindLine (line : Text)
  /-- A kind line with a text after its colon that is no version range. -/
  | malformedKindRange (stripped text : Text)
  /-- A kind line without a kind. -/
  | noKindOnLine (text : Text)
  /-- A metadata line without a colon. -/
  | malformedMetadataLine (line : Text)
  /-- A metadata line without a name. -/
  | emptyMetadataName (line : Text)
  /-- A metadata line with a text before its colon that is no metadata name. -/
  | invalidMetadataName (name : Text)
  /-- A second value for a metadata name. -/
  | repeatedMetadataName (name : Text)
  /-- A quoted value without its closing quote. -/
  | unclosedQuotes
  /-- Input that is not encoded as it must be. -/
  | invalidEncoding
  deriving DecidableEq, Repr

namespace Cause

def failureClass : Cause → FailureClass
  | stated failureClass _ _ => failureClass
  | severalVersions .. => .ambiguousVersion
  | reservedKind _ | reservedMetadataName _ | rangeNotSet | noKinds | versionedTarget _
  | indentedTarget | versionedTargetLine _ | repeatedTarget _ | undescribedTarget _
  | kindIndentation _ | metadataIndentation .. | repeatedMetadataName _ => .structural
  | unclosedQuotes => .unterminated
  | identifierFormat _ | nameFormat _ | qualifierFormat _ | emptyVersionQualifier
  | versionQualifierFormat _ | versionNumberFormat _ | versionNumbers .. | versionQualifiers ..
  | emptyVersion | emptyVersionNumber | emptyRange | blankRange _ | range .. | kindFormat _
  | metadataNameFormat _ | malformedKindLine _ | malformedKindRange .. | noKindOnLine _
  | malformedMetadataLine _ | emptyMetadataName _ | invalidMetadataName _
  | invalidEncoding => .format

/-- The malformed text that a cause is about. -/
def text? : Cause → Option Text
  | stated _ _ text => text
  | identifierFormat text | versionQualifierFormat text | versionNumberFormat text
  | blankRange text | range _ _ text | kindFormat text | metadataNameFormat text
  | malformedKindLine text | malformedKindRange _ text | noKindOnLine text
  | malformedMetadataLine text | emptyMetadataName text | invalidMetadataName text => some text
  | nameFormat text | qualifierFormat text => text
  | emptyRange => some []
  | _ => none

/-- An indentation as it is shown, with its tabs visible. -/
def shownIndentation (indentation : Text) : Text :=
  indentation.flatMap fun character => if character = '\t' then ['\\', 't'] else [character]

/-- The description of a cause. -/
def message : Cause → Text
  | stated _ message _ => message
  | identifierFormat text => "Invalid bundle identifier format: " ++ text
  | nameFormat name => "Invalid bundle name format: " ++ Text.ofOption name
  | qualifierFormat qualifier => "Invalid bundle qualifier format: " ++ Text.ofOption qualifier
  | severalVersions name first second =>
    "Multiple version qualifiers in bundle identifier: " ++ name ++ "-" ++ first ++ "-" ++ second
  | emptyVersionQualifier => "Empty version qualifier argument."
  | versionQualifierFormat qualifier => "Invalid version qualifier: " ++ qualifier
  | versionNumberFormat version => "Invalid version number: " ++ version
  | versionNumbers left right =>
    "Invalid version numbers: " ++ Text.ofOption left ++ " - " ++ Text.ofOption right
  | versionQualifiers left right => "Invalid version qualifiers: " ++ left ++ " - " ++ right
  | emptyVersion => "Empty version argument."
  | emptyVersionNumber => "Empty version number argument."
  | emptyRange => "Empty range."
  | blankRange text => "Invalid range: " ++ text
  | range problem index text =>
    problem.message ++ " at index: " ++ Text.ofNat index ++ " in " ++ text
  | kindFormat kind => "Invalid dependency kind format: " ++ kind
  | reservedKind kind => "Reserved dependency kind: " ++ kind
  | metadataNameFormat name => "Invalid dependency metadata name format: " ++ name
  | reservedMetadataName name => "Reserved metadata name: " ++ name
  | rangeNotSet => "Version range not set."
  | noKinds => "No kinds specified."
  | versionedTarget identifier =>
    "Dependency bundle identifier cannot have meta qualifiers: " ++ identifier
  | indentedTarget => "Illegal indentation (Expected bundle identifier)"
  | versionedTargetLine identifier =>
    "Cannot specify meta qualifiers for bundle dependency: " ++ identifier
  | repeatedTarget identifier => "Multiple dependency declarations for bundle: " ++ identifier
  | undescribedTarget identifier => "No dependency description found for: " ++ identifier
  | kindIndentation expected =>
    "Illegal indentation for dependency information (Expected \"" ++ shownIndentation expected ++
      "\")"
  | metadataIndentation expected alternative =>
    "Illegal indentation for dependency information (Expected \"" ++ shownIndentation expected ++
      "\" or \"" ++ shownIndentation alternative ++ "\")"
  | malformedKindLine _ => "Malformed dependency (Expected kind and version)"
  | malformedKindRange stripped _ =>
    "Failed to parse dependency version range: " ++ stripped
  | noKindOnLine _ => "No dependency kind specified"
  | malformedMetadataLine _ => "Malformed metadata (Expected name and content)"
  | emptyMetadataName _ => "Empty metadata name"
  | invalidMetadataName name => "Invalid metadata name: " ++ name
  | repeatedMetadataName name => "Multiple metadata specified with name: " ++ name
  | unclosedQuotes => "Unclosed quotes"
  | invalidEncoding => "Input is not valid UTF-8"

end Cause

/-- A cause and the input line where it was found. -/
structure Failure where
  /-- What is wrong. -/
  cause : Cause
  /-- The number of the input line. Readers count from one; whoever states a cause counts freely. -/
  line : Option Int := none
  deriving DecidableEq, Repr

namespace Failure

/-- The failure at a line, unless it has been located before. -/
def locate (failure : Failure) (line : Int) : Failure :=
  match failure.line with
  | some _ => failure
  | none => ⟨failure.cause, some line⟩

/-- The description of a failure, with its line at the end. -/
def message (failure : Failure) : Text :=
  match failure.line with
  | some line => failure.cause.message ++ " at line: " ++ Text.ofInt line
  | none => failure.cause.message

end Failure

/-- The failure of a cause without a line. -/
def fail {Result : Type} (cause : Cause) : Except Failure Result :=
  .error ⟨cause, none⟩

def failAt {Result : Type} (line : Nat) (cause : Cause) : Except Failure Result :=
  .error ⟨cause, some (line : Int)⟩

end BundleDecl
