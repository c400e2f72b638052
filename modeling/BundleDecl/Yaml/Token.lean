import BundleDecl.Text.Utf8
import BundleDecl.Yaml.Scalar.Block
import BundleDecl.Yaml.Scalar.Quoted

/-!
# Tokens of a YAML document

The tokens of a document are its marks and scalars, and the beginnings and ends of the collections
that follow from indentation. Whether a scalar is a key shows only at the colon after it: a place
where a key may start is remembered until the line ends or too many characters have passed, and the
token for a key is put there afterwards.

The margin of a collection in block style is one more than its column; where no collection has begun
yet it is zero.
-/

namespace BundleDecl

namespace Yaml

/-- What a tag consists of: the handle, unless the tag is written out in full, and the rest. -/
structure Tag where
  /-- The handle, which stands for a beginning. -/
  handle : Option Text
  /-- The rest. -/
  suffix : Text
  deriving DecidableEq, Repr

/-- What a directive declares. -/
inductive Directive where
  /-- The version of the format by its first number. -/
  | version (major : Nat)
  /-- The beginning that a handle stands for. -/
  | handle (handle start : Text)
  /-- Nothing that matters. -/
  | other
  deriving DecidableEq, Repr

/-- The tokens of a document. -/
inductive Token where
  /-- The end of the text. -/
  | streamEnd
  | directive (directive : Directive)
  /-- The mark before a document. -/
  | documentStart
  /-- The mark after a document. -/
  | documentEnd
  /-- The beginning of a sequence in block style. -/
  | blockSequenceStart
  /-- The beginning of a mapping in block style. -/
  | blockMappingStart
  /-- The end of a collection in block style. -/
  | blockEnd
  /-- The dash before an item in block style. -/
  | blockEntry
  /-- The opening bracket of a sequence in flow style. -/
  | flowSequenceStart
  /-- The closing bracket of a sequence in flow style. -/
  | flowSequenceEnd
  /-- The opening brace of a mapping in flow style. -/
  | flowMappingStart
  /-- The closing brace of a mapping in flow style. -/
  | flowMappingEnd
  /-- The comma after an item in flow style. -/
  | flowEntry
  /-- The beginning of a key. -/
  | key
  /-- The colon before the value of a key. -/
  | value
  /-- A reference to an anchor. -/
  | alias (name : Text)
  | anchor (name : Text)
  | tag (tag : Tag)
  | scalar (text : Text) (isPlain : Bool)
  deriving DecidableEq, Repr

/-- A place where a key may have started. -/
structure PossibleKey where
  /-- The number of tokens before it. -/
  position : Nat
  /-- Whether a key must start there, because the collection leaves no other choice. -/
  isRequired : Bool
  place : Place
  deriving DecidableEq, Repr

/-- A text that is divided into tokens. -/
structure Lexer where
  /-- The place that was reached. -/
  place : Place
  /-- The number of collections in flow style around the place. -/
  depth : Nat := 0
  /-- The margins of the collections in block style around the place, the innermost one first. -/
  margins : List Nat := []
  /-- Whether a key may start at the place. -/
  allowsKey : Bool := true
  /-- The places where keys may have started, by the depth of collections in flow style. -/
  keys : List (Nat × PossibleKey) := []
  /-- The tokens that were found, the last one first. -/
  tokens : List Token := []
  deriving DecidableEq, Repr

namespace Lexer

/-- The greatest number of characters that a key may be long. -/
def longestKey : Nat := 1024

/-- The margin of the innermost collection in block style. -/
def margin (lexer : Lexer) : Nat :=
  lexer.margins.headD 0

/-- Whether the place is within a collection in flow style. -/
def inFlow (lexer : Lexer) : Bool :=
  lexer.depth ≠ 0

/-- One more token, at the end of which lies a place. -/
def emit (token : Token) (place : Place) (lexer : Lexer) : Lexer :=
  { lexer with place := place, tokens := token :: lexer.tokens }

/-- Whether keys may start from now on. -/
def allow (allowsKey : Bool) (lexer : Lexer) : Lexer :=
  { lexer with allowsKey := allowsKey }

/-- Forgets a place where a key may have started, which is a fault if one must start there. -/
def forget (isForgotten : Nat × PossibleKey → Bool) (lexer : Lexer) : Except Fault Lexer :=
  if lexer.keys.any fun entry => isForgotten entry && entry.2.isRequired then
    .error .malformed
  else
    .ok { lexer with keys := lexer.keys.filter (!isForgotten ·) }

/-- Whether a key would end on another line or become too long. -/
def isStale (lexer : Lexer) (key : PossibleKey) : Bool :=
  key.place.line ≠ lexer.place.line || longestKey < lexer.place.index - key.place.index

/-- Forgets the places of keys that would end on another line or become too long. -/
def forgetStale (lexer : Lexer) : Except Fault Lexer :=
  lexer.forget fun (_, key) => lexer.isStale key

/-- Forgets the place of a key at the present depth. -/
def forgetKey (lexer : Lexer) : Except Fault Lexer :=
  lexer.forget fun (depth, _) => depth = lexer.depth

/-- Remembers that a key may start at the place. -/
def rememberKey (lexer : Lexer) : Except Fault Lexer :=
  if lexer.allowsKey then do
    let cleared ← lexer.forgetKey
    let isRequired := !lexer.inFlow && lexer.margin = lexer.place.column + 1
    let key : PossibleKey := ⟨lexer.tokens.length, isRequired, lexer.place⟩
    return { cleared with keys := (lexer.depth, key) :: cleared.keys }
  else
    .ok lexer

/-- Ends the collections in block style with a margin beyond a limit. -/
def unwind (limit : Nat) (lexer : Lexer) : Lexer :=
  let ended := lexer.margins.takeWhile (limit < ·)
  { lexer with
    margins := lexer.margins.drop ended.length
    tokens := List.replicate ended.length Token.blockEnd ++ lexer.tokens }

/-- Begins a collection in block style at a column, unless one has begun there or farther right. -/
def indent? (column : Nat) (lexer : Lexer) : Option Lexer :=
  if lexer.margin ≤ column then
    some { lexer with margins := (column + 1) :: lexer.margins }
  else
    none

/-- Begins a collection in block style at the place, if none has begun there. -/
def begin (token : Token) (lexer : Lexer) : Lexer :=
  match lexer.indent? lexer.place.column with
  | some indented => indented.emit token lexer.place
  | none => lexer

/-- The place after spaces, comments and line breaks, and whether there was a line break. -/
def skipText : Bool → Bool → Text → Place → Bool × Place
  | _, hasBreak, [], place => (hasBreak, place)
  | inComment, hasBreak, first :: rest, place =>
    if isBreak first then
      skipText false true rest place.next
    else if inComment || first = ' ' || first = '#' then
      skipText (inComment || first = '#') hasBreak rest place.next
    else
      (hasBreak, place)

/-- Goes to the next place with content. In block style a key may start after a line break. -/
def skip (lexer : Lexer) : Lexer :=
  let (hasBreak, place) := skipText false false lexer.place.rest lexer.place
  { lexer with
    place := place
    allowsKey := lexer.allowsKey || (hasBreak && !lexer.inFlow) }

/-- A character of names of anchors, handles and directives. -/
def isNameCharacter (character : Char) : Bool :=
  character.isAlphanum || character = '-' || character = '_'

/-- The name at a place, which must not be empty, and the place after it. -/
def readName (place : Place) : Except Fault (Text × Place) :=
  let name := place.rest.takeWhile isNameCharacter
  if name = [] then .error .malformed else .ok (name, place.advance name.length)

/-- A name after the mark of an anchor or of a reference, and the place after it. -/
def readAnchor (place : Place) : Except Fault (Text × Place) := do
  let (name, next) ← readName place.next
  if endsWord next.rest || next.rest.head?.any ("?:,]\x7d%@\x60" : Text).contains then
    return (name, next)
  else
    .error .malformed

/-- A handle at a place: one or two exclamation marks, with a name between them, or one alone. -/
def readHandle (place : Place) : Except Fault (Text × Place) :=
  let name := place.next.rest.takeWhile isNameCharacter
  let after := place.next.advance name.length
  if !place.isAt '!' then .error .malformed
  else if place.next.isAt ' ' then .ok (['!'], place.next)
  else if after.isAt '!' then .ok ('!' :: name ++ ['!'], after.next)
  else .error .malformed

/-- A character that a tag may be written with. -/
def isTagCharacter (character : Char) : Bool :=
  character.isAlphanum || ("-;/?:@&=+$,_.!~*'()[]" : Text).contains character

/-- The bytes of escape sequences at the beginning of a text; each is a percent sign and digits. -/
def escapedBytes : Text → Except Fault (List UInt8)
  | '%' :: high :: low :: rest =>
    if isHexDigit high && isHexDigit low then do
      return (numberInBase 16 [high, low]).toUInt8 :: (← escapedBytes rest)
    else
      .error .malformed
  | '%' :: _ => .error .malformed
  | _ => .ok []

/-- The rest of a tag. The fuel is greater than the number of the characters from the place on. -/
def readSuffixRest : Nat → Place → Except Fault (Text × Place)
  | 0, place => .ok ([], place)
  | fuel + 1, place => do
    let plain := place.rest.takeWhile isTagCharacter
    let after := place.advance plain.length
    let bytes ← escapedBytes after.rest
    if bytes = [] then
      return (plain, after)
    else
      match Text.Utf8.decode? bytes with
      | none => .error .malformed
      | some characters =>
        let (more, last) ← readSuffixRest fuel (after.advance (3 * bytes.length))
        return (plain ++ characters ++ more, last)

/-- The rest of a tag, which must not be empty, and the place after it. -/
def readSuffix (place : Place) : Except Fault (Text × Place) := do
  let (suffix, next) ← readSuffixRest (place.rest.length + 1) place
  if next.index = place.index then .error .malformed else return (suffix, next)

/-- Whether a text holds an exclamation mark before it ends as a name does. -/
def hasHandle (text : Text) : Bool :=
  (text.takeWhile fun character => !(character = ' ' || isBreak character)).contains '!'

/-- The tag at a place, and the place after it. -/
def readTag (place : Place) : Except Fault (Tag × Place) := do
  let (tag, next) ←
    if place.next.isAt '<' then do
      let (suffix, next) ← readSuffix (place.advance 2)
      if next.isAt '>' then pure ((⟨none, suffix⟩ : Tag), next.next) else throw .malformed
    else if endsWord place.next.rest then
      pure (⟨none, ['!']⟩, place.next)
    else do
      let (handle, start) ←
        if hasHandle place.next.rest then readHandle place else pure (['!'], place.next)
      let (suffix, next) ← readSuffix start
      pure (⟨some handle, suffix⟩, next)
  if endsName next.rest then return (tag, next) else .error .malformed

/-- The number at a place, and the place after it. -/
def readNumber (place : Place) : Except Fault (Nat × Place) :=
  let digits := place.rest.takeWhile Char.isDigit
  if digits = [] then .error .malformed
  else if Text.longestNumber < digits.length then
    .error (.interrupted (.conversion digits.length))
  else .ok (Text.toNat digits 0, place.advance digits.length)

/-- The version at a place by its first number, and the place after it. -/
def readVersion (place : Place) : Except Fault (Directive × Place) := do
  let (major, point) ← readNumber place
  let (_, next) ← if point.isAt '.' then readNumber point.next else .error .malformed
  return (.version major, next)

/-- The declaration of a handle at a place, and the place after it. -/
def readDeclaration (place : Place) : Except Fault (Directive × Place) := do
  let (handle, afterHandle) ← readHandle place
  if afterHandle.isAt ' ' then
    let (start, next) ← readSuffix afterHandle.skipSpaces
    return (.handle handle start, next)
  else
    .error .malformed

/-- The directive at a place, and the place of the line after it. -/
def readDirective (place : Place) : Except Fault (Directive × Place) := do
  let (name, afterName) ← readName place.next
  if !endsName afterName.rest then
    .error .malformed
  else
    let (directive, next) ←
      if name = "YAML" then readVersion afterName.skipSpaces
      else if name = "TAG" then readDeclaration afterName.skipSpaces
      else pure (.other, afterName.skipWhile (!isBreak ·))
    if endsName next.rest then return (directive, ← Block.skipLine next) else .error .malformed

/-- A token that ends everything in block style. -/
def readTopLevel (token : Token) (place : Place) (lexer : Lexer) : Except Fault Lexer := do
  return ((← (lexer.unwind 0).forgetKey).allow false).emit token place

/-- The end of the text. -/
def readEnd (lexer : Lexer) : Except Fault Lexer := do
  return { ← lexer.readTopLevel .streamEnd lexer.place with keys := [] }

/-- An opening bracket or brace. -/
def readOpening (token : Token) (lexer : Lexer) : Except Fault Lexer := do
  let remembering ← lexer.rememberKey
  return ({ remembering with depth := lexer.depth + 1 }.allow true).emit token lexer.place.next

/-- A closing bracket or brace, which needs an opening one. -/
def readClosing (token : Token) (lexer : Lexer) : Except Fault Lexer := do
  if lexer.inFlow then
    let cleared ← lexer.forgetKey
    return ({ cleared with depth := lexer.depth - 1 }.allow false).emit token lexer.place.next
  else
    .error .malformed

/-- The comma after an item in flow style. -/
def readComma (lexer : Lexer) : Except Fault Lexer := do
  return ((← lexer.forgetKey).allow true).emit .flowEntry lexer.place.next

/-- The dash before an item; in block style it may begin a sequence. -/
def readDash (lexer : Lexer) : Except Fault Lexer := do
  if lexer.inFlow then
    return ((← lexer.forgetKey).allow true).emit .blockEntry lexer.place.next
  else if lexer.allowsKey then
    let begun := lexer.begin .blockSequenceStart
    return ((← begun.forgetKey).allow true).emit .blockEntry lexer.place.next
  else
    .error .malformed

/-- The mark before a key of any form; in block style it may begin a mapping. -/
def readKeyMark (lexer : Lexer) : Except Fault Lexer := do
  if lexer.inFlow then
    return ((← lexer.forgetKey).allow false).emit .key lexer.place.next
  else if lexer.allowsKey then
    let begun := lexer.begin .blockMappingStart
    return ((← begun.forgetKey).allow true).emit .key lexer.place.next
  else
    .error .malformed

/-- Puts the token for a key where it started; in block style that may begin a mapping. -/
def insertKey (key : PossibleKey) (lexer : Lexer) : Lexer :=
  let count := lexer.tokens.length - key.position
  let put (before : List Token) (lexer : Lexer) : Lexer :=
    { lexer with tokens := lexer.tokens.take count ++ before ++ lexer.tokens.drop count }
  match if lexer.inFlow then none else lexer.indent? key.place.column with
  | some indented => put [.key, .blockMappingStart] indented
  | none => put [.key] lexer

/-- The colon before a value, which may show that something before it is a key. -/
def readColon (lexer : Lexer) : Except Fault Lexer := do
  match Entries.get? lexer.depth lexer.keys with
  | some key =>
    let known := { lexer with keys := lexer.keys.filter fun (depth, _) => depth ≠ lexer.depth }
    return ((known.insertKey key).allow false).emit .value lexer.place.next
  | none =>
    if lexer.inFlow then
      return ((← lexer.forgetKey).allow false).emit .value lexer.place.next
    else if lexer.allowsKey then
      let begun := lexer.begin .blockMappingStart
      return ((← begun.forgetKey).allow true).emit .value lexer.place.next
    else
      .error .malformed

/-- A token that may be a key or start one. -/
def readPossibleKey (read : Place → Except Fault (Token × Place)) (lexer : Lexer) :
    Except Fault Lexer := do
  let remembering ← lexer.rememberKey
  let (token, next) ← read lexer.place
  return (remembering.allow false).emit token next

/-- A plain scalar. A key may start on the line after it. -/
def readPlain (lexer : Lexer) : Except Fault Lexer := do
  let remembering ← lexer.rememberKey
  let reading := Plain.read lexer.inFlow lexer.margin lexer.place
  return (remembering.allow reading.isFresh).emit (.scalar reading.text true) reading.next

/-- A block scalar. A key may start on the line after it. -/
def readBlock (folds : Bool) (lexer : Lexer) : Except Fault Lexer := do
  let cleared ← (lexer.allow true).forgetKey
  let (text, next) ← Block.read folds lexer.margin lexer.place
  return cleared.emit (.scalar text false) next

/-- A scalar between quotes. -/
def readQuoted (quote : Char) (lexer : Lexer) : Except Fault Lexer :=
  lexer.readPossibleKey fun place => do
    let (text, next) ← Quoted.read quote place
    return (.scalar text false, next)

/-- The token that starts with a character at the place. -/
def readToken (first : Char) (rest : Text) (lexer : Lexer) : Except Fault Lexer :=
  let place := lexer.place
  let isAtStart := place.column = 0
  if isAtStart && first = '%' then do
    let (directive, next) ← readDirective place
    lexer.readTopLevel (.directive directive) next
  else if isAtStart && startsWithMark '-' place.rest then
    lexer.readTopLevel .documentStart (place.advance 3)
  else if isAtStart && startsWithMark '.' place.rest then
    lexer.readTopLevel .documentEnd (place.advance 3)
  else
    let standsAlone := endsWord rest
    match first with
    | '[' => lexer.readOpening .flowSequenceStart
    | '\x7b' => lexer.readOpening .flowMappingStart
    | ']' => lexer.readClosing .flowSequenceEnd
    | '\x7d' => lexer.readClosing .flowMappingEnd
    | ',' => lexer.readComma
    | '*' => lexer.readPossibleKey fun place => do
      let (name, next) ← readAnchor place
      return (.alias name, next)
    | '&' => lexer.readPossibleKey fun place => do
      let (name, next) ← readAnchor place
      return (.anchor name, next)
    | '!' => lexer.readPossibleKey fun place => do
      let (tag, next) ← readTag place
      return (.tag tag, next)
    | '\'' => lexer.readQuoted '\''
    | '"' => lexer.readQuoted '"'
    | _ =>
      if first = '-' && standsAlone then lexer.readDash
      else if first = '?' && (lexer.inFlow || standsAlone) then lexer.readKeyMark
      else if first = ':' && (lexer.inFlow || standsAlone) then lexer.readColon
      else if first = '|' && !lexer.inFlow then lexer.readBlock false
      else if first = '>' && !lexer.inFlow then lexer.readBlock true
      else if Plain.startsHere lexer.inFlow place.rest then lexer.readPlain
      else .error .malformed

/-- The next token, with the beginnings and ends of collections that come with it. -/
def step (lexer : Lexer) : Except Fault Lexer := do
  let fresh ← lexer.skip.forgetStale
  let unwound := if fresh.inFlow then fresh else fresh.unwind (fresh.place.column + 1)
  match unwound.place.rest with
  | [] => unwound.readEnd
  | first :: rest => unwound.readToken first rest

/-- The tokens before the first place where a key may have started. More may yet be put there. -/
def settled (lexer : Lexer) : List Token :=
  let possible := lexer.keys.filter fun (_, key) => !lexer.isStale key
  lexer.tokens.reverse.take
    (possible.foldl (fun count (_, key) => min count key.position) lexer.tokens.length)

/-- The tokens that are settled before the first fault, and that fault. -/
structure Outcome where
  tokens : List Token
  /-- The fault that ends them, unless they end with the text. -/
  fault : Option Fault
  deriving DecidableEq, Repr

/-- Divides the rest of a text. Every token takes a character at least, which bounds the fuel. -/
def run : Nat → Lexer → Outcome
  | 0, lexer => ⟨lexer.settled, some .malformed⟩
  | fuel + 1, lexer =>
    match lexer.step with
    | .error fault => ⟨lexer.settled, some fault⟩
    | .ok next =>
      if next.tokens.head? = some .streamEnd then ⟨next.tokens.reverse, none⟩ else run fuel next

/-- The place where the content of a text starts, after a byte order mark. -/
def start (text : Text) : Place :=
  let place : Place := { rest := text }
  if place.isAt byteOrderMark then place.next else place

/-- The tokens of a text. -/
def ofText (text : Text) : Outcome :=
  run (text.length + 2) { place := start text }

end Lexer

end Yaml

end BundleDecl
