import BundleDecl.Declarations
import BundleDecl.Declarations.Reader
import BundleDecl.Text.Utf8

/-!
# Delivery of declarations

The text of declarations may arrive at once or in chunks, as characters or as bytes. The lines of a
chunk end at the latest with the chunk. Chunks are taken one line ahead of the line being read, so a
chunk that is not valid UTF-8 is reported as soon as the last line before it is consumed.

The written form of declarations is returned, or it is put into a receiver, in bytes if the receiver
refuses characters.
-/

namespace BundleDecl

/-- A piece of input. -/
inductive Chunk where
  /-- Characters. -/
  | text (text : Text)
  /-- Encoded characters. -/
  | bytes (bytes : List UInt8)
  deriving DecidableEq, Repr

namespace Chunk

/-- The characters of a chunk, if it is valid. -/
def decode? : Chunk → Option Text
  | text characters => some characters
  | bytes encoded => Text.Utf8.decode? encoded

end Chunk

/-- The pieces of a sequence that end with each occurrence of an item. -/
def piecesAfter {Item : Type} [DecidableEq Item] (last : Item) : List Item → List (List Item)
  | [] => []
  | item :: rest =>
    if item = last then
      [item] :: piecesAfter last rest
    else
      match piecesAfter last rest with
      | [] => [[item]]
      | piece :: pieces => (item :: piece) :: pieces

/-- The ways in which declarations arrive. -/
inductive Source where
  /-- A text at once. -/
  | text (text : Text)
  /-- Bytes at once. -/
  | bytes (bytes : List UInt8)
  /-- Chunks of any kind. -/
  | chunks (chunks : List Chunk)
  deriving DecidableEq, Repr

namespace Source

/-- A stream of characters, which is delivered in chunks that end after each line feed. -/
def textStream (text : Text) : Source :=
  chunks ((piecesAfter '\n' text).map Chunk.text)

/-- A stream of bytes, which is delivered in chunks that end after each line feed. -/
def byteStream (bytes : List UInt8) : Source :=
  chunks ((piecesAfter 10 bytes).map Chunk.bytes)

def toChunks : Source → List Chunk
  | text characters => [.text characters]
  | bytes encoded => [.bytes encoded]
  | chunks pieces => pieces

end Source

/-- The lines that were delivered, and whether an invalid chunk follows them. -/
structure Delivered where
  /-- The lines of the valid chunks. -/
  lines : List Text
  /-- Whether delivery ended with an invalid chunk. -/
  invalid : Bool
  deriving DecidableEq, Repr

namespace Delivered

/-- What some chunks deliver. -/
def ofChunks : List Chunk → Delivered
  | [] => ⟨[], false⟩
  | chunk :: rest =>
    match chunk.decode? with
    | none => ⟨[], true⟩
    | some characters =>
      let following := ofChunks rest
      ⟨Text.lines characters ++ following.lines, following.invalid⟩

/-- The number of the line at which an invalid chunk starts. -/
def invalidLine (delivered : Delivered) : Nat :=
  delivered.lines.length + 1

end Delivered

namespace Declarations

/-- The declarations on delivered lines. -/
def ofDelivered (declaring : Option Identifier) (delivered : Delivered) :
    Except Failure Declarations :=
  match ofLines declaring (Line.nonBlank delivered.lines) with
  | .ok declarations =>
    if delivered.invalid then
      failAt delivered.invalidLine .invalidEncoding
    else
      .ok declarations
  | .error stop =>
    if delivered.invalid && stop.unread.isEmpty then
      failAt delivered.invalidLine .invalidEncoding
    else
      .error stop.failure

def ofSource (declaring : Option Identifier) (source : Source) : Except Failure Declarations :=
  ofDelivered declaring (.ofChunks source.toChunks)

end Declarations

/-- What takes the written form of declarations. -/
inductive Receiver where
  /-- A stream of characters. -/
  | textStream
  /-- Any other object, which may refuse characters and take bytes only. -/
  | object (refusesText : Bool)
  deriving DecidableEq, Repr

namespace Receiver

/-- What is put into a receiver for a text. -/
def put (text : Text) : Receiver → Chunk
  | textStream => .text text
  | object refusesText => if refusesText then .bytes (Text.Utf8.encode text) else .text text

end Receiver

/-- What becomes of a written text. -/
inductive Output where
  | returned (text : Text)
  /-- A chunk was put into the receiver, and nothing is returned. -/
  | put (chunk : Chunk)
  deriving DecidableEq, Repr

namespace Output

/-- Puts a text into a receiver; without one, the text is returned. -/
def ofText (receiver : Option Receiver) (text : Text) : Output :=
  match receiver with
  | some receiver => .put (receiver.put text)
  | none => .returned text

/-- The characters that come out, if they are valid. -/
def decode? : Output → Option Text
  | returned text => some text
  | put chunk => chunk.decode?

end Output

end BundleDecl
