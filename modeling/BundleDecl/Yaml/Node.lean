import BundleDecl.Yaml.Token

/-!
# Nodes of a YAML document

A node is a scalar, a sequence or a mapping with its tag, before anything is said about its value.
The tokens of a text make up at most one node: several documents are refused. A reference stands for
the node with its anchor.
-/

namespace BundleDecl

namespace Yaml

/-- What a scalar is to be taken for. -/
inductive ScalarKind where
  /-- What its form says. -/
  | byForm
  | text
  /-- What a tag says. -/
  | tagged (tag : Text)
  deriving DecidableEq, Repr

inductive Node where
  | scalar (kind : ScalarKind) (text : Text)
  /-- A sequence, possibly with a tag. -/
  | sequence (tag : Option Text) (items : List Node)
  /-- A mapping, possibly with a tag. -/
  | mapping (tag : Option Text) (entries : List (Node × Node))
  /-- A reference to a collection in which it stands. -/
  | enclosing
  deriving Repr

namespace Node

/-- A missing scalar. -/
def empty : Node :=
  scalar .byForm []

/-- The tokens that are left, and what was declared before them. -/
structure State where
  /-- The tokens that are left. -/
  tokens : List Token
  /-- The fault that ends the tokens. -/
  fault : Fault
  /-- The beginnings of tags by their handles. -/
  handles : List (Text × Text)
  /-- The nodes with anchors; one that is still being made has no node yet. -/
  anchors : List (Text × Option Node) := []

/-- A step that makes nodes of tokens. -/
abbrev Step := StateT State (Except Fault)

/-- The next token. -/
def peek : Step Token := do
  let state ← get
  match state.tokens with
  | [] => throw state.fault
  | token :: _ => return token

/-- Drops the next token. -/
def drop : Step Unit :=
  modify fun state => { state with tokens := state.tokens.tail }

/-- Whether the next token is one of some tokens; if it is, it stays. -/
def isNext (tokens : List Token) : Step Bool := do
  return tokens.contains (← peek)

/-- Drops a token that must come next. -/
def expect (token : Token) : Step Unit := do
  if ← isNext [token] then drop else throw .malformed

/-- The anchor and the tag before a node, in either order. -/
def properties : Step (Option Text × Option Tag) := do
  match ← peek with
  | .anchor name =>
    drop
    match ← peek with
    | .tag tag => drop; return (some name, some tag)
    | _ => return (some name, none)
  | .tag tag =>
    drop
    match ← peek with
    | .anchor name => drop; return (some name, some tag)
    | _ => return (none, some tag)
  | _ => return (none, none)

/-- The text of a tag, whose handle must have been declared. -/
def tagText (tag : Tag) : Step Text := do
  match tag.handle with
  | none => return tag.suffix
  | some handle =>
    match Entries.get? handle (← get).handles with
    | some start => return start ++ tag.suffix
    | none => throw .malformed

/-- The tag that makes a node what its form says. -/
def formTag : Text := ['!']

/-- What a scalar with a tag and of some style is to be taken for. -/
def kindOf (tag : Option Text) (isPlain : Bool) : ScalarKind :=
  match tag with
  | none => if isPlain then .byForm else .text
  | some name => if name = formTag then .byForm else .tagged name

/-- The tag of a collection, unless it says nothing. -/
def collectionTag (tag : Option Text) : Option Text :=
  tag.filter (· ≠ formTag)

def setAnchor (anchor : Option Text) (node : Option Node) : Step Unit :=
  match anchor with
  | none => return ()
  | some name => modify fun state => { state with anchors := Entries.set name node state.anchors }

/-- Declares an anchor, of which there must not be another one. -/
def declareAnchor (anchor : Option Text) : Step Unit := do
  let state ← get
  if anchor.any fun name => Entries.has name state.anchors then
    throw .malformed
  setAnchor anchor none

/-- The node of a reference. -/
def referred (name : Text) : Step Node := do
  match Entries.get? name (← get).anchors with
  | some node => return node.getD enclosing
  | none => throw .malformed

/-- Where a node stands. -/
inductive Setting where
  /-- In a collection in block style. -/
  | block
  /-- In a mapping in block style, where a sequence need not be indented. -/
  | member
  /-- In a collection in flow style. -/
  | flow
  deriving DecidableEq, Repr

mutual

/-- The next node. The fuel bounds the number of steps down to it from the start of the document. -/
def read : Nat → Setting → Step Node
  | 0, _ => throw .malformed
  | fuel + 1, setting => do
    if let .alias name ← peek then
      drop
      referred name
    else
      let (anchor, givenTag) ← properties
      let tag ← givenTag.mapM tagText
      -- A fault of the token after the properties comes before one of the anchor.
      let _ ← peek
      declareAnchor anchor
      let node ← readContent fuel setting tag (anchor.isSome || tag.isSome)
      setAnchor anchor (some node)
      return node

/-- The content of a node after its anchor and its tag; with one of them it may be missing. -/
def readContent : Nat → Setting → Option Text → Bool → Step Node
  | 0, _, _, _ => throw .malformed
  | fuel + 1, setting, tag, mayBeMissing => do
    let isBlock := setting ≠ .flow
    match ← peek with
    | .scalar text isPlain => drop; return scalar (kindOf tag isPlain) text
    | .flowSequenceStart => drop; sequence (collectionTag tag) <$> readFlowItems fuel true
    | .flowMappingStart => drop; mapping (collectionTag tag) <$> readFlowMembers fuel true
    | token =>
      if token = .blockEntry && setting = .member then
        sequence (collectionTag tag) <$> readIndentless fuel
      else if token = .blockSequenceStart && isBlock then
        drop
        sequence (collectionTag tag) <$> readItems fuel
      else if token = .blockMappingStart && isBlock then
        drop
        mapping (collectionTag tag) <$> readMembers fuel
      else if mayBeMissing then
        return scalar (kindOf tag true) []
      else
        throw .malformed

/-- The next node, or an empty one before certain tokens. -/
def readUnless : Nat → List Token → Setting → Step Node
  | 0, _, _ => throw .malformed
  | fuel + 1, tokens, setting => do
    if ← isNext tokens then return empty else read fuel setting

/-- The items of a sequence in block style, up to its end. -/
def readItems : Nat → Step (List Node)
  | 0 => throw .malformed
  | fuel + 1 => do
    if ← isNext [.blockEntry] then
      drop
      let item ← readUnless fuel [.blockEntry, .blockEnd] .block
      return item :: (← readItems fuel)
    else
      expect .blockEnd
      return []

/-- The items of a sequence that is not indented. -/
def readIndentless : Nat → Step (List Node)
  | 0 => throw .malformed
  | fuel + 1 => do
    if ← isNext [.blockEntry] then
      drop
      let item ← readUnless fuel [.blockEntry, .key, .value, .blockEnd] .block
      return item :: (← readIndentless fuel)
    else
      return []

/-- The members of a mapping in block style, up to its end. -/
def readMembers : Nat → Step (List (Node × Node))
  | 0 => throw .malformed
  | fuel + 1 => do
    if ← isNext [.key] then
      drop
      let key ← readUnless fuel [.key, .value, .blockEnd] .member
      let value ← readValue fuel [.key, .value, .blockEnd] .member
      return (key, value) :: (← readMembers fuel)
    else
      expect .blockEnd
      return []

/-- The value after a colon, which may be missing before certain tokens, as may the colon. -/
def readValue : Nat → List Token → Setting → Step Node
  | 0, _, _ => throw .malformed
  | fuel + 1, tokens, setting => do
    if ← isNext [.value] then
      drop
      readUnless fuel tokens setting
    else
      return empty

/-- The items of a sequence in flow style, up to its end. A single member is a mapping. -/
def readFlowItems : Nat → Bool → Step (List Node)
  | 0, _ => throw .malformed
  | fuel + 1, isFirst => do
    if ← isNext [.flowSequenceEnd] then
      drop
      return []
    else
      if !isFirst then expect .flowEntry
      if ← isNext [.key] then
        drop
        let key ← readUnless fuel [.value, .flowEntry, .flowSequenceEnd] .flow
        let value ← readValue fuel [.flowEntry, .flowSequenceEnd] .flow
        return mapping none [(key, value)] :: (← readFlowItems fuel false)
      else if ← isNext [.flowSequenceEnd] then
        drop
        return []
      else
        let item ← read fuel .flow
        return item :: (← readFlowItems fuel false)

/-- The members of a mapping in flow style, up to its end. A value may be missing. -/
def readFlowMembers : Nat → Bool → Step (List (Node × Node))
  | 0, _ => throw .malformed
  | fuel + 1, isFirst => do
    if ← isNext [.flowMappingEnd] then
      drop
      return []
    else
      if !isFirst then expect .flowEntry
      if ← isNext [.key] then
        drop
        let key ← readUnless fuel [.value, .flowEntry, .flowMappingEnd] .flow
        let value ← readValue fuel [.flowEntry, .flowMappingEnd] .flow
        return (key, value) :: (← readFlowMembers fuel false)
      else if ← isNext [.flowMappingEnd] then
        drop
        return []
      else
        let key ← read fuel .flow
        return (key, empty) :: (← readFlowMembers fuel false)

end

/-- The handles that need no declaration. -/
def defaultHandles : List (Text × Text) :=
  [("!", "!"), ("!!", "tag:yaml.org,2002:")]

/-- The handles that some directives declare. Versions of the format other than 1 are refused. -/
def declaredHandles (hasVersion : Bool) (handles : List (Text × Text)) :
    List Directive → Except Fault (List (Text × Text))
  | [] => .ok handles
  | .version major :: rest =>
    if hasVersion || major ≠ 1 then .error .malformed else declaredHandles true handles rest
  | .handle name start :: rest =>
    if Entries.has name handles then .error .malformed
    else declaredHandles hasVersion (Entries.set name start handles) rest
  | .other :: rest => declaredHandles hasVersion handles rest

def directive? : Token → Option Directive
  | .directive directive => some directive
  | _ => none

/-- Drops the directives that come next, and yields the handles that they declare. -/
def readDirectives : Step (List (Text × Text)) := do
  let state ← get
  let directives := (state.tokens.takeWhile fun token => (directive? token).isSome).filterMap
    directive?
  let handles ← declaredHandles false [] directives
  set { state with tokens := state.tokens.drop directives.length }
  return handles

/-- The content of a document with its mark, after which it may be missing. -/
def readMarked (fuel : Nat) : Step Node := do
  let declared ← readDirectives
  let handles := defaultHandles.foldl (fun handles (name, start) =>
    if Entries.has name handles then handles else Entries.set name start handles) declared
  modify fun state => { state with handles := handles }
  expect .documentStart
  match ← peek with
  | .directive _ | .documentStart | .documentEnd | .streamEnd => return empty
  | _ => read fuel .block

/-- The end of the text after a document. Before another document is refused, its directives and
the token after them are looked at. -/
def readEnd : Step Unit := do
  modify fun state => { state with tokens := state.tokens.dropWhile (· = .documentEnd) }
  if ← isNext [.streamEnd] then
    return ()
  else
    let _ ← readDirectives
    let _ ← peek
    throw .malformed

/-- The one document of some tokens, if there is any. -/
def readDocument (fuel : Nat) : Step (Option Node) := do
  let node ← match ← peek with
    | .streamEnd => pure none
    | .directive _ | .documentStart => some <$> readMarked fuel
    | _ => some <$> read fuel .block
  readEnd
  return node

/-- The node of a text, if it holds a document. -/
def ofText? (text : Text) : Except Fault (Option Node) := do
  let outcome := Lexer.ofText text
  let start : State := ⟨outcome.tokens, outcome.fault.getD .malformed, defaultHandles, []⟩
  let (node, _) ← (readDocument (4 * outcome.tokens.length + 4)).run start
  return node

end Node

end Yaml

end BundleDecl
