import BundleDecl.Yaml.Fault
import BundleDecl.Yaml.Scalar

/-!
# Values of YAML documents

The keys of a mapping are scalars. Keys of the same value are one key, whether they are truth values
or numbers of either sort; the first of them is kept, with the last value. A mapping takes over the
members of the mappings that it is merged with, unless it has its own. Tags can make a sequence of a
mapping's keys, or pairs of the members of a sequence's mappings.
-/

namespace BundleDecl

namespace Yaml

inductive Value where
  | scalar (scalar : Scalar)
  | sequence (items : List Value)
  /-- A mapping with its members in order. -/
  | mapping (members : List (Scalar × Value))
  deriving Repr

namespace Value

/-- The members with a value set; a key that is known keeps its form and its place. -/
def set (key : Scalar) (value : Value) : List (Scalar × Value) → List (Scalar × Value)
  | [] => [(key, value)]
  | (known, old) :: rest =>
    if known.canonical = key.canonical then (known, value) :: rest
    else (known, old) :: set key value rest

/-- The mapping whose members are set one after the other. -/
def ofMembers (members : List (Scalar × Value)) : Value :=
  mapping (members.foldl (fun known (key, value) => set key value known) [])

def member? (name : Text) (members : List (Scalar × Value)) : Option Value :=
  (members.find? fun (key, _) => key = .text name).map Prod.snd

/-- The names of the tags that say that a node is a collection. -/
def collectionNames : List Text :=
  ["seq", "map", "set", "omap", "pairs"]

/-- Whether a tag says that a node is a collection. -/
def isCollectionTag (tag : Text) : Bool :=
  (collectionNames.map Scalar.tagNamed).contains tag

/-- Whether a node is what a certain tag, or else a plain scalar of a certain form, stands for. -/
def isMarked (name form : Text) : Node → Bool
  | .scalar .byForm content => Scalar.formOf content = form
  | .scalar .text _ => false
  | .scalar (.tagged tag) _ => tag = Scalar.tagNamed name
  | .sequence tag _ => tag = some (Scalar.tagNamed name)
  | .mapping tag _ => tag = some (Scalar.tagNamed name)
  | .enclosing => false

/-- Whether a key is the one that merges mappings. -/
def isMergeKey (key : Node) : Bool :=
  isMarked "merge" "<<" key

/-- Whether a key is the one of the value that a mapping is taken for. It is a text as a key. -/
def isValueKey (key : Node) : Bool :=
  isMarked "value" "=" key

mutual

/-- The text of a node that is to be taken for a scalar. A mapping has that of a certain member. -/
def textOf? : Node → Option Text
  | .scalar _ text => some text
  | .mapping _ entries => memberText? entries
  | .sequence _ _ => none
  | .enclosing => none

/-- The text of the member that a mapping is taken for. -/
def memberText? : List (Node × Node) → Option Text
  | [] => none
  | (key, value) :: entries => if isValueKey key then textOf? value else memberText? entries

end

/-- Whether a node is a scalar in the document. -/
def isScalar : Node → Bool
  | .scalar _ _ => true
  | _ => false

/-- The scalar that a tag makes of a node. A moment is never made of a mapping. -/
def taggedScalar (tag : Text) (node : Node) : Except Fault Scalar :=
  match textOf? node with
  | some text =>
    if tag = Scalar.tagNamed "timestamp" && !isScalar node then .error .noMomentText
    else Scalar.ofTag tag text
  | none => .error .malformed

/-- The scalar that a node stands for, unless it stands for a collection. -/
def scalarOf? (node : Node) : Except Fault (Option Scalar) :=
  let ofTag (tag : Text) : Except Fault (Option Scalar) :=
    if isCollectionTag tag then .ok none else some <$> taggedScalar tag node
  match node with
  | .scalar (.tagged tag) _ => ofTag tag
  | .scalar kind content => some <$> Scalar.ofKind kind content
  | .sequence (some tag) _ => ofTag tag
  | .mapping (some tag) _ => ofTag tag
  | .sequence none _ => .ok none
  | .mapping none _ => .ok none
  | .enclosing => .ok none

/-- The scalar that a key stands for. Collections are no keys. -/
def keyOf (key : Node) : Except Fault Scalar :=
  if isValueKey key then
    taggedScalar (Scalar.tagNamed "str") key
  else
    match scalarOf? key with
    | .error fault => .error fault
    | .ok (some found) => .ok found
    | .ok none => .error .malformed

mutual

/-- Whether everything that is merged into a mapping consists of mappings. -/
def isMergeable : List (Node × Node) → Bool
  | [] => true
  | (key, value) :: entries => (!isMergeKey key || canMerge value) && isMergeable entries

/-- Whether a node can be merged into a mapping. -/
def canMerge : Node → Bool
  | .scalar _ _ => false
  | .mapping _ entries => isMergeable entries
  | .sequence _ items => canMergeAll items
  | .enclosing => true

/-- Whether all of some nodes are mappings that can be merged. -/
def canMergeAll : List Node → Bool
  | [] => true
  | .mapping _ entries :: items => isMergeable entries && canMergeAll items
  | .enclosing :: items => canMergeAll items
  | _ :: _ => false

end

/-- Whether a tag, if there is one, has one of some names. -/
def isNamed (names : List Text) (tag : Option Text) : Bool :=
  tag.all (names.map Scalar.tagNamed).contains

/-- The scalars that are keys of a mapping, each of them once. -/
def keysOf (members : List (Scalar × Value)) : Value :=
  match ofMembers members with
  | mapping known => sequence (known.map fun (key, _) => scalar key)
  | other => other

mutual

/-- The value of a node. A reference to a collection around it has none. -/
def ofNode (node : Node) : Checked Value :=
  match scalarOf? node with
  | .error fault => Checked.fault fault
  | .ok (some content) => .ok (scalar content)
  | .ok none =>
    match node with
    | .scalar _ _ => Checked.deeper (Checked.fault .malformed)
    | .enclosing => .ok (scalar .null)
    | .sequence tag items =>
      if isNamed ["seq"] tag then Checked.deeper (sequence <$> ofNodes items)
      else if isNamed ["omap", "pairs"] tag then Checked.deeper (sequence <$> ofPairs items)
      else Checked.deeper (Checked.fault .malformed)
    | .mapping tag entries =>
      if isNamed ["map"] tag then Checked.deeper (ofMembers <$> membersOf entries)
      else if isNamed ["set"] tag then Checked.deeper (keysOf <$> membersOf entries)
      else Checked.deeper (Checked.fault .malformed)

def ofNodes : List Node → Checked (List Value)
  | [] => .ok []
  | node :: nodes => Checked.cons (ofNode node) (ofNodes nodes)

/-- The pairs that mappings of one member each stand for. -/
def ofPairs : List Node → Checked (List Value)
  | [] => .ok []
  | .mapping _ [(key, value)] :: nodes =>
    let pair := Checked.both (ofNode key) (ofNode value)
    Checked.cons (pair.map fun (key, value) => sequence [key, value]) (ofPairs nodes)
  | _ :: _ => Checked.fault .malformed

/-- The members of a mapping, those that are merged into it first. -/
def membersOf (entries : List (Node × Node)) : Checked (List (Scalar × Value)) :=
  if isMergeable entries then
    Checked.append (mergedMembers entries) (ownMembers entries)
  else
    Checked.fault .malformed

/-- The members that are merged into a mapping. -/
def mergedMembers : List (Node × Node) → Checked (List (Scalar × Value))
  | [] => .ok []
  | (key, value) :: entries =>
    if isMergeKey key then Checked.append (membersToMerge value) (mergedMembers entries)
    else mergedMembers entries

/-- The members of a mapping itself. -/
def ownMembers : List (Node × Node) → Checked (List (Scalar × Value))
  | [] => .ok []
  | (key, value) :: entries =>
    if isMergeKey key then ownMembers entries
    else Checked.cons (Checked.both (Checked.here (keyOf key)) (ofNode value)) (ownMembers entries)

/-- The members of what is merged: a mapping, or several ones of which the first one counts most. -/
def membersToMerge : Node → Checked (List (Scalar × Value))
  | .scalar _ _ => .ok []
  | .mapping _ entries => Checked.append (mergedMembers entries) (ownMembers entries)
  | .sequence _ items => membersOfAll items
  | .enclosing => .ok []

/-- The members of several mappings, those of the last one first. -/
def membersOfAll : List Node → Checked (List (Scalar × Value))
  | [] => .ok []
  | .mapping _ entries :: nodes =>
    Checked.append (membersOfAll nodes)
      (Checked.append (mergedMembers entries) (ownMembers entries))
  | _ :: nodes => membersOfAll nodes

end

/-- The characters that may occur in a document. -/
def isAdmissible (character : Char) : Bool :=
  let codePoint := character.toNat
  ['\t', '\n', '\r', '\u0085'].contains character ||
    (0x20 ≤ codePoint && codePoint ≤ 0x7E) || (0xA0 ≤ codePoint && codePoint ≤ 0xD7FF) ||
    (0xE000 ≤ codePoint && codePoint ≤ 0xFFFD) || 0x10000 ≤ codePoint

/-- The value of a text whose lines end with line feeds; a text without a document has none. -/
def ofText? (text : Text) : Except Fault (Option Value) := do
  if text.all isAdmissible then
    (← Node.ofText? text).mapM fun node => (ofNode node).toExcept
  else
    .error .malformed

mutual

def toJson : Value → Json
  | scalar value => value.toJson
  | sequence items => .array (itemsToJson items)
  | mapping members => .ofMembers (membersToJson members)

def itemsToJson : List Value → List Json
  | [] => []
  | item :: items => item.toJson :: itemsToJson items

def membersToJson : List (Scalar × Value) → List (Text × Json)
  | [] => []
  | (key, value) :: members => (key.toName, value.toJson) :: membersToJson members

end

mutual

def ofJson : Json → Value
  | .null => scalar .null
  | .boolean value => scalar (.boolean value)
  | .integer value => scalar (.integer value)
  | .real value => scalar (.real value)
  | .string text => scalar (.text text)
  | .array items => sequence (itemsOfJson items)
  | .object members => mapping (membersOfJson members)

def itemsOfJson : List Json → List Value
  | [] => []
  | item :: items => ofJson item :: itemsOfJson items

/-- The members that those of a JSON object are. -/
def membersOfJson : List (Text × Json) → List (Scalar × Value)
  | [] => []
  | (name, value) :: members => (.text name, ofJson value) :: membersOfJson members

end

end Value

end Yaml

end BundleDecl
