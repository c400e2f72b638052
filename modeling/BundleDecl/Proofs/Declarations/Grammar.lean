import BundleDecl.Declarations.Reader

/-!
# The grammar of declarations

Which sequences of non-blank lines are declarations, said without reference to how they are read:
declarations are blocks one after the other, a block is the line of a target and the lines of its
dependencies, a dependency is a kind line and the lines of its metadata entries, and an entry is a
line with a name and the lines of its value. Every rule also says which value its lines stand for.

Only two things depend on their neighbours. All kind lines of a block share one indentation, and all
metadata lines of a dependency share one that properly continues it.
-/

namespace BundleDecl

/-- The lines of some items one after the other. -/
inductive Sequence {Item : Type} (piece : List Text → Item → Prop) :
    List Text → List Item → Prop where
  | nil : Sequence piece [] []
  | cons {lines rest : List Text} {item : Item} {items : List Item} :
      piece lines item → Sequence piece rest items → Sequence piece (lines ++ rest) (item :: items)

namespace MetadataValue

/-- The last quote of a line is followed by blanks only; the text before it is given. -/
def Closes (line before : Text) : Prop :=
  ∃ blanks, Text.isBlank blanks = true ∧ line = before ++ '"' :: blanks

/-- The lines of a quoted value, the first one from behind the opening quote on. -/
inductive QuotedLines : List Text → Text → Prop where
  | last {line value : Text} : Closes line value → QuotedLines [line] value
  | more {line value : Text} {lines : List Text} :
      (∀ before, ¬Closes line before) → QuotedLines lines value →
      QuotedLines (line :: lines) (openLine line ++ '\n' :: value)

/-- The lines of a value, the first one from behind the colon on. -/
inductive ValueLines : List Text → Text → Prop where
  | plain {tail : Text} :
      (∀ blanks line, Text.isBlank blanks = true → tail ≠ blanks ++ '"' :: line) →
      ValueLines [tail] (Text.strip tail)
  | quoted {blanks line value : Text} {lines : List Text} :
      Text.isBlank blanks = true → QuotedLines (line :: lines) value →
      ValueLines ((blanks ++ '"' :: line) :: lines) value

end MetadataValue

namespace Declarations

/-- A metadata line of the given indentation: its name, which may be used, and what follows the
first colon. -/
structure MetadataLine (indentation line name tail : Text) : Prop where
  indented : Text.indentation line = indentation
  split : ∃ before, line = before ++ ':' :: tail ∧ ':' ∉ before ∧ name = Text.strip before
  isName : Dependency.isMetadataName name = true
  notReserved : Dependency.isReserved name = false

/-- The lines of a metadata entry of the given indentation. -/
inductive EntryLines (indentation : Text) : List Text → Text × Text → Prop where
  | intro {line name tail value : Text} {lines : List Text} :
      MetadataLine indentation line name tail → MetadataValue.ValueLines (tail :: lines) value →
      EntryLines indentation (line :: lines) (name, value)

/-- A kind line of the given indentation: its kinds and its range. The kinds are the non-empty
pieces before the first colon, of which there is at least one, and all of them may be used. -/
structure KindLine (this : Option Text) (indentation line : Text) (kinds : List Text)
    (range : Range) : Prop where
  indented : Text.indentation line = indentation
  split : ∃ before after, line = indentation ++ (before ++ ':' :: after) ∧ ':' ∉ before ∧
    kinds = kindsOf before ∧ Range.ofText (rangeText this after) = .ok range
  nonempty : kinds ≠ []
  isKind : ∀ kind ∈ kinds, Dependency.isKind kind = true
  notReserved : ∀ kind ∈ kinds, Dependency.isReserved kind = false

/-- One indentation properly continues another one. -/
def Deepens (indentation deeper : Text) : Prop :=
  indentation <+: deeper ∧ deeper ≠ indentation

/-- The lines of a dependency whose kind line has the given indentation. -/
inductive DependencyLines (this : Option Text) (indentation : Text) :
    List Text → Dependency → Prop where
  | intro {line deeper : Text} {lines : List Text} {kinds : List Text} {range : Range}
      {metadata : List (Text × Text)} :
      KindLine this indentation line kinds range → Deepens indentation deeper →
      Sequence (EntryLines deeper) lines metadata → (metadata.map Prod.fst).Nodup →
      DependencyLines this indentation (line :: lines) ⟨SortedSet.ofList kinds, range, metadata⟩

/-- The line of a target. -/
structure TargetLine (line : Text) (target : Identifier) : Prop where
  flush : Text.indentation line = []
  named : Identifier.ofText (Text.trimEnd Text.isIndentCharacter line) = .ok target
  unversioned : target.version = none

/-- The lines of a target with its dependencies, of which there is at least one. -/
inductive TargetLines (declaring : Option Identifier) :
    List Text → Identifier × DependencyList → Prop where
  | intro {line indentation : Text} {target : Identifier} {lines : List Text}
      {dependencies : List Dependency} :
      TargetLine line target → indentation ≠ [] → dependencies ≠ [] →
      Sequence (DependencyLines (thisVersion declaring target) indentation) lines dependencies →
      TargetLines declaring (line :: lines) (target, .ofList dependencies)

/-- The lines of declarations, no target of which is declared twice. -/
structure Written (declaring : Option Identifier) (lines : List Text)
    (entries : List (Identifier × DependencyList)) : Prop where
  blocks : Sequence (TargetLines declaring) lines entries
  distinct : (entries.map Prod.fst).Nodup

end Declarations

end BundleDecl
