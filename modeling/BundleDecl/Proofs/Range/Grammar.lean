import BundleDecl.Proofs.Version.Order
import BundleDecl.Text

/-!
# The grammar of ranges

A range is written as atoms with ampersands between them. An atom is a version number, one or two
version numbers between braces, or ranges with bars between them between curly braces. A tree of
these parts has a text and a meaning of its own, neither of which refers to the reader: the symbols
of the text, between which any spaces and tabs may stand, and the versions that are meant.

Only valid version numbers and bounds in order make a tree.
-/

namespace BundleDecl

/-- A valid version number. -/
abbrev Version.Valid := { version : Text // Version.isValid version = true }

namespace Range

mutual

/-- A range without ampersands. -/
inductive AtomTree where
  | base (bound : Version.Valid)
  | exact (bound : Version.Valid)
  | minimum (bound : Version.Valid)
  | maximum (bound : Version.Valid)
  | bounded (left right : Version.Valid) (leftIncluded rightIncluded : Bool)
      (below : Version.numbers left < Version.numbers right)
  | unsatisfiable
  | union (members : UnionTree)

/-- Atoms with ampersands between them. -/
inductive RangeTree where
  | last (atom : AtomTree)
  | more (atom : AtomTree) (following : RangeTree)

/-- Ranges with bars between them. -/
inductive UnionTree where
  | last (member : RangeTree)
  | more (member : RangeTree) (following : UnionTree)

end

mutual

/-- The symbols of an atom. -/
def AtomTree.symbols : AtomTree → List Text
  | .base bound => [bound]
  | .exact bound => [['['], bound, [']']]
  | .minimum bound => [['['], bound, [')']]
  | .maximum bound => [['('], bound, [']']]
  | .bounded left right leftIncluded rightIncluded _ =>
    [[if leftIncluded then '[' else '('], left, [','], right,
      [if rightIncluded then ']' else ')']]
  | .unsatisfiable => [['\x7b'], ['\x7d']]
  | .union members => ['\x7b'] :: (members.symbols ++ [['\x7d']])

/-- The symbols of a range. -/
def RangeTree.symbols : RangeTree → List Text
  | .last atom => atom.symbols
  | .more atom following => atom.symbols ++ ['&'] :: following.symbols

/-- The symbols of the members of a union. -/
def UnionTree.symbols : UnionTree → List Text
  | .last member => member.symbols
  | .more member following => member.symbols ++ ['|'] :: following.symbols

end

mutual

/-- Whether an atom means to include a version. -/
def AtomTree.Includes (version : Text) : AtomTree → Prop
  | .base bound => Version.numbers bound <+: Version.numbers version
  | .exact bound => version = bound
  | .minimum bound => Version.numbers bound < Version.numbers version ∨ version = bound
  | .maximum bound => Version.numbers version < Version.numbers bound ∨ version = bound
  | .bounded left right leftIncluded rightIncluded _ =>
    (Version.numbers left < Version.numbers version ∨ leftIncluded = true ∧ version = left) ∧
      (Version.numbers version < Version.numbers right ∨ rightIncluded = true ∧ version = right)
  | .unsatisfiable => False
  | .union members => members.Includes version

/-- Whether all atoms of a range mean to include a version. -/
def RangeTree.Includes (version : Text) : RangeTree → Prop
  | .last atom => atom.Includes version
  | .more atom following => atom.Includes version ∧ following.Includes version

/-- Whether some member of a union means to include a version. -/
def UnionTree.Includes (version : Text) : UnionTree → Prop
  | .last member => member.Includes version
  | .more member following => member.Includes version ∨ following.Includes version

end

/-- A text starts with symbols, each of which may have blanks before it, and goes on as given. -/
def Spaced : List Text → Text → Text → Prop
  | [], text, rest => text = rest
  | symbol :: symbols, text, rest =>
    ∃ blanks following, Text.isBlank blanks = true ∧ text = blanks ++ (symbol ++ following) ∧
      Spaced symbols following rest

/-- A text consists of the symbols of a range and of blanks before, between and after them. -/
def Derives (text : Text) (tree : RangeTree) : Prop :=
  ∃ blanks, Text.isBlank blanks = true ∧ Spaced tree.symbols text blanks

theorem spaced_nil (rest : Text) : Spaced [] rest rest :=
  rfl

theorem spaced_append_iff {before after : List Text} {text rest : Text} :
    Spaced (before ++ after) text rest ↔
      ∃ mid, Spaced before text mid ∧ Spaced after mid rest := by
  induction before generalizing text with
  | nil => simp [Spaced]
  | cons symbol before ih =>
      simp only [List.cons_append, Spaced, ih]
      constructor
      · rintro ⟨blanks, following, blank, same, mid, first, second⟩
        exact ⟨mid, ⟨blanks, following, blank, same, first⟩, second⟩
      · rintro ⟨mid, ⟨blanks, following, blank, same, first⟩, second⟩
        exact ⟨blanks, following, blank, same, mid, first, second⟩

end Range

end BundleDecl
