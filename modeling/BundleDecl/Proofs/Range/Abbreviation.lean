import BundleDecl.Proofs.Range.Acceptance
import Mathlib.Data.List.Chain

/-!
# Abbreviated version numbers

A range may be written with the word `this` in the places of one version. The word may stand for the
whole version number of a place, or there may be a run of digits, dots and such words that make the
number of the place together. Main statement: the texts of the first kind are those of the second
kind in which the word never stands next to a digit, a dot or another such word.

In the symbols of a range no two numbers follow each other. So what stands next to a number is a
blank or a mark, and such a character ends a run.
-/

namespace BundleDecl

namespace Range

/-- The word that stands for a version. -/
def thisWord : Text := "this"

/-- A text starts with symbols in some way of writing, each of which may have blanks before it, and
goes on as given. -/
def SpacedAs (Writes : Text → Text → Prop) : List Text → Text → Text → Prop
  | [], text, rest => text = rest
  | symbol :: symbols, text, rest =>
    ∃ blanks word following, Text.isBlank blanks = true ∧ Writes word symbol ∧
      text = blanks ++ (word ++ following) ∧ SpacedAs Writes symbols following rest

/-- A text consists of the symbols of a range in some way of writing and of blanks before, between
and after them. -/
def DerivesAs (Writes : Text → Text → Prop) (text : Text) (tree : RangeTree) : Prop :=
  ∃ blanks, Text.isBlank blanks = true ∧ SpacedAs Writes tree.symbols text blanks

/-- A symbol is written as it is, and the version may be written as the word. -/
def Stands (version word symbol : Text) : Prop :=
  word = symbol ∨ word = thisWord ∧ symbol = version

/-- Digits, dots and words, and the digits and dots that they make if a version is put for every
word. -/
inductive Abbreviates (version : Text) : Text → Text → Prop where
  | nil : Abbreviates version [] []
  | character {character : Char} {word number : Text} : isNumberCharacter character = true →
      Abbreviates version word number →
      Abbreviates version (character :: word) (character :: number)
  | this {word number : Text} : Abbreviates version word number →
      Abbreviates version (thisWord ++ word) (version ++ number)

/-- A symbol is written as it is, and a number also as a run of digits, dots and words. -/
def Joins (version word symbol : Text) : Prop :=
  word = symbol ∨ Abbreviates version word symbol

/-- A digit, a dot or the word. -/
def IsPiece (piece : Text) : Prop :=
  piece = thisWord ∨ ∃ character, isNumberCharacter character = true ∧ piece = [character]

/-- The word stands next to a digit, a dot or another such word. -/
def Glued (text : Text) : Prop :=
  ∃ piece, IsPiece piece ∧ (thisWord ++ piece <:+: text ∨ piece ++ thisWord <:+: text)

/-! ## The order of symbols -/

/-- A character that is a symbol by itself. -/
def isMark (character : Char) : Bool :=
  ['[', ']', '(', ')', ',', '&', '|', '\x7b', '\x7d'].contains character

/-- A mark comes first, if anything does. -/
def Marked (symbols : List Text) : Prop :=
  ∀ symbol ∈ symbols.head?, ∃ character, isMark character = true ∧ symbol = [character]

/-- Marks and numbers, none of which follows a number. -/
inductive Punctuated : List Text → Prop where
  | nil : Punctuated []
  | mark {character : Char} {symbols : List Text} : isMark character = true →
      Punctuated symbols → Punctuated ([character] :: symbols)
  | number {number : Text} {symbols : List Text} :
      (∀ character ∈ number, isNumberCharacter character = true) → Marked symbols →
      Punctuated symbols → Punctuated (number :: symbols)

theorem marked_nil : Marked [] := by
  simp [Marked]

theorem marked_cons {character : Char} {symbols : List Text} (mark : isMark character = true) :
    Marked ([character] :: symbols) := by
  simpa [Marked] using mark

theorem punctuated_bound (bound : Version.Valid) {symbols : List Text} (marked : Marked symbols)
    (punctuated : Punctuated symbols) : Punctuated (bound.1 :: symbols) :=
  .number (fun _ => isNumberCharacter_of_isValid bound.2) marked punctuated

theorem punctuated_single (bound : Version.Valid) {opening closing : Char} {symbols : List Text}
    (opens : isMark opening = true) (closes : isMark closing = true)
    (punctuated : Punctuated symbols) :
    Punctuated ([opening] :: bound.1 :: [closing] :: symbols) :=
  .mark opens (punctuated_bound bound (marked_cons closes) (.mark closes punctuated))

mutual

theorem AtomTree.punctuated : ∀ (tree : AtomTree) {symbols : List Text}, Marked symbols →
    Punctuated symbols → Punctuated (tree.symbols ++ symbols)
  | .base bound, _, marked, punctuated => punctuated_bound bound marked punctuated
  | .exact bound, _, _, punctuated => punctuated_single bound rfl rfl punctuated
  | .minimum bound, _, _, punctuated => punctuated_single bound rfl rfl punctuated
  | .maximum bound, _, _, punctuated => punctuated_single bound rfl rfl punctuated
  | .bounded left right leftIncluded rightIncluded _, _, _, punctuated => by
      have opens : isMark (if leftIncluded then '[' else '(') = true := by
        cases leftIncluded <;> rfl
      have closes : isMark (if rightIncluded then ']' else ')') = true := by
        cases rightIncluded <;> rfl
      exact .mark opens (punctuated_bound left (marked_cons rfl)
        (punctuated_single right rfl closes punctuated))
  | .unsatisfiable, _, _, punctuated => .mark rfl (.mark rfl punctuated)
  | .union members, symbols, _, punctuated => by
      rw [AtomTree.symbols, List.cons_append, List.append_assoc]
      exact .mark rfl (members.punctuated (marked_cons rfl) (.mark rfl punctuated))

theorem RangeTree.punctuated : ∀ (tree : RangeTree) {symbols : List Text}, Marked symbols →
    Punctuated symbols → Punctuated (tree.symbols ++ symbols)
  | .last atom, _, marked, punctuated => atom.punctuated marked punctuated
  | .more atom following, _, marked, punctuated => by
      rw [RangeTree.symbols, List.append_assoc]
      exact atom.punctuated (marked_cons rfl) (.mark rfl (following.punctuated marked punctuated))

theorem UnionTree.punctuated : ∀ (tree : UnionTree) {symbols : List Text}, Marked symbols →
    Punctuated symbols → Punctuated (tree.symbols ++ symbols)
  | .last member, _, marked, punctuated => member.punctuated marked punctuated
  | .more member following, _, marked, punctuated => by
      rw [UnionTree.symbols, List.append_assoc]
      exact member.punctuated (marked_cons rfl) (.mark rfl (following.punctuated marked punctuated))

end

/-- The symbols of a range are marks and numbers, none of which follows a number. -/
theorem RangeTree.punctuated_symbols (tree : RangeTree) : Punctuated tree.symbols := by
  have punctuated := tree.punctuated marked_nil .nil
  rwa [List.append_nil] at punctuated

/-! ## Two ways of writing -/

theorem SpacedAs.mono {Writes Others : Text → Text → Prop} {symbols : List Text}
    {text rest : Text} (spaced : SpacedAs Writes symbols text rest)
    (implies : ∀ word symbol, Writes word symbol → Others word symbol) :
    SpacedAs Others symbols text rest := by
  induction symbols generalizing text with
  | nil => exact spaced
  | cons symbol symbols ih =>
      rcases spaced with ⟨blanks, word, following, blank, writes, same, spaced⟩
      exact ⟨blanks, word, following, blank, implies word symbol writes, same, ih spaced⟩

theorem Stands.joins {version word symbol : Text} (stands : Stands version word symbol) :
    Joins version word symbol := by
  rcases stands with same | ⟨rfl, rfl⟩
  · exact .inl same
  · have alone : Abbreviates symbol (thisWord ++ []) (symbol ++ []) := .this .nil
    rw [List.append_nil, List.append_nil] at alone
    exact .inr alone

theorem not_glued_of_part {text part : Text} (apart : ¬Glued text) (contained : part <:+: text) :
    ¬Glued part := by
  rintro ⟨piece, isPiece, within⟩
  exact apart ⟨piece, isPiece, within.imp (·.trans contained) (·.trans contained)⟩

/-- A run in which the word is next to nothing is free of it or the word alone. -/
theorem Abbreviates.stands {version word number : Text}
    (abbreviates : Abbreviates version word number) (apart : ¬Glued word) :
    Stands version word number := by
  induction abbreviates with
  | nil => exact .inl rfl
  | @character character word number digit abbreviates ih =>
      rcases ih (not_glued_of_part apart (List.suffix_cons _ _).isInfix) with rfl | ⟨rfl, rfl⟩
      · exact .inl rfl
      · refine absurd ⟨[character], .inr ⟨character, digit, rfl⟩, .inr ?_⟩ apart
        exact List.infix_rfl
  | @this word number abbreviates ih =>
      cases abbreviates with
      | nil => exact .inr ⟨List.append_nil _, List.append_nil _⟩
      | @character character word number digit abbreviates =>
          refine absurd ⟨[character], .inr ⟨character, digit, rfl⟩, .inl ?_⟩ apart
          exact ⟨[], word, by simp⟩
      | @this word number abbreviates =>
          refine absurd ⟨thisWord, .inl rfl, .inl ?_⟩ apart
          exact ⟨[], word, by simp⟩

theorem SpacedAs.stands {version : Text} {symbols : List Text} {text rest : Text}
    (spaced : SpacedAs (Joins version) symbols text rest) (apart : ¬Glued text) :
    SpacedAs (Stands version) symbols text rest := by
  induction symbols generalizing text with
  | nil => exact spaced
  | cons symbol symbols ih =>
      rcases spaced with ⟨blanks, word, following, blank, joins, rfl, spaced⟩
      have wordApart : ¬Glued word := by
        apply not_glued_of_part apart
        exact ⟨blanks, following, List.append_assoc _ _ _⟩
      have followingApart : ¬Glued following := by
        apply not_glued_of_part apart
        exact ((List.suffix_append _ _).trans (List.suffix_append _ _)).isInfix
      refine ⟨blanks, word, following, blank, ?_, rfl, ih spaced followingApart⟩
      rcases joins with same | abbreviates
      · exact .inl same
      · exact abbreviates.stands wordApart

/-! ## Neighbours -/

/-- Two characters between which the word is not next to a piece. -/
def Apart (left right : Char) : Prop :=
  (left = 's' → isNumberCharacter right = false ∧ right ≠ 't') ∧
    (isNumberCharacter left = true → right ≠ 't')

instance : DecidableRel Apart := fun _ _ => inferInstanceAs (Decidable (_ ∧ _))

/-- A character that belongs to no piece. -/
def Clear (character : Char) : Prop :=
  isNumberCharacter character = false ∧ character ≠ 's' ∧ character ≠ 't'

theorem clear_of_isMark {character : Char} (mark : isMark character = true) : Clear character := by
  simp only [isMark, List.contains_eq_mem, decide_eq_true_eq, List.mem_cons, List.not_mem_nil,
    or_false] at mark
  rcases mark with rfl | rfl | rfl | rfl | rfl | rfl | rfl | rfl | rfl <;>
    exact ⟨rfl, by decide, by decide⟩

theorem clear_of_isIndentCharacter {character : Char}
    (indent : Text.isIndentCharacter character = true) : Clear character := by
  refine ⟨isNumberCharacter_of_isIndentCharacter indent, ?_, ?_⟩
  · rintro rfl
    exact absurd indent (by decide)
  · rintro rfl
    exact absurd indent (by decide)

theorem clear_of_isBlank {blanks : Text} (blank : Text.isBlank blanks = true) :
    ∀ character ∈ blanks, Clear character := by
  rw [Text.isBlank, List.all_eq_true] at blank
  exact fun character member => clear_of_isIndentCharacter (blank character member)

theorem Clear.apart {left right : Char} (clear : Clear left ∨ Clear right) : Apart left right := by
  rcases clear with ⟨noNumber, noEnd, -⟩ | ⟨noNumber, -, noStart⟩
  · exact ⟨fun isEnd => absurd isEnd noEnd, fun number => absurd number (by simp [noNumber])⟩
  · exact ⟨fun _ => ⟨noNumber, noStart⟩, fun _ => noStart⟩

theorem not_glued_of_isChain {text : Text} (chain : text.IsChain Apart) : ¬Glued text := by
  rintro ⟨piece, rfl | ⟨character, number, rfl⟩, within⟩
  · rw [or_self] at within
    have chain := List.IsChain.infix chain within
    exact absurd chain (by decide)
  · rcases within with after | before
    · have chain := List.IsChain.infix chain after
      have apart : Apart 's' character :=
        (List.isChain_append.1 chain).2.2 's' rfl character rfl
      simp [(apart.1 rfl).1] at number
    · have chain := List.IsChain.infix chain before
      have apart : Apart character 't' :=
        (List.isChain_append.1 chain).2.2 character rfl 't' rfl
      exact absurd rfl (apart.2 number)

theorem isChain_of_clear {text : Text} (clear : ∀ character ∈ text, Clear character) :
    text.IsChain Apart := by
  apply List.Pairwise.isChain
  apply List.pairwise_of_forall_mem_list
  intro left member right _
  exact Clear.apart (.inl (clear left member))

theorem isChain_of_number {number : Text}
    (numeric : ∀ character ∈ number, isNumberCharacter character = true) :
    number.IsChain Apart := by
  apply List.Pairwise.isChain
  apply List.pairwise_of_forall_mem_list
  intro left leftMember right rightMember
  have leftNumber := numeric left leftMember
  have rightNumber := numeric right rightMember
  constructor
  · rintro rfl
    exact absurd leftNumber (by decide)
  · rintro - rfl
    exact absurd rightNumber (by decide)

theorem isChain_clear_append {before after : Text} (clear : ∀ character ∈ before, Clear character)
    (chain : after.IsChain Apart) : (before ++ after).IsChain Apart := by
  refine List.isChain_append.2 ⟨isChain_of_clear clear, chain, ?_⟩
  intro left last right _
  exact Clear.apart (.inl (clear left (List.mem_of_mem_getLast? last)))

variable {version : Text} (numeric : ∀ character ∈ version, isNumberCharacter character = true)

include numeric

/-- A mark is written as itself only. -/
theorem Stands.eq_mark {word : Text} {character : Char}
    (stands : Stands version word [character]) (mark : isMark character = true) :
    word = [character] := by
  rcases stands with same | ⟨-, rfl⟩
  · exact same
  · have number := numeric character (List.mem_singleton_self character)
    simp [(clear_of_isMark mark).1] at number

/-- The word is next to no piece if it only stands for whole numbers. What follows a number starts
with a clear character, and the induction says so of the texts that start with a mark. -/
theorem SpacedAs.isChain {symbols : List Text} {text rest : Text} (punctuated : Punctuated symbols)
    (spaced : SpacedAs (Stands version) symbols text rest)
    (clear : ∀ character ∈ rest, Clear character) :
    text.IsChain Apart ∧ (Marked symbols → ∀ character ∈ text.head?, Clear character) := by
  induction punctuated generalizing text with
  | nil =>
      rcases spaced with rfl
      exact ⟨isChain_of_clear clear, fun _ first head => clear first (List.mem_of_mem_head? head)⟩
  | @mark character symbols mark punctuated ih =>
      rcases spaced with ⟨blanks, word, following, blank, stands, rfl, spaced⟩
      rcases stands.eq_mark numeric mark with rfl
      have before : ∀ other ∈ blanks ++ [character], Clear other := by
        rw [List.forall_mem_append, List.forall_mem_singleton]
        exact ⟨clear_of_isBlank blank, clear_of_isMark mark⟩
      rw [← List.append_assoc]
      refine ⟨isChain_clear_append before (ih spaced).1, ?_⟩
      intro _ first head
      rw [List.head?_append_of_ne_nil _ (by simp)] at head
      exact before first (List.mem_of_mem_head? head)
  | @number number symbols digits marked punctuated ih =>
      rcases spaced with ⟨blanks, word, following, blank, stands, rfl, spaced⟩
      rcases ih spaced with ⟨chain, head⟩
      have wordChain : word.IsChain Apart := by
        rcases stands with rfl | ⟨rfl, -⟩
        · exact isChain_of_number digits
        · decide
      constructor
      · apply isChain_clear_append (clear_of_isBlank blank)
        refine List.isChain_append.2 ⟨wordChain, chain, ?_⟩
        intro left _ right first
        exact Clear.apart (.inr (head marked right first))
      · intro markedNumber
        rcases markedNumber number rfl with ⟨character, mark, rfl⟩
        have digit := digits character (List.mem_singleton_self character)
        simp [(clear_of_isMark mark).1] at digit

/-- The word stands for whole numbers only, exactly if it never stands next to a piece. -/
theorem derivesAs_stands_iff {text : Text} {tree : RangeTree} :
    DerivesAs (Stands version) text tree ↔ DerivesAs (Joins version) text tree ∧ ¬Glued text := by
  constructor
  · rintro ⟨rest, blank, spaced⟩
    refine ⟨⟨rest, blank, spaced.mono fun _ _ => Stands.joins⟩, ?_⟩
    have chain := spaced.isChain numeric tree.punctuated_symbols (clear_of_isBlank blank)
    exact not_glued_of_isChain chain.1
  · rintro ⟨⟨rest, blank, spaced⟩, apart⟩
    exact ⟨rest, blank, spaced.stands apart⟩

end Range

end BundleDecl
