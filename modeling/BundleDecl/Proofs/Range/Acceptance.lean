import BundleDecl.Proofs.Failure
import BundleDecl.Proofs.Range.Grammar
import BundleDecl.Proofs.Range.Includes
import BundleDecl.Proofs.Range.RoundTrip

/-!
# Acceptance of range texts

The reader accepts exactly the texts that the grammar derives, and the range that it makes includes
exactly the versions that the derivation means, although unions and intersections are dissolved,
sorted and freed of repetitions on the way. Every other text is refused as malformed.

Each tree stands for the range that the reader makes of it. The inductions follow the trees in one
direction and the reader's rules in the other one.
-/

namespace BundleDecl

namespace Range

mutual

/-- The range that is made of an atom. -/
def AtomTree.range : AtomTree → Range
  | .base bound => base bound
  | .exact bound => exact bound
  | .minimum bound => minimum bound
  | .maximum bound => maximum bound
  | .bounded left right leftIncluded rightIncluded _ =>
    bounded left right leftIncluded rightIncluded
  | .unsatisfiable => unsatisfiable
  | .union members => unionOf members.ranges

/-- The ranges that are made of the atoms of a range. -/
def RangeTree.ranges : RangeTree → List Range
  | .last atom => [atom.range]
  | .more atom following => atom.range :: following.ranges

/-- The ranges that are made of the members of a union. -/
def UnionTree.ranges : UnionTree → List Range
  | .last member => [intersectionOf member.ranges]
  | .more member following => intersectionOf member.ranges :: following.ranges

end

/-! ## From trees to rules -/

theorem isNumberCharacter_of_isIndentCharacter {character : Char}
    (indent : Text.isIndentCharacter character = true) : isNumberCharacter character = false := by
  simp only [Text.isIndentCharacter, Bool.or_eq_true, decide_eq_true_eq] at indent
  rcases indent with rfl | rfl
  · rfl
  · rfl

/-- A version number ends where only blanks follow. -/
theorem ends_of_isBlank {rest : Text} (blank : Text.isBlank rest = true) : Ends rest := by
  rcases rest with _ | ⟨first, rest⟩
  · exact ends_nil
  · simp only [Text.isBlank, List.all_cons, Bool.and_eq_true] at blank
    exact ends_cons (isNumberCharacter_of_isIndentCharacter blank.1)

/-- A version number ends where blanks and another symbol follow. -/
theorem ends_of_spaced {character : Char} {symbols : List Text} {text rest : Text}
    (spaced : Spaced ([character] :: symbols) text rest)
    (other : isNumberCharacter character = false) : Ends text := by
  rcases spaced with ⟨blanks, following, blank, rfl, -⟩
  rcases blanks with _ | ⟨first, blanks⟩
  · exact ends_cons other
  · simp only [Text.isBlank, List.all_cons, Bool.and_eq_true] at blank
    exact ends_cons (isNumberCharacter_of_isIndentCharacter blank.1)

theorem exists_symbol_of_spaced {character : Char} {symbols : List Text} {text rest : Text}
    (spaced : Spaced ([character] :: symbols) text rest)
    (visible : Text.isIndentCharacter character = false) :
    ∃ mid, Symbol character text mid ∧ Spaced symbols mid rest := by
  rcases spaced with ⟨blanks, following, blank, rfl, spaced⟩
  exact ⟨following, symbol_append blanks blank visible, spaced⟩

theorem exists_number_of_spaced {bound : Version.Valid} {symbols : List Text} {text rest : Text}
    (spaced : Spaced (bound.1 :: symbols) text rest)
    (ends : ∀ mid, Spaced symbols mid rest → Ends mid) :
    ∃ mid, Number text bound mid ∧ Spaced symbols mid rest := by
  rcases spaced with ⟨blanks, following, blank, rfl, spaced⟩
  exact ⟨following, number_append blanks blank bound.2 (ends following spaced), spaced⟩

/-- A version number and the symbol after it. -/
theorem exists_number_symbol_of_spaced {bound : Version.Valid} {character : Char}
    {symbols : List Text} {text rest : Text}
    (spaced : Spaced (bound.1 :: [character] :: symbols) text rest)
    (other : isNumberCharacter character = false)
    (visible : Text.isIndentCharacter character = false) :
    ∃ mid next, Number text bound mid ∧ Symbol character mid next ∧
      Spaced symbols next rest := by
  rcases exists_number_of_spaced spaced (fun mid following => ends_of_spaced following other) with
    ⟨mid, number, spaced⟩
  rcases exists_symbol_of_spaced spaced visible with ⟨next, symbol, spaced⟩
  exact ⟨mid, next, number, symbol, spaced⟩

/-- One bound between braces is read as the range that the braces make. -/
theorem atom_of_spaced_single {opening closing : Char} {bound : Version.Valid} {range : Range}
    {text rest : Text} (opens : opening = '(' ∨ opening = '[')
    (closes : closing = ')' ∨ closing = ']')
    (spaced : Spaced [[opening], bound, [closing]] text rest)
    (braced : ∀ {text mid rest : Text}, Number text bound mid → Symbol closing mid rest →
      Braced opening text range rest) : Atom text range rest := by
  rcases exists_symbol_of_spaced spaced (isIndentCharacter_of_opens opens) with
    ⟨next, symbol, spaced⟩
  rcases exists_number_symbol_of_spaced spaced (isNumberCharacter_of_closes closes)
    (isIndentCharacter_of_closes closes) with ⟨mid, rest, number, close, rfl⟩
  exact .braced symbol (braced number close)

theorem atom_of_spaced_bounded {left right : Version.Valid} {opening closing : Char}
    {text rest : Text} (opens : opening = '(' ∨ opening = '[')
    (closes : closing = ')' ∨ closing = ']')
    (below : Version.numbers left < Version.numbers right)
    (spaced : Spaced [[opening], left, [','], right, [closing]] text rest) :
    Atom text (bounded left right (opening = '[') (closing = ']')) rest := by
  rcases exists_symbol_of_spaced spaced (isIndentCharacter_of_opens opens) with
    ⟨next, symbol, spaced⟩
  rcases exists_number_symbol_of_spaced spaced (by decide) (by decide) with
    ⟨afterLeft, second, leftNumber, comma, spaced⟩
  rcases exists_number_symbol_of_spaced spaced (isNumberCharacter_of_closes closes)
    (isIndentCharacter_of_closes closes) with ⟨afterRight, rest, rightNumber, close, rfl⟩
  exact .braced symbol (.bounded opens closes leftNumber comma rightNumber close
    ((Version.isBelow_iff left.2 right.2).2 below))

theorem not_symbol_of_spaced {character other : Char} {symbols : List Text} {text rest : Text}
    (spaced : Spaced ([character] :: symbols) text rest)
    (visible : Text.isIndentCharacter character = false) (differs : character ≠ other)
    (after : Text) : ¬Symbol other text after := by
  intro symbol
  rcases exists_symbol_of_spaced spaced visible with ⟨mid, known, -⟩
  exact differs (known.inj symbol).1

mutual

/-- The text of an atom is read as its range. -/
theorem AtomTree.atom : ∀ (tree : AtomTree) {text rest : Text},
    Spaced tree.symbols text rest → Ends rest → Atom text tree.range rest
  | .base bound, text, rest, spaced, ends => by
      rcases exists_number_of_spaced spaced (by rintro mid rfl; exact ends) with
        ⟨mid, number, rfl⟩
      exact .base number
  | .exact bound, text, rest, spaced, _ =>
      atom_of_spaced_single (Or.inr rfl) (Or.inr rfl) spaced .exact
  | .minimum bound, text, rest, spaced, _ =>
      atom_of_spaced_single (Or.inr rfl) (Or.inl rfl) spaced .minimum
  | .maximum bound, text, rest, spaced, _ =>
      atom_of_spaced_single (Or.inl rfl) (Or.inr rfl) spaced .maximum
  | .bounded left right leftIncluded rightIncluded below, text, rest, spaced, _ => by
      cases leftIncluded <;> cases rightIncluded
      · exact atom_of_spaced_bounded (Or.inl rfl) (Or.inl rfl) below spaced
      · exact atom_of_spaced_bounded (Or.inl rfl) (Or.inr rfl) below spaced
      · exact atom_of_spaced_bounded (Or.inr rfl) (Or.inl rfl) below spaced
      · exact atom_of_spaced_bounded (Or.inr rfl) (Or.inr rfl) below spaced
  | .unsatisfiable, text, rest, spaced, _ => by
      rcases exists_symbol_of_spaced spaced (by decide) with ⟨next, opening, spaced⟩
      rcases exists_symbol_of_spaced spaced (by decide) with ⟨after, closing, rfl⟩
      exact .unsatisfiable opening closing
  | .union members, text, rest, spaced, _ => by
      rcases exists_symbol_of_spaced spaced (by decide) with ⟨next, opening, spaced⟩
      exact .union opening (members.alternatives spaced)

/-- The text of a range is read as its atoms. -/
theorem RangeTree.derivation : ∀ (tree : RangeTree) {text rest : Text},
    Spaced tree.symbols text rest → Ends rest → (∀ after, ¬Symbol '&' rest after) →
      Factors text tree.ranges rest
  | .last atom, text, rest, spaced, ends, noAmpersand => .last (atom.atom spaced ends) noAmpersand
  | .more atom following, text, rest, spaced, ends, noAmpersand => by
      -- The ampersand behind the atom ends the version number that the atom may end with.
      rcases spaced_append_iff.1 spaced with ⟨mid, first, spaced⟩
      have midEnds := ends_of_spaced spaced (by decide)
      rcases exists_symbol_of_spaced spaced (by decide) with ⟨next, ampersand, spaced⟩
      exact .more (atom.atom first midEnds) ampersand
        (following.derivation spaced ends noAmpersand)

/-- The text of the members of a union is read as these members. -/
theorem UnionTree.alternatives : ∀ (tree : UnionTree) {text rest : Text},
    Spaced (tree.symbols ++ [['\x7d']]) text rest → Alternatives text tree.ranges rest
  | .last member, text, rest, spaced => by
      rcases spaced_append_iff.1 spaced with ⟨mid, first, spaced⟩
      have midEnds := ends_of_spaced spaced (by decide)
      have noAmpersand : ∀ after, ¬Symbol '&' mid after :=
        not_symbol_of_spaced spaced (by decide) (by decide)
      rcases exists_symbol_of_spaced spaced (by decide) with ⟨after, closing, rfl⟩
      exact .last (member.derivation first midEnds noAmpersand) closing
  | .more member following, text, rest, spaced => by
      rw [UnionTree.symbols, List.append_assoc] at spaced
      rcases spaced_append_iff.1 spaced with ⟨mid, first, spaced⟩
      have midEnds := ends_of_spaced spaced (by decide)
      have noAmpersand : ∀ after, ¬Symbol '&' mid after :=
        not_symbol_of_spaced spaced (by decide) (by decide)
      rcases exists_symbol_of_spaced spaced (by decide) with ⟨next, bar, spaced⟩
      exact .more (member.derivation first midEnds noAmpersand) bar (following.alternatives spaced)

end

/-! ## From rules to trees -/

theorem Symbol.spaced {character : Char} {text mid rest : Text} {symbols : List Text}
    (symbol : Symbol character text mid) (following : Spaced symbols mid rest) :
    Spaced ([character] :: symbols) text rest := by
  refine ⟨text.takeWhile Text.isIndentCharacter, mid, List.all_takeWhile, ?_, following⟩
  have whole : text.takeWhile Text.isIndentCharacter ++ skipBlanks text = text :=
    List.takeWhile_append_dropWhile
  rw [symbol] at whole
  exact whole.symm

theorem Number.spaced {text version mid rest : Text} {symbols : List Text}
    (number : Number text version mid) (following : Spaced symbols mid rest) :
    Spaced (version :: symbols) text rest := by
  refine ⟨text.takeWhile Text.isIndentCharacter, mid, List.all_takeWhile, ?_, following⟩
  have whole : text.takeWhile Text.isIndentCharacter ++ skipBlanks text = text :=
    List.takeWhile_append_dropWhile
  have run := List.takeWhile_append_dropWhile (p := isNumberCharacter) (l := skipBlanks text)
  rcases Prod.mk.inj number.1 with ⟨digits, after⟩
  rw [digits, after] at run
  rw [run, whole]

theorem Braced.exists_tree {opening : Char} {text next rest : Text} {range : Range}
    (symbol : Symbol opening text next) (braced : Braced opening next range rest) :
    ∃ tree : AtomTree, tree.range = range ∧ Spaced tree.symbols text rest := by
  cases braced with
  | @exact _ version _ _ number close =>
      have spaced := symbol.spaced (number.spaced (close.spaced (spaced_nil _)))
      exact ⟨.exact ⟨version, number.2⟩, rfl, spaced⟩
  | @minimum _ version _ _ number close =>
      have spaced := symbol.spaced (number.spaced (close.spaced (spaced_nil _)))
      exact ⟨.minimum ⟨version, number.2⟩, rfl, spaced⟩
  | @maximum _ version _ _ number close =>
      have spaced := symbol.spaced (number.spaced (close.spaced (spaced_nil _)))
      exact ⟨.maximum ⟨version, number.2⟩, rfl, spaced⟩
  | @bounded _ closing _ left _ _ right _ _ opens closes leftNumber comma rightNumber close below =>
      have ordered := (Version.isBelow_iff leftNumber.2 rightNumber.2).1 below
      have spaced := symbol.spaced
        (leftNumber.spaced (comma.spaced (rightNumber.spaced (close.spaced (spaced_nil rest)))))
      refine ⟨.bounded ⟨left, leftNumber.2⟩ ⟨right, rightNumber.2⟩ (opening = '[')
        (closing = ']') ordered, rfl, ?_⟩
      rcases opens with rfl | rfl <;> rcases closes with rfl | rfl <;> exact spaced

mutual

theorem Atom.exists_tree : ∀ {text : Text} {range : Range} {rest : Text},
    Atom text range rest → ∃ tree : AtomTree, tree.range = range ∧ Spaced tree.symbols text rest
  | _, _, _, .base number => ⟨.base ⟨_, number.2⟩, rfl, number.spaced (spaced_nil _)⟩
  | _, _, _, .braced symbol braced => braced.exists_tree symbol
  | _, _, _, .unsatisfiable opening closing =>
      ⟨.unsatisfiable, rfl, opening.spaced (closing.spaced (spaced_nil _))⟩
  | _, _, _, .union opening alternatives => by
      rcases alternatives.exists_tree with ⟨tree, rfl, spaced⟩
      exact ⟨.union tree, rfl, opening.spaced spaced⟩

theorem Factors.exists_tree : ∀ {text : Text} {factors : List Range} {rest : Text},
    Factors text factors rest →
      ∃ tree : RangeTree, tree.ranges = factors ∧ Spaced tree.symbols text rest
  | _, _, _, .last atom _ => by
      rcases atom.exists_tree with ⟨tree, rfl, spaced⟩
      exact ⟨.last tree, rfl, spaced⟩
  | _, _, _, .more atom ampersand following => by
      rcases atom.exists_tree with ⟨tree, rfl, spaced⟩
      rcases following.exists_tree with ⟨others, rfl, rest⟩
      exact ⟨.more tree others, rfl, spaced_append_iff.2 ⟨_, spaced, ampersand.spaced rest⟩⟩

theorem Alternatives.exists_tree : ∀ {text : Text} {members : List Range} {rest : Text},
    Alternatives text members rest →
      ∃ tree : UnionTree, tree.ranges = members ∧ Spaced (tree.symbols ++ [['\x7d']]) text rest
  | _, _, _, .last factors closing => by
      rcases factors.exists_tree with ⟨tree, rfl, spaced⟩
      have rest := closing.spaced (spaced_nil _)
      exact ⟨.last tree, rfl, spaced_append_iff.2 ⟨_, spaced, rest⟩⟩
  | _, _, _, .more factors bar following => by
      rcases factors.exists_tree with ⟨tree, rfl, spaced⟩
      rcases following.exists_tree with ⟨others, rfl, rest⟩
      refine ⟨.more tree others, rfl, ?_⟩
      rw [UnionTree.symbols, List.append_assoc]
      exact spaced_append_iff.2 ⟨_, spaced, bar.spaced rest⟩

end

/-- A text is read as a range if and only if it derives a tree of which that range is made. -/
theorem ofText_eq_ok_iff_derives {text : Text} {range : Range} :
    ofText text = .ok range ↔
      ∃ tree, Derives text tree ∧ range = intersectionOf tree.ranges := by
  rw [ofText_eq_ok_iff]
  constructor
  · rintro ⟨factors, rest, derivation, blank, rfl⟩
    rcases derivation.exists_tree with ⟨tree, rfl, spaced⟩
    refine ⟨tree, ⟨rest, ?_, spaced⟩, rfl⟩
    simpa [skipBlanks, Text.isBlank] using blank
  · rintro ⟨tree, ⟨rest, blank, spaced⟩, rfl⟩
    have skipped : skipBlanks rest = [] := by
      simpa [skipBlanks, Text.isBlank] using blank
    have ends := ends_of_isBlank blank
    have noAmpersand : ∀ after, ¬Symbol '&' rest after := by
      intro after symbol
      exact symbol.ne_nil skipped
    exact ⟨tree.ranges, rest, tree.derivation spaced ends noAmpersand, skipped, rfl⟩

/-- A range text is refused as malformed, whatever is wrong with it. -/
theorem failureClass_of_ofText {text : Text} {failure : Failure}
    (refused : ofText text = .error failure) : failure.cause.failureClass = .format := by
  rw [ofText] at refused
  split at refused
  · rcases fail_eq_error_iff.1 refused with rfl
    rfl
  · split at refused
    · rcases fail_eq_error_iff.1 refused with rfl
      rfl
    · split at refused
      · contradiction
      · rcases fail_eq_error_iff.1 refused with rfl
        rfl

/-! ## Meaning -/

mutual

theorem AtomTree.arranged : ∀ tree : AtomTree, tree.range.Arranged
  | .base bound => .simple (.base bound.2)
  | .exact bound => .simple (.exact bound.2)
  | .minimum bound => .simple (.minimum bound.2)
  | .maximum bound => .simple (.maximum bound.2)
  | .bounded left right leftIncluded rightIncluded _ =>
      .simple (.bounded leftIncluded rightIncluded left.2 right.2)
  | .unsatisfiable => .unsatisfiable
  | .union members => .unionOf members.arranged

theorem RangeTree.arranged : ∀ tree : RangeTree, ∀ range ∈ tree.ranges, range.Arranged
  | .last atom => List.forall_mem_singleton.2 atom.arranged
  | .more atom following => List.forall_mem_cons.2 ⟨atom.arranged, following.arranged⟩

theorem UnionTree.arranged : ∀ tree : UnionTree, ∀ range ∈ tree.ranges, range.Arranged
  | .last member => List.forall_mem_singleton.2 (.intersectionOf member.arranged)
  | .more member following =>
      List.forall_mem_cons.2 ⟨.intersectionOf member.arranged, following.arranged⟩

end

theorem RangeTree.ranges_ne_nil (tree : RangeTree) : tree.ranges ≠ [] := by
  cases tree <;> simp [RangeTree.ranges]

mutual

/-- The range of an atom includes the versions that the atom means. -/
theorem AtomTree.decides {version : Text} (valid : Version.isValid version = true) :
    ∀ tree : AtomTree, Decides version tree.range (tree.Includes version)
  | .base bound => decides_base bound.2 valid
  | .exact bound => decides_exact bound
  | .minimum bound => decides_minimum bound.2 valid
  | .maximum bound => decides_maximum bound.2 valid
  | .bounded left right leftIncluded rightIncluded _ =>
      decides_bounded leftIncluded rightIncluded left.2 right.2 valid
  | .unsatisfiable => decides_unsatisfiable
  | .union members =>
      (decides_unionOf members.arranged (Version.isNumeric_of_isValid valid)).congr
        (members.includes_iff valid)

theorem RangeTree.includes_iff {version : Text} (valid : Version.isValid version = true) :
    ∀ tree : RangeTree,
      (∀ range ∈ tree.ranges, includes version range = .ok true) ↔ tree.Includes version
  | .last atom => by
      simp only [RangeTree.ranges, List.forall_mem_singleton]
      exact (atom.decides valid).includes_iff
  | .more atom following => by
      simp only [RangeTree.ranges, List.forall_mem_cons]
      exact and_congr (atom.decides valid).includes_iff (following.includes_iff valid)

theorem UnionTree.includes_iff {version : Text} (valid : Version.isValid version = true) :
    ∀ tree : UnionTree,
      (∃ range ∈ tree.ranges, includes version range = .ok true) ↔ tree.Includes version
  | .last member => by
      simp only [UnionTree.ranges, List.mem_singleton, exists_eq_left]
      have numeric := Version.isNumeric_of_isValid valid
      exact (decides_intersectionOf member.ranges_ne_nil member.arranged numeric).includes_iff.trans
        (member.includes_iff valid)
  | .more member following => by
      have numeric := Version.isNumeric_of_isValid valid
      simp only [UnionTree.ranges, List.exists_mem_cons_iff]
      apply or_congr
      · have decides := decides_intersectionOf member.ranges_ne_nil member.arranged numeric
        exact decides.includes_iff.trans (member.includes_iff valid)
      · exact following.includes_iff valid

end

/-- A range includes the versions that a derivation of its text means. -/
theorem Derives.decides {text version : Text} {tree : RangeTree} {range : Range}
    (derives : Derives text tree) (read : ofText text = .ok range)
    (valid : Version.isValid version = true) : Decides version range (tree.Includes version) := by
  have made : ofText text = .ok (intersectionOf tree.ranges) :=
    ofText_eq_ok_iff_derives.2 ⟨tree, derives, rfl⟩
  rcases Except.ok.inj (read.symm.trans made) with rfl
  have numeric := Version.isNumeric_of_isValid valid
  exact (decides_intersectionOf tree.ranges_ne_nil tree.arranged numeric).congr
    (tree.includes_iff valid)

/-- Where no host sets limits, a text is read as a range if and only if the grammar derives it, and
it is refused as malformed otherwise. The range includes the versions that any derivation of the
text means, and it excludes all other valid versions. -/
theorem exists_ofText_iff_exists_derives (text : Text) :
    ((∃ range, ofText text = .ok range) ↔ ∃ tree, Derives text tree) ∧
      ((¬∃ tree, Derives text tree) →
        ∃ failure, ofText text = .error failure ∧ failure.cause.failureClass = .format) ∧
      ∀ tree range, Derives text tree → ofText text = .ok range →
        ∀ version, Version.isValid version = true →
          Decides version range (tree.Includes version) := by
  have accepted : (∃ range, ofText text = .ok range) ↔ ∃ tree, Derives text tree := by
    constructor
    · rintro ⟨range, read⟩
      rcases ofText_eq_ok_iff_derives.1 read with ⟨tree, derives, -⟩
      exact ⟨tree, derives⟩
    · rintro ⟨tree, derives⟩
      exact ⟨_, ofText_eq_ok_iff_derives.2 ⟨tree, derives, rfl⟩⟩
  refine ⟨accepted, ?_, ?_⟩
  · intro noTree
    rcases outcome : ofText text with failure | range
    · exact ⟨failure, rfl, failureClass_of_ofText outcome⟩
    · exact absurd (accepted.1 ⟨range, outcome⟩) noTree
  · intro tree range derives read version valid
    exact derives.decides read valid

end Range

end BundleDecl
