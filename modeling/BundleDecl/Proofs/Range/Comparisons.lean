import BundleDecl.Proofs.Range.Acceptance
import BundleDecl.Range.Comparisons

/-!
# What is compared in the reading of ranges

In a text that the grammar derives, the bounds of the ranges with two bounds in its tree are
compared, in their order. In any text, what is compared are version numbers that stand in that text.
-/

namespace BundleDecl

namespace Range

/-! ## Comparisons by the first symbols of a text -/

section

variable {first closing : Char} {text tail after rest left right mid next : Text}

theorem atomComparisons_of_digit (start : Symbol first text tail)
    (digit : Text.isDigitCharacter first = true) : atomComparisons text = [] := by
  rw [atomComparisons]
  split
  · rfl
  · rename_i start'
    rcases start.inj start' with ⟨rfl, rfl⟩
    rw [if_pos digit]

theorem atomComparisons_of_opens (start : Symbol first text tail)
    (opens : first = '(' ∨ first = '[') : atomComparisons text = bracedComparisons tail := by
  rw [atomComparisons]
  split
  · rename_i none
    exact absurd none start.ne_nil
  · rename_i start'
    rcases start.inj start' with ⟨rfl, rfl⟩
    rw [not_isDigitCharacter_of_opens opens, if_neg Bool.false_ne_true, if_pos opens]

theorem atomComparisons_of_closed (start : Symbol '\x7b' text tail)
    (close : Symbol '\x7d' tail after) : atomComparisons text = [] := by
  rw [atomComparisons]
  split
  · rfl
  · rename_i start'
    rcases start.inj start' with ⟨rfl, rfl⟩
    rw [if_neg (by decide), if_neg (by decide), if_pos rfl, close]
    rfl

theorem atomComparisons_of_union (start : Symbol '\x7b' text tail)
    (following : Symbol first tail after) (notBrace : first ≠ '\x7d') :
    atomComparisons text = unionComparisons tail := by
  rw [atomComparisons]
  split
  · rename_i none
    exact absurd none start.ne_nil
  · rename_i start'
    rcases start.inj start' with ⟨rfl, rfl⟩
    rw [if_neg (by decide), if_neg (by decide), if_pos rfl]
    split
    · rename_i none
      exact absurd none following.ne_nil
    · rename_i close
      exact absurd (following.inj close).1 notBrace
    · rfl

theorem bracedComparisons_of_single (number : Number text left mid)
    (close : Symbol closing mid rest) (closes : closing = ')' ∨ closing = ']') :
    bracedComparisons text = [] := by
  rw [bracedComparisons, number.1]
  dsimp only
  rw [close]
  rcases closes with rfl | rfl <;> rfl

theorem bracedComparisons_of_bounded (leftNumber : Number text left mid)
    (comma : Symbol ',' mid next) (rightNumber : Number next right after)
    (close : Symbol closing after rest) (closes : closing = ')' ∨ closing = ']') :
    bracedComparisons text = [(left, right)] := by
  rw [bracedComparisons, leftNumber.1]
  dsimp only
  rw [comma]
  refine (if_pos leftNumber.2).trans ?_
  rw [rightComparisons, rightNumber.1]
  dsimp only
  rw [close]
  exact if_pos ⟨rightNumber.2, closes⟩

theorem comparisons_of_last {range : Range} (atom : Atom text range mid)
    (noAmpersand : ∀ after, ¬Symbol '&' mid after) : comparisons text = atomComparisons text := by
  rcases atom.leaves with ⟨shorter, read⟩
  rw [comparisons, read]
  dsimp only
  split
  · rename_i ampersand
    exact absurd ampersand (noAmpersand _)
  · exact List.append_nil _

theorem comparisons_of_more {range : Range} (atom : Atom text range mid)
    (ampersand : Symbol '&' mid next) :
    comparisons text = atomComparisons text ++ comparisons next := by
  rcases atom.leaves with ⟨shorter, read⟩
  rw [comparisons, read]
  dsimp only
  split
  · rename_i ampersand'
    rcases ampersand.inj ampersand' with ⟨-, rfl⟩
    rfl
  · rename_i notAmpersand
    exact absurd ampersand (notAmpersand next)

theorem unionComparisons_of_last {factors : List Range} (derivation : Factors text factors mid)
    (noBar : ∀ after, ¬Symbol '|' mid after) : unionComparisons text = comparisons text := by
  rcases derivation.leaves with ⟨shorter, read⟩
  rw [unionComparisons, read]
  dsimp only
  split
  · rename_i bar
    exact absurd bar (noBar _)
  · exact List.append_nil _

theorem unionComparisons_of_more {factors : List Range} (derivation : Factors text factors mid)
    (bar : Symbol '|' mid next) :
    unionComparisons text = comparisons text ++ unionComparisons next := by
  rcases derivation.leaves with ⟨shorter, read⟩
  rw [unionComparisons, read]
  dsimp only
  split
  · rename_i bar'
    rcases bar.inj bar' with ⟨-, rfl⟩
    rfl
  · rename_i notBar
    exact absurd bar (notBar next)

end

/-! ## Comparisons in a text that the grammar derives -/

mutual

/-- The bounds of the ranges with two bounds in an atom, in their order. -/
def AtomTree.bounds : AtomTree → List (Version.Valid × Version.Valid)
  | .bounded left right _ _ _ => [(left, right)]
  | .union members => members.bounds
  | .base _ | .exact _ | .minimum _ | .maximum _ | .unsatisfiable => []

/-- The bounds of the ranges with two bounds in a range, in their order. -/
def RangeTree.bounds : RangeTree → List (Version.Valid × Version.Valid)
  | .last atom => atom.bounds
  | .more atom following => atom.bounds ++ following.bounds

/-- The bounds of the ranges with two bounds in the members of a union, in their order. -/
def UnionTree.bounds : UnionTree → List (Version.Valid × Version.Valid)
  | .last member => member.bounds
  | .more member following => member.bounds ++ following.bounds

end

/-- Two bounds as they are written. -/
def written (bounds : Version.Valid × Version.Valid) : Text × Text :=
  (bounds.1.1, bounds.2.1)

theorem atomComparisons_of_spaced_single {opening closing : Char} {bound : Version.Valid}
    {text rest : Text} (opens : opening = '(' ∨ opening = '[')
    (closes : closing = ')' ∨ closing = ']')
    (spaced : Spaced [[opening], bound, [closing]] text rest) : atomComparisons text = [] := by
  rcases exists_symbol_of_spaced spaced (isIndentCharacter_of_opens opens) with
    ⟨next, symbol, spaced⟩
  rcases exists_number_symbol_of_spaced spaced (isNumberCharacter_of_closes closes)
    (isIndentCharacter_of_closes closes) with ⟨mid, rest, number, close, rfl⟩
  rw [atomComparisons_of_opens symbol opens, bracedComparisons_of_single number close closes]

theorem atomComparisons_of_spaced_bounded {opening closing : Char} {left right : Version.Valid}
    {text rest : Text} (opens : opening = '(' ∨ opening = '[')
    (closes : closing = ')' ∨ closing = ']')
    (spaced : Spaced [[opening], left, [','], right, [closing]] text rest) :
    atomComparisons text = [written (left, right)] := by
  rcases exists_symbol_of_spaced spaced (isIndentCharacter_of_opens opens) with
    ⟨next, symbol, spaced⟩
  rcases exists_number_symbol_of_spaced spaced (by decide) (by decide) with
    ⟨afterLeft, second, leftNumber, comma, spaced⟩
  rcases exists_number_symbol_of_spaced spaced (isNumberCharacter_of_closes closes)
    (isIndentCharacter_of_closes closes) with ⟨afterRight, rest, rightNumber, close, rfl⟩
  rw [atomComparisons_of_opens symbol opens,
    bracedComparisons_of_bounded leftNumber comma rightNumber close closes]
  rfl

mutual

theorem AtomTree.comparisons : ∀ (tree : AtomTree) {text rest : Text},
    Spaced tree.symbols text rest → Ends rest → atomComparisons text = tree.bounds.map written
  | .base bound, text, rest, spaced, ends => by
      rcases exists_number_of_spaced spaced (by rintro mid rfl; exact ends) with
        ⟨mid, number, rfl⟩
      rcases number.exists_digit with ⟨first, tail, start, digit⟩
      exact atomComparisons_of_digit start (isDigitCharacter_of_isDigit digit)
  | .exact bound, text, rest, spaced, _ =>
      atomComparisons_of_spaced_single (Or.inr rfl) (Or.inr rfl) spaced
  | .minimum bound, text, rest, spaced, _ =>
      atomComparisons_of_spaced_single (Or.inr rfl) (Or.inl rfl) spaced
  | .maximum bound, text, rest, spaced, _ =>
      atomComparisons_of_spaced_single (Or.inl rfl) (Or.inr rfl) spaced
  | .bounded left right leftIncluded rightIncluded below, text, rest, spaced, _ => by
      cases leftIncluded <;> cases rightIncluded
      · exact atomComparisons_of_spaced_bounded (Or.inl rfl) (Or.inl rfl) spaced
      · exact atomComparisons_of_spaced_bounded (Or.inl rfl) (Or.inr rfl) spaced
      · exact atomComparisons_of_spaced_bounded (Or.inr rfl) (Or.inl rfl) spaced
      · exact atomComparisons_of_spaced_bounded (Or.inr rfl) (Or.inr rfl) spaced
  | .unsatisfiable, text, rest, spaced, _ => by
      rcases exists_symbol_of_spaced spaced (by decide) with ⟨next, opening, spaced⟩
      rcases exists_symbol_of_spaced spaced (by decide) with ⟨after, closing, rfl⟩
      exact atomComparisons_of_closed opening closing
  | .union members, text, rest, spaced, _ => by
      rcases exists_symbol_of_spaced spaced (by decide) with ⟨next, opening, spaced⟩
      rcases (members.alternatives spaced).exists_first with ⟨first, tail, start, notBrace⟩
      rw [atomComparisons_of_union opening start notBrace, members.comparisons spaced]
      rfl

/-- The bounds in a tree are compared when the text of the tree is read. -/
theorem RangeTree.comparisons : ∀ (tree : RangeTree) {text rest : Text},
    Spaced tree.symbols text rest → Ends rest → (∀ after, ¬Symbol '&' rest after) →
      Range.comparisons text = tree.bounds.map written
  | .last atom, text, rest, spaced, ends, noAmpersand => by
      rw [comparisons_of_last (atom.atom spaced ends) noAmpersand, atom.comparisons spaced ends]
      rfl
  | .more atom following, text, rest, spaced, ends, noAmpersand => by
      rcases spaced_append_iff.1 spaced with ⟨mid, first, spaced⟩
      have midEnds := ends_of_spaced spaced (by decide)
      rcases exists_symbol_of_spaced spaced (by decide) with ⟨next, ampersand, spaced⟩
      rw [comparisons_of_more (atom.atom first midEnds) ampersand, atom.comparisons first midEnds,
        following.comparisons spaced ends noAmpersand, RangeTree.bounds, List.map_append]

theorem UnionTree.comparisons : ∀ (tree : UnionTree) {text rest : Text},
    Spaced (tree.symbols ++ [['\x7d']]) text rest →
      unionComparisons text = tree.bounds.map written
  | .last member, text, rest, spaced => by
      rcases spaced_append_iff.1 spaced with ⟨mid, first, spaced⟩
      have midEnds := ends_of_spaced spaced (by decide)
      have noAmpersand : ∀ after, ¬Symbol '&' mid after :=
        not_symbol_of_spaced spaced (by decide) (by decide)
      have noBar : ∀ after, ¬Symbol '|' mid after :=
        not_symbol_of_spaced spaced (by decide) (by decide)
      rw [unionComparisons_of_last (member.derivation first midEnds noAmpersand) noBar,
        member.comparisons first midEnds noAmpersand]
      rfl
  | .more member following, text, rest, spaced => by
      rw [UnionTree.symbols, List.append_assoc] at spaced
      rcases spaced_append_iff.1 spaced with ⟨mid, first, spaced⟩
      have midEnds := ends_of_spaced spaced (by decide)
      have noAmpersand : ∀ after, ¬Symbol '&' mid after :=
        not_symbol_of_spaced spaced (by decide) (by decide)
      rcases exists_symbol_of_spaced spaced (by decide) with ⟨next, bar, spaced⟩
      rw [unionComparisons_of_more (member.derivation first midEnds noAmpersand) bar,
        member.comparisons first midEnds noAmpersand, following.comparisons spaced,
        UnionTree.bounds, List.map_append]

end

theorem Derives.comparisons {text : Text} {tree : RangeTree} (derives : Derives text tree) :
    Range.comparisons text = tree.bounds.map written := by
  rcases derives with ⟨rest, blank, spaced⟩
  have skipped : skipBlanks rest = [] := by
    simpa [skipBlanks, Text.isBlank] using blank
  exact tree.comparisons spaced (ends_of_isBlank blank) fun after symbol => symbol.ne_nil skipped

/-! ## Comparisons in any text -/

/-- Two version numbers that stand in a text. -/
structure StandIn (text : Text) (bounds : Text × Text) : Prop where
  leftValid : Version.isValid bounds.1 = true
  rightValid : Version.isValid bounds.2 = true
  left : bounds.1 <:+: text
  right : bounds.2 <:+: text

theorem StandIn.of_suffix {text rest : Text} {bounds : Text × Text} (stand : StandIn rest bounds)
    (suffix : rest <:+ text) : StandIn text bounds :=
  ⟨stand.leftValid, stand.rightValid, stand.left.trans suffix.isInfix,
    stand.right.trans suffix.isInfix⟩

theorem skipBlanks_suffix (text : Text) : skipBlanks text <:+ text :=
  List.dropWhile_suffix _

theorem Symbol.suffix {character : Char} {text rest : Text} (symbol : Symbol character text rest) :
    rest <:+ text :=
  (List.suffix_cons character rest).trans (symbol ▸ skipBlanks_suffix text)

theorem infix_readNumber (text : Text) : (readNumber text).1 <:+: text :=
  (List.takeWhile_prefix _).isInfix.trans (skipBlanks_suffix text).isInfix

theorem readNumber_suffix (text : Text) : (readNumber text).2 <:+ text :=
  (List.dropWhile_suffix _).trans (skipBlanks_suffix text)

theorem standIn_of_mem_bracedComparisons {text : Text} {bounds : Text × Text}
    (compared : bounds ∈ bracedComparisons text) : StandIn text bounds := by
  rw [bracedComparisons] at compared
  dsimp only at compared
  split at compared
  · rename_i next comma
    split at compared
    · rename_i leftValid
      rw [rightComparisons] at compared
      dsimp only at compared
      split at compared
      · contradiction
      · split at compared
        · rename_i right
          rcases List.mem_singleton.1 compared with rfl
          have suffix := (Symbol.suffix comma).trans (readNumber_suffix text)
          exact ⟨leftValid, right.1, infix_readNumber text,
            (infix_readNumber next).trans suffix.isInfix⟩
        · contradiction
    · contradiction
  · contradiction

theorem Number.suffix {text version rest : Text} (number : Number text version rest) :
    rest <:+ text := by
  have suffix := readNumber_suffix text
  rwa [number.1] at suffix

theorem Braced.suffix {opening : Char} {text rest : Text} {range : Range}
    (braced : Braced opening text range rest) : rest <:+ text := by
  cases braced with
  | exact number close => exact close.suffix.trans number.suffix
  | minimum number close => exact close.suffix.trans number.suffix
  | maximum number close => exact close.suffix.trans number.suffix
  | bounded _ _ leftNumber comma rightNumber close _ =>
      have right := close.suffix.trans rightNumber.suffix
      exact right.trans (comma.suffix.trans leftNumber.suffix)

mutual

theorem Atom.suffix : ∀ {text : Text} {range : Range} {rest : Text},
    Atom text range rest → rest <:+ text
  | _, _, _, .base number => number.suffix
  | _, _, _, .braced symbol braced => braced.suffix.trans symbol.suffix
  | _, _, _, .unsatisfiable opening closing => closing.suffix.trans opening.suffix
  | _, _, _, .union opening alternatives => alternatives.suffix.trans opening.suffix

/-- What follows a range is the end of its text. -/
theorem Factors.suffix : ∀ {text : Text} {factors : List Range} {rest : Text},
    Factors text factors rest → rest <:+ text
  | _, _, _, .last atom _ => atom.suffix
  | _, _, _, .more atom ampersand following =>
      following.suffix.trans (ampersand.suffix.trans atom.suffix)

theorem Alternatives.suffix : ∀ {text : Text} {members : List Range} {rest : Text},
    Alternatives text members rest → rest <:+ text
  | _, _, _, .last factors closing => closing.suffix.trans factors.suffix
  | _, _, _, .more factors bar following =>
      following.suffix.trans (bar.suffix.trans factors.suffix)

end

theorem suffix_of_readAtom {text : Text} {range : Range} {rest : Text.Rest text}
    (read : readAtom text = .ok (range, rest)) : rest.1 <:+ text :=
  ((derived_of_leaves _).1 _ _ _ (Nat.lt_succ_self _) ⟨rest.2, read⟩).suffix

theorem suffix_of_readFactors {text : Text} {factors : List Range} {rest : Text.Rest text}
    (read : readFactors text = .ok (factors, rest)) : rest.1 <:+ text :=
  (leaves_readFactors_iff_factors.1 ⟨rest.2, read⟩).suffix

mutual

theorem standIn_of_mem_atomComparisons {text : Text} {bounds : Text × Text}
    (compared : bounds ∈ atomComparisons text) : StandIn text bounds := by
  rw [atomComparisons] at compared
  split at compared
  · contradiction
  · rename_i first rest start
    have suffix := Symbol.suffix start
    split at compared
    · contradiction
    · split at compared
      · exact (standIn_of_mem_bracedComparisons compared).of_suffix suffix
      · split at compared
        · split at compared
          · contradiction
          · contradiction
          · exact (standIn_of_mem_unionComparisons compared).of_suffix suffix
        · contradiction
termination_by (text.length, 0)
decreasing_by exact .left _ _ (skipBlanks_length_lt ‹_›)

/-- Whatever is compared in the reading of a text stands in that text. -/
theorem standIn_of_mem_comparisons {text : Text} {bounds : Text × Text}
    (compared : bounds ∈ comparisons text) : StandIn text bounds := by
  rw [comparisons] at compared
  rcases List.mem_append.1 compared with here | later
  · exact standIn_of_mem_atomComparisons here
  · split at later
    · contradiction
    · rename_i factor afterFactor read
      split at later
      · rename_i rest ampersand
        have shorter := Nat.lt_trans (skipBlanks_length_lt ampersand) afterFactor.2
        exact (standIn_of_mem_comparisons later).of_suffix
          ((Symbol.suffix ampersand).trans (suffix_of_readAtom read))
      · contradiction
termination_by (text.length, 1)
decreasing_by
  · exact .right _ (by decide)
  · exact .left _ _ ‹_›

theorem standIn_of_mem_unionComparisons {text : Text} {bounds : Text × Text}
    (compared : bounds ∈ unionComparisons text) : StandIn text bounds := by
  rw [unionComparisons] at compared
  rcases List.mem_append.1 compared with here | later
  · exact standIn_of_mem_comparisons here
  · split at later
    · contradiction
    · rename_i factors afterFactors read
      split at later
      · rename_i rest bar
        have shorter := Nat.lt_trans (skipBlanks_length_lt bar) afterFactors.2
        exact (standIn_of_mem_unionComparisons later).of_suffix
          ((Symbol.suffix bar).trans (suffix_of_readFactors read))
      · contradiction
termination_by (text.length, 2)
decreasing_by
  · exact .right _ (by decide)
  · exact .left _ _ ‹_›

end

end Range

end BundleDecl
