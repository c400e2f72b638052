import BundleDecl.Proofs.Version
import BundleDecl.Range.Parser

/-!
# Derivations of ranges

The written forms of ranges as rules. A derivation relates a text to the range at its start and to
what follows that range. Blanks before a symbol belong to that symbol, so what follows a range may
start with blanks.

The rules take as much of a text as the reader does: a version number extends as far as digits and
dots go, and a list of factors ends where no ampersand follows. Reading a text and deriving it are
the same.
-/

namespace BundleDecl

namespace Range

/-- A character after blanks at the start of a text, and what follows it. -/
def Symbol (character : Char) (text rest : Text) : Prop :=
  skipBlanks text = character :: rest

/-- A version number after blanks at the start of a text, and what follows it. -/
def Number (text version rest : Text) : Prop :=
  readNumber text = (version, rest) ∧ Version.isValid version = true

/-- A range between braces, after the opening brace. -/
inductive Braced : Char → Text → Range → Text → Prop where
  | exact {text version mid rest : Text} :
      Number text version mid → Symbol ']' mid rest → Braced '[' text (exact version) rest
  | minimum {text version mid rest : Text} :
      Number text version mid → Symbol ')' mid rest → Braced '[' text (minimum version) rest
  | maximum {text version mid rest : Text} :
      Number text version mid → Symbol ']' mid rest → Braced '(' text (maximum version) rest
  | bounded {opening closing : Char} {text left afterLeft next right afterRight rest : Text} :
      opening = '(' ∨ opening = '[' → closing = ')' ∨ closing = ']' →
      Number text left afterLeft → Symbol ',' afterLeft next →
      Number next right afterRight → Symbol closing afterRight rest →
      Version.isBelow left right = true →
      Braced opening text (bounded left right (opening = '[') (closing = ']')) rest

mutual

/-- A range without ampersands at the start of a text, and what follows it. -/
inductive Atom : Text → Range → Text → Prop where
  | base {text version rest : Text} : Number text version rest → Atom text (base version) rest
  | braced {opening : Char} {text next rest : Text} {range : Range} :
      Symbol opening text next → Braced opening next range rest → Atom text range rest
  | unsatisfiable {text next rest : Text} :
      Symbol '\x7b' text next → Symbol '\x7d' next rest → Atom text unsatisfiable rest
  | union {text next rest : Text} {members : List Range} :
      Symbol '\x7b' text next → Alternatives next members rest → Atom text (unionOf members) rest

/-- Ranges with ampersands between them at the start of a text, and what follows them. -/
inductive Factors : Text → List Range → Text → Prop where
  | last {text rest : Text} {factor : Range} :
      Atom text factor rest → (∀ after, ¬Symbol '&' rest after) → Factors text [factor] rest
  | more {text mid next rest : Text} {factor : Range} {factors : List Range} :
      Atom text factor mid → Symbol '&' mid next → Factors next factors rest →
      Factors text (factor :: factors) rest

/-- The members of a union up to its closing brace, and what follows that brace. -/
inductive Alternatives : Text → List Range → Text → Prop where
  | last {text mid rest : Text} {factors : List Range} :
      Factors text factors mid → Symbol '\x7d' mid rest →
      Alternatives text [intersectionOf factors] rest
  | more {text mid next rest : Text} {factors members : List Range} :
      Factors text factors mid → Symbol '|' mid next → Alternatives next members rest →
      Alternatives text (intersectionOf factors :: members) rest

end

theorem isValid_of_checkNumber {number left version : Text}
    (checked : checkNumber number left = .ok version) :
    version = number ∧ Version.isValid number = true :=
  ⟨(checkNumber_eq_ok checked).2, (checkNumber_eq_ok checked).1⟩

theorem checkNumber_of_isValid {number left : Text} (valid : Version.isValid number = true) :
    checkNumber number left = .ok number := by
  simp [checkNumber, valid]

theorem readRightBound_eq_ok_iff (opening : Char) {left text rest : Text} {range : Range} :
    readRightBound opening left text = .ok (range, rest) ↔
      ∃ right afterRight closing, Number text right afterRight ∧
        (closing = ')' ∨ closing = ']') ∧ Symbol closing afterRight rest ∧
        Version.isBelow left right = true ∧
        range = bounded left right (opening = '[') (closing = ']') := by
  rw [readRightBound]
  simp only [bind, Except.bind, pure, Except.pure, throw, throwThe, MonadExceptOf.throw]
  constructor
  · intro read
    split at read
    · simp at read
    · rename_i nonempty
      split at read
      · simp at read
      · rename_i right checked
        rcases isValid_of_checkNumber checked with ⟨rfl, valid⟩
        split at read
        · simp at read
        · rename_i closing after symbol
          split at read
          · simp at read
          · rename_i closes
            split at read
            · rename_i below
              simp only [Except.ok.injEq, Prod.mk.injEq] at read
              rcases read with ⟨rfl, rfl⟩
              refine ⟨_, _, closing, ⟨rfl, valid⟩, ?_, symbol, below, rfl⟩
              grind
            · simp at read
  · rintro ⟨right, afterRight, closing, ⟨number, valid⟩, closes, symbol, below, rfl⟩
    have brace : ¬(closing ≠ ')' ∧ closing ≠ ']') := by grind
    rw [Symbol] at symbol
    simp only [number, Version.ne_nil_of_isValid valid, if_false, checkNumber_of_isValid valid,
      symbol, brace, below, if_true]

theorem readBraced_of_single {opening closing : Char} {text version mid rest : Text}
    (number : Number text version mid) (symbol : Symbol closing mid rest)
    (closes : closing = ')' ∨ closing = ']') :
    readBraced opening text =
      (singleBound opening closing version rest).map fun range => (range, rest) := by
  rcases number with ⟨number, valid⟩
  rw [Symbol] at symbol
  rw [readBraced]
  rcases closes with rfl | rfl <;>
    simp [number, symbol, Version.ne_nil_of_isValid valid, checkNumber_of_isValid valid, bind,
      Except.bind, pure, Except.pure, Except.map]

theorem Braced.of_singleBound {opening closing : Char} {text version mid rest left : Text}
    {range : Range} (opens : opening = '(' ∨ opening = '[')
    (closes : closing = ')' ∨ closing = ']') (number : Number text version mid)
    (symbol : Symbol closing mid rest)
    (made : singleBound opening closing version left = .ok range) :
    Braced opening text range rest := by
  rcases opens with rfl | rfl <;> rcases closes with rfl | rfl <;> simp [singleBound] at made
  · subst made
    exact .maximum number symbol
  · subst made
    exact .minimum number symbol
  · subst made
    exact .exact number symbol

/-- What is read after an opening brace is derived. -/
theorem Braced.of_readBraced {opening : Char} {text rest : Text} {range : Range}
    (opens : opening = '(' ∨ opening = '[') (read : readBraced opening text = .ok (range, rest)) :
    Braced opening text range rest := by
  rw [readBraced] at read
  simp only [bind, Except.bind, pure, Except.pure, throw, throwThe, MonadExceptOf.throw] at read
  split at read
  · simp at read
  · rename_i next symbol
    split at read
    · simp at read
    · split at read
      · simp at read
      · rename_i left checked
        rcases isValid_of_checkNumber checked with ⟨rfl, valid⟩
        rcases (readRightBound_eq_ok_iff opening).1 read with
          ⟨right, afterRight, closing, number, closes, finish, below, rfl⟩
        exact .bounded opens closes ⟨rfl, valid⟩ symbol number finish below
  · rename_i closing after _ symbol
    split at read
    · simp at read
    · rename_i closes
      have closes' : closing = ')' ∨ closing = ']' := by grind
      split at read
      · simp at read
      · split at read
        · simp at read
        · rename_i version checked
          rcases isValid_of_checkNumber checked with ⟨rfl, valid⟩
          split at read
          · simp at read
          · rename_i single made
            simp only [Except.ok.injEq, Prod.mk.injEq] at read
            rcases read with ⟨rfl, rfl⟩
            exact .of_singleBound opens closes' ⟨rfl, valid⟩ symbol made

/-- What is derived after an opening brace is read. -/
theorem Braced.readBraced {opening : Char} {text rest : Text} {range : Range}
    (braced : Braced opening text range rest) : readBraced opening text = .ok (range, rest) := by
  cases braced with
  | exact number symbol =>
      rw [readBraced_of_single number symbol (Or.inr rfl)]
      rfl
  | minimum number symbol =>
      rw [readBraced_of_single number symbol (Or.inl rfl)]
      rfl
  | maximum number symbol =>
      rw [readBraced_of_single number symbol (Or.inr rfl)]
      rfl
  | bounded opens closes leftNumber comma rightNumber finish below =>
      have right := (readRightBound_eq_ok_iff opening).2
        ⟨_, _, _, rightNumber, closes, finish, below, rfl⟩
      rcases leftNumber with ⟨number, valid⟩
      rw [Symbol] at comma
      simp [Range.readBraced, number, comma, Version.ne_nil_of_isValid valid,
        checkNumber_of_isValid valid, right, bind, Except.bind]

theorem readBraced_eq_ok_iff {opening : Char} {text rest : Text} {range : Range}
    (opens : opening = '(' ∨ opening = '[') :
    readBraced opening text = .ok (range, rest) ↔ Braced opening text range rest :=
  ⟨Braced.of_readBraced opens, Braced.readBraced⟩

theorem Number.exists_digit {text version rest : Text} (number : Number text version rest) :
    ∃ first tail, skipBlanks text = first :: tail ∧ first.isDigit = true := by
  rcases number with ⟨number, valid⟩
  rcases Version.exists_digit_of_isValid valid with ⟨first, others, rfl, digit⟩
  simp only [readNumber, Prod.mk.injEq] at number
  refine ⟨first, others ++ rest, ?_, digit⟩
  rw [← List.takeWhile_append_dropWhile (p := isNumberCharacter) (l := skipBlanks text),
    number.1, number.2]
  rfl

theorem isDigitCharacter_of_isDigit {character : Char} (digit : character.isDigit = true) :
    Text.isDigitCharacter character = true := by
  have bounds := Char.isDigit_iff_toNat.1 digit
  have zero : '0'.toNat = 48 := rfl
  have nine : '9'.toNat = 57 := rfl
  simp only [Text.isDigitCharacter, Text.digitRanges, List.any_cons, Bool.or_eq_true,
    Bool.and_eq_true, decide_eq_true_eq]
  left
  omega

/-- What a step of the reader returns: a value and the text that follows. -/
def Leaves {Value : Type} {text : Text} (outcome : Except Obstacle (Value × Text.Rest text))
    (value : Value) (rest : Text) : Prop :=
  ∃ shorter, outcome = .ok (value, ⟨rest, shorter⟩)

/-- A range does not start with a closing curly brace. -/
theorem Atom.exists_first {text rest : Text} {range : Range} (atom : Atom text range rest) :
    ∃ first tail, skipBlanks text = first :: tail ∧ first ≠ '\x7d' := by
  cases atom with
  | base number =>
      rcases number.exists_digit with ⟨first, tail, start, digit⟩
      refine ⟨first, tail, start, ?_⟩
      rintro rfl
      exact absurd digit (by decide)
  | braced symbol braced =>
      refine ⟨_, _, symbol, ?_⟩
      cases braced with
      | bounded opens => rcases opens with rfl | rfl <;> decide
      | _ => decide
  | unsatisfiable symbol _ => exact ⟨_, _, symbol, by decide⟩
  | union symbol _ => exact ⟨_, _, symbol, by decide⟩

theorem Factors.exists_first {text rest : Text} {factors : List Range}
    (derivation : Factors text factors rest) :
    ∃ first tail, skipBlanks text = first :: tail ∧ first ≠ '\x7d' := by
  cases derivation with
  | last atom _ => exact atom.exists_first
  | more atom _ _ => exact atom.exists_first

theorem Alternatives.exists_first {text rest : Text} {members : List Range}
    (derivation : Alternatives text members rest) :
    ∃ first tail, skipBlanks text = first :: tail ∧ first ≠ '\x7d' := by
  cases derivation with
  | last factors _ => exact factors.exists_first
  | more factors _ _ => exact factors.exists_first

theorem Braced.opens {opening : Char} {text rest : Text} {range : Range}
    (braced : Braced opening text range rest) : opening = '(' ∨ opening = '[' := by
  cases braced with
  | bounded opens => exact opens
  | maximum => exact Or.inl rfl
  | exact => exact Or.inr rfl
  | minimum => exact Or.inr rfl

theorem Symbol.inj {character other : Char} {text rest rest' : Text}
    (symbol : Symbol character text rest) (symbol' : Symbol other text rest') :
    character = other ∧ rest = rest' :=
  List.cons.inj (symbol.symm.trans symbol')

theorem Symbol.ne_nil {character : Char} {text rest : Text}
    (symbol : Symbol character text rest) : skipBlanks text ≠ [] := by
  rw [symbol]
  simp

theorem leaves_readAtom_of_digit {first : Char} {text tail rest : Text} {range : Range}
    (start : Symbol first text tail) (digit : Text.isDigitCharacter first = true) :
    Leaves (readAtom text) range rest ↔
      ∃ version, Number text version rest ∧ range = base version := by
  rw [readAtom]
  split
  · rename_i none
    exact absurd none start.ne_nil
  · rename_i first' tail' start'
    rcases start.inj start' with ⟨rfl, rfl⟩
    rw [if_pos digit]
    constructor
    · rintro ⟨shorter, read⟩
      split at read
      · simp at read
      · rename_i version checked
        rcases isValid_of_checkNumber checked with ⟨rfl, valid⟩
        simp only [Except.ok.injEq, Prod.mk.injEq, Subtype.mk.injEq] at read
        exact ⟨_, ⟨Prod.ext rfl read.2, valid⟩, read.1.symm⟩
    · rintro ⟨version, ⟨number, valid⟩, rfl⟩
      split
      · rename_i refused
        simp [number, checkNumber_of_isValid valid] at refused
      · rename_i version' checked
        rcases isValid_of_checkNumber checked with ⟨rfl, -⟩
        simp only [number]
        exact ⟨_, rfl⟩

theorem not_isDigitCharacter_of_opens {opening : Char} (opens : opening = '(' ∨ opening = '[') :
    Text.isDigitCharacter opening = false := by
  rcases opens with rfl | rfl <;> decide

theorem leaves_readAtom_of_opens {first : Char} {text tail rest : Text} {range : Range}
    (start : Symbol first text tail) (opens : first = '(' ∨ first = '[') :
    Leaves (readAtom text) range rest ↔ Braced first tail range rest := by
  rw [← readBraced_eq_ok_iff opens, readAtom]
  split
  · rename_i none
    exact absurd none start.ne_nil
  · rename_i first' tail' start'
    rcases start.inj start' with ⟨rfl, rfl⟩
    simp only [not_isDigitCharacter_of_opens opens, Bool.false_eq_true, if_false, if_pos opens]
    constructor
    · rintro ⟨shorter, read⟩
      split at read
      · simp at read
      · rename_i braced
        simp only [Except.ok.injEq, Prod.mk.injEq, Subtype.mk.injEq] at read
        rcases read with ⟨rfl, rfl⟩
        exact braced
    · intro braced
      split
      · rename_i refused
        simp [braced] at refused
      · rename_i read
        simp only [braced, Except.ok.injEq, Prod.mk.injEq] at read
        rcases read with ⟨rfl, rfl⟩
        exact ⟨_, rfl⟩

theorem leaves_readAtom_of_closed {text tail after rest : Text} {range : Range}
    (start : Symbol '\x7b' text tail) (closing : Symbol '\x7d' tail after) :
    Leaves (readAtom text) range rest ↔ after = rest ∧ range = unsatisfiable := by
  rw [readAtom]
  split
  · rename_i none
    exact absurd none start.ne_nil
  · rename_i first' tail' start'
    rcases start.inj start' with ⟨rfl, rfl⟩
    rw [if_neg (by decide), if_neg (by decide), if_pos rfl]
    split
    · rename_i none
      exact absurd none closing.ne_nil
    · rename_i after' closing'
      rcases closing.inj closing' with ⟨-, rfl⟩
      constructor
      · rintro ⟨shorter, read⟩
        simp only [Except.ok.injEq, Prod.mk.injEq, Subtype.mk.injEq] at read
        exact ⟨read.2, read.1.symm⟩
      · rintro ⟨rfl, rfl⟩
        exact ⟨_, rfl⟩
    · rename_i notBrace
      exact absurd closing (notBrace after)

theorem leaves_readAtom_of_union {other : Char} {text tail more rest : Text} {range : Range}
    (start : Symbol '\x7b' text tail) (next : Symbol other tail more) (notBrace : other ≠ '\x7d') :
    Leaves (readAtom text) range rest ↔
      ∃ members, Leaves (readAlternatives tail) members rest ∧ range = unionOf members := by
  rw [readAtom]
  split
  · rename_i none
    exact absurd none start.ne_nil
  · rename_i first' tail' start'
    rcases start.inj start' with ⟨rfl, rfl⟩
    rw [if_neg (by decide), if_neg (by decide), if_pos rfl]
    split
    · rename_i none
      exact absurd none next.ne_nil
    · rename_i after closing
      exact absurd (next.inj closing).1 notBrace
    · constructor
      · rintro ⟨shorter, read⟩
        split at read
        · simp at read
        · rename_i members after alternatives
          simp only [Except.ok.injEq, Prod.mk.injEq, Subtype.mk.injEq] at read
          rcases read with ⟨rfl, rfl⟩
          exact ⟨members, ⟨after.2, alternatives⟩, rfl⟩
      · rintro ⟨members, ⟨shorter, alternatives⟩, rfl⟩
        rw [alternatives]
        exact ⟨_, rfl⟩

/-- A range is read only where one of its four forms starts. -/
theorem exists_symbol_of_leaves_readAtom {text rest : Text} {range : Range}
    (leaves : Leaves (readAtom text) range rest) :
    ∃ first tail, Symbol first text tail ∧
      (Text.isDigitCharacter first = true ∨ (first = '(' ∨ first = '[') ∨
        first = '\x7b' ∧ ∃ other more, Symbol other tail more) := by
  rcases leaves with ⟨shorter, read⟩
  rw [readAtom] at read
  split at read
  · simp at read
  · rename_i first tail start
    refine ⟨first, tail, start, ?_⟩
    split at read
    · rename_i digit
      exact Or.inl digit
    · split at read
      · rename_i opens
        exact Or.inr (Or.inl opens)
      · split at read
        · rename_i brace
          rcases next : skipBlanks tail with _ | ⟨other, more⟩
          · split at read
            · simp at read
            · rename_i after closing
              simp [next] at closing
            · rename_i notNil _
              exact absurd next notNil
          · exact Or.inr (Or.inr ⟨brace, other, more, next⟩)
        · simp at read

theorem leaves_readFactors_iff {text rest : Text} {factors : List Range} :
    Leaves (readFactors text) factors rest ↔
      ∃ factor mid, Leaves (readAtom text) factor mid ∧
        ((factors = [factor] ∧ rest = mid ∧ ∀ after, ¬Symbol '&' mid after) ∨
          ∃ next others, Symbol '&' mid next ∧ Leaves (readFactors next) others rest ∧
            factors = factor :: others) := by
  constructor
  · rintro ⟨shorter, read⟩
    rw [readFactors] at read
    split at read
    · simp at read
    · rename_i factor mid atom
      refine ⟨factor, mid.1, ⟨mid.2, atom⟩, ?_⟩
      split at read
      · rename_i next ampersand
        split at read
        · simp at read
        · rename_i others after following
          simp only [Except.ok.injEq, Prod.mk.injEq, Subtype.mk.injEq] at read
          rcases read with ⟨rfl, rfl⟩
          exact Or.inr ⟨next, others, ampersand, ⟨after.2, following⟩, rfl⟩
      · rename_i notAmpersand
        simp only [Except.ok.injEq, Prod.mk.injEq] at read
        rcases read with ⟨rfl, rfl⟩
        exact Or.inl ⟨rfl, rfl, notAmpersand⟩
  · rintro ⟨factor, mid, ⟨shorter, atom⟩, ends | continues⟩
    · rcases ends with ⟨rfl, rfl, notAmpersand⟩
      rw [readFactors, atom]
      simp only
      split
      · rename_i next ampersand
        exact absurd ampersand (notAmpersand next)
      · exact ⟨_, rfl⟩
    · rcases continues with ⟨next, others, ampersand, ⟨shorter', following⟩, rfl⟩
      rw [readFactors, atom]
      simp only
      split
      · rename_i next' ampersand'
        rcases ampersand.inj ampersand' with ⟨-, rfl⟩
        rw [following]
        exact ⟨_, rfl⟩
      · rename_i notAmpersand
        exact absurd ampersand (notAmpersand next)

theorem leaves_readAlternatives_iff {text rest : Text} {members : List Range} :
    Leaves (readAlternatives text) members rest ↔
      ∃ factors mid, Leaves (readFactors text) factors mid ∧
        ((Symbol '\x7d' mid rest ∧ members = [intersectionOf factors]) ∨
          ∃ next others, Symbol '|' mid next ∧ Leaves (readAlternatives next) others rest ∧
            members = intersectionOf factors :: others) := by
  constructor
  · rintro ⟨shorter, read⟩
    rw [readAlternatives] at read
    split at read
    · simp at read
    · rename_i factors mid first
      refine ⟨factors, mid.1, ⟨mid.2, first⟩, ?_⟩
      split at read
      · simp at read
      · rename_i after brace
        simp only [Except.ok.injEq, Prod.mk.injEq, Subtype.mk.injEq] at read
        rcases read with ⟨rfl, rfl⟩
        exact Or.inl ⟨brace, rfl⟩
      · rename_i next bar
        split at read
        · simp at read
        · rename_i others after following
          simp only [Except.ok.injEq, Prod.mk.injEq, Subtype.mk.injEq] at read
          rcases read with ⟨rfl, rfl⟩
          exact Or.inr ⟨next, others, bar, ⟨after.2, following⟩, rfl⟩
      · simp at read
  · rintro ⟨factors, mid, ⟨shorter, first⟩, ends | continues⟩
    · rcases ends with ⟨brace, rfl⟩
      rw [readAlternatives, first]
      simp only
      split
      · rename_i none
        exact absurd none brace.ne_nil
      · rename_i after brace'
        rcases brace.inj brace' with ⟨-, rfl⟩
        exact ⟨_, rfl⟩
      · rename_i next bar
        exact absurd (brace.inj bar).1 (by decide)
      · rename_i character after notBrace notBar other
        exact absurd (brace.inj other).1.symm notBrace
    · rcases continues with ⟨next, others, bar, ⟨shorter', following⟩, rfl⟩
      rw [readAlternatives, first]
      simp only
      split
      · rename_i none
        exact absurd none bar.ne_nil
      · rename_i after brace
        exact absurd (bar.inj brace).1 (by decide)
      · rename_i next' bar'
        rcases bar.inj bar' with ⟨-, rfl⟩
        rw [following]
        exact ⟨_, rfl⟩
      · rename_i character after notBrace notBar other
        exact absurd (bar.inj other).1.symm notBar

mutual

/-- What is derived is read. -/
theorem Atom.leaves : ∀ {text : Text} {range : Range} {rest : Text},
    Atom text range rest → Leaves (readAtom text) range rest
  | _, _, _, .base number => by
      rcases number.exists_digit with ⟨first, tail, start, digit⟩
      exact (leaves_readAtom_of_digit start (isDigitCharacter_of_isDigit digit)).2
        ⟨_, number, rfl⟩
  | _, _, _, .braced symbol braced =>
      (leaves_readAtom_of_opens symbol braced.opens).2 braced
  | _, _, _, .unsatisfiable opening closing =>
      (leaves_readAtom_of_closed opening closing).2 ⟨rfl, rfl⟩
  | _, _, _, .union opening alternatives => by
      rcases alternatives.exists_first with ⟨first, tail, start, notBrace⟩
      exact (leaves_readAtom_of_union opening start notBrace).2 ⟨_, alternatives.leaves, rfl⟩

theorem Factors.leaves : ∀ {text : Text} {factors : List Range} {rest : Text},
    Factors text factors rest → Leaves (readFactors text) factors rest
  | _, _, _, .last atom ends =>
      leaves_readFactors_iff.2 ⟨_, _, atom.leaves, Or.inl ⟨rfl, rfl, ends⟩⟩
  | _, _, _, .more atom ampersand following =>
      leaves_readFactors_iff.2
        ⟨_, _, atom.leaves, Or.inr ⟨_, _, ampersand, following.leaves, rfl⟩⟩

theorem Alternatives.leaves : ∀ {text : Text} {members : List Range} {rest : Text},
    Alternatives text members rest → Leaves (readAlternatives text) members rest
  | _, _, _, .last factors brace =>
      leaves_readAlternatives_iff.2 ⟨_, _, factors.leaves, Or.inl ⟨brace, rfl⟩⟩
  | _, _, _, .more factors bar following =>
      leaves_readAlternatives_iff.2
        ⟨_, _, factors.leaves, Or.inr ⟨_, _, bar, following.leaves, rfl⟩⟩

end

theorem Symbol.length_lt {character : Char} {text rest : Text}
    (symbol : Symbol character text rest) : rest.length < text.length := by
  have skipped := skipBlanks_length_le text
  rw [symbol, List.length_cons] at skipped
  omega

/-- What is read is derived, for all texts up to a length at once. -/
theorem derived_of_leaves (bound : Nat) :
    (∀ text range rest, text.length < bound → Leaves (readAtom text) range rest →
      Atom text range rest) ∧
    (∀ text factors rest, text.length < bound → Leaves (readFactors text) factors rest →
      Factors text factors rest) ∧
    (∀ text members rest, text.length < bound → Leaves (readAlternatives text) members rest →
      Alternatives text members rest) := by
  induction bound with
  | zero => simp
  | succ bound ih =>
      rcases ih with ⟨-, ihFactors, ihAlternatives⟩
      have atoms : ∀ text range rest, text.length < bound + 1 →
          Leaves (readAtom text) range rest → Atom text range rest := by
        intro text range rest short read
        rcases exists_symbol_of_leaves_readAtom read with
          ⟨first, tail, start, digit | opens | ⟨rfl, other, more, next⟩⟩
        · rcases (leaves_readAtom_of_digit start digit).1 read with ⟨version, number, rfl⟩
          exact .base number
        · exact .braced start ((leaves_readAtom_of_opens start opens).1 read)
        · rcases eq_or_ne other '\x7d' with rfl | notBrace
          · rcases (leaves_readAtom_of_closed start next).1 read with ⟨rfl, rfl⟩
            exact .unsatisfiable start next
          · rcases (leaves_readAtom_of_union start next notBrace).1 read with
              ⟨members, alternatives, rfl⟩
            have shorter := start.length_lt
            exact .union start (ihAlternatives tail members rest (by omega) alternatives)
      have factors : ∀ text factors rest, text.length < bound + 1 →
          Leaves (readFactors text) factors rest → Factors text factors rest := by
        intro text factors rest short read
        rcases leaves_readFactors_iff.1 read with
          ⟨factor, mid, atom, ⟨rfl, rfl, ends⟩ | ⟨next, others, ampersand, following, rfl⟩⟩
        · exact .last (atoms text factor rest short atom) ends
        · have shorter := ampersand.length_lt
          have shorter' := atom.choose
          exact .more (atoms text factor mid short atom) ampersand
            (ihFactors next others rest (by omega) following)
      refine ⟨atoms, factors, ?_⟩
      intro text members rest short read
      rcases leaves_readAlternatives_iff.1 read with
        ⟨list, mid, first, ⟨brace, rfl⟩ | ⟨next, others, bar, following, rfl⟩⟩
      · exact .last (factors text list mid short first) brace
      · have shorter := bar.length_lt
        have shorter' := first.choose
        exact .more (factors text list mid short first) bar
          (ihAlternatives next others rest (by omega) following)

theorem leaves_readFactors_iff_factors {text rest : Text} {factors : List Range} :
    Leaves (readFactors text) factors rest ↔ Factors text factors rest :=
  ⟨(derived_of_leaves (text.length + 1)).2.1 text factors rest (Nat.lt_succ_self _),
    Factors.leaves⟩

/-- The range of a text is the intersection of the factors that are derived from all of it. -/
theorem ofText_eq_ok_iff {text : Text} {range : Range} :
    ofText text = .ok range ↔
      ∃ factors rest, Factors text factors rest ∧ skipBlanks rest = [] ∧
        range = intersectionOf factors := by
  rw [ofText, Range.read]
  constructor
  · intro read
    split at read
    · simp [fail] at read
    · split at read
      · simp [fail] at read
      · split at read
        · rename_i range' found
          rcases Except.ok.inj read with rfl
          split at found
          · simp at found
          · rename_i factors after derivation
            split at found
            · rename_i ends
              rcases Except.ok.inj found with rfl
              exact ⟨factors, after.1, leaves_readFactors_iff_factors.1 ⟨after.2, derivation⟩,
                ends, rfl⟩
            · simp at found
        · simp [fail] at read
  · rintro ⟨factors, rest, derivation, ends, rfl⟩
    rcases derivation.leaves with ⟨shorter, read⟩
    rcases derivation.exists_first with ⟨first, tail, start, -⟩
    have notNil : text ≠ [] := by
      rintro rfl
      simp [skipBlanks] at start
    simp [notNil, start, read, ends]

end Range

end BundleDecl
