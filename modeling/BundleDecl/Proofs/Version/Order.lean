import BundleDecl.Proofs.Version
import BundleDecl.Range
import Mathlib.Data.Nat.Digits.Lemmas

/-!
# The order of version numbers

Two version numbers compare like the lists of the numbers between their dots in lexicographic order,
whatever leading zeros these have. A valid version number has none, so it is determined by this
list, and it continues another one if and only if the numbers of the other one are a beginning of
its numbers.
-/

namespace BundleDecl

theorem eq_of_map_eq_map {Item Value : Type} {value : Item → Value} {left right : List Item}
    (injective : ∀ first ∈ left, ∀ second ∈ right, value first = value second → first = second)
    (same : left.map value = right.map value) : left = right := by
  induction left generalizing right with
  | nil => simpa using same.symm
  | cons first left ih =>
      rcases right with _ | ⟨second, right⟩
      · simp at same
      · simp only [List.map_cons, List.cons.injEq] at same
        have heads : first = second :=
          injective first List.mem_cons_self second List.mem_cons_self same.1
        have tails : left = right := by
          apply ih _ same.2
          intro item itemMem other otherMem
          exact injective item (List.mem_cons_of_mem _ itemMem) other
            (List.mem_cons_of_mem _ otherMem)
        rw [heads, tails]

/-- The comparison of lists of numbers is their lexicographic order. -/
theorem compare_eq_lt_iff {left right : List Nat} : compare left right = .lt ↔ left < right :=
  (compare_eq_lt_iff_lex fun _ _ => Nat.compare_eq_lt).trans List.lex_lt

namespace Text

theorem toNat_of_isDigit {digit : Char} (isDigit : digit.isDigit = true) :
    48 ≤ digit.toNat ∧ digit.toNat ≤ 57 :=
  Char.isDigit_iff_toNat.1 isDigit

/-- The digits of a number that does not start with zero are the digits of its value. -/
theorem digits_toNat {digits : Text} (isDigit : ∀ digit ∈ digits, digit.isDigit = true)
    (first : digits.head? ≠ some '0') :
    Nat.digits 10 (toNat digits 0) = (digits.map fun digit => digit.toNat - 48).reverse := by
  have value : toNat digits 0 =
      Nat.ofDigits 10 (digits.map fun digit => digit.toNat - 48).reverse := by
    simp [toNat, Nat.ofDigits_eq_foldr, List.foldl_map, Nat.add_comm]
  rw [value]
  apply Nat.digits_ofDigits 10 (by decide)
  · intro number member
    simp only [List.mem_reverse, List.mem_map] at member
    rcases member with ⟨digit, digitMem, rfl⟩
    have bounds := toNat_of_isDigit (isDigit digit digitMem)
    omega
  · intro nonempty
    rcases digits with _ | ⟨digit, digits⟩
    · exact absurd rfl nonempty
    · have bounds := toNat_of_isDigit (isDigit digit List.mem_cons_self)
      have notZero : digit.toNat ≠ 48 := by
        intro same
        have zero : digit = '0' := Char.toNat_inj.1 same
        simp [zero] at first
      simp
      omega

theorem joinWith_append {separator : Text} {before after : List Text} (beforeNonempty : before ≠ [])
    (afterNonempty : after ≠ []) :
    joinWith separator (before ++ after) =
      joinWith separator before ++ separator ++ joinWith separator after := by
  induction before with
  | nil => contradiction
  | cons piece before ih =>
      rcases before with _ | ⟨next, before⟩
      · rcases after with _ | ⟨first, after⟩
        · contradiction
        · rfl
      · have following := ih (List.cons_ne_nil _ _)
        simp only [List.cons_append, joinWith, List.append_assoc] at following ⊢
        rw [following]

end Text

namespace Version

/-- The numbers between the dots of a version. -/
def numbers (version : Text) : List Nat :=
  (Text.splitOn '.' version).map (Text.toNat · 0)

/-- A canonical number is zero, or its digits are the digits of its value. -/
theorem eq_zero_or_digits_toNat {digits : Text} (canonical : isCanonicalNumber digits = true) :
    digits = ['0'] ∨ digits ≠ [] ∧
      Nat.digits 10 (Text.toNat digits 0) =
        (digits.map fun digit => digit.toNat - 48).reverse := by
  have isDigit : ∀ digit ∈ digits, digit.isDigit = true := by
    intro digit member
    exact mem_of_isCanonicalNumber canonical member
  simp only [isCanonicalNumber, isNumber, Bool.and_eq_true, Bool.or_eq_true, decide_eq_true_eq,
    bne_iff_ne, Bool.not_eq_true', List.isEmpty_eq_false_iff] at canonical
  rcases canonical with ⟨⟨nonempty, -⟩, zero | first⟩
  · exact Or.inl zero
  · exact Or.inr ⟨nonempty, Text.digits_toNat isDigit first⟩

/-- A canonical number is determined by its value. -/
theorem toNat_inj {left right : Text} (leftCanonical : isCanonicalNumber left = true)
    (rightCanonical : isCanonicalNumber right = true)
    (same : Text.toNat left 0 = Text.toNat right 0) : left = right := by
  rcases eq_zero_or_digits_toNat leftCanonical with rfl | ⟨leftNonempty, leftDigits⟩
  · rcases eq_zero_or_digits_toNat rightCanonical with rfl | ⟨rightNonempty, rightDigits⟩
    · rfl
    · rw [← same] at rightDigits
      have empty : right = [] := by
        simpa [Text.toNat] using rightDigits
      contradiction
  · rcases eq_zero_or_digits_toNat rightCanonical with rfl | ⟨rightNonempty, rightDigits⟩
    · rw [same] at leftDigits
      have empty : left = [] := by
        simpa [Text.toNat] using leftDigits
      contradiction
    · rw [same, rightDigits] at leftDigits
      apply eq_of_map_eq_map _ (List.reverse_inj.1 leftDigits).symm
      intro first firstMem second secondMem value
      have firstBounds := Text.toNat_of_isDigit (mem_of_isCanonicalNumber leftCanonical firstMem)
      have secondBounds := Text.toNat_of_isDigit (mem_of_isCanonicalNumber rightCanonical secondMem)
      apply Char.toNat_inj.1
      omega

theorem isCanonicalNumber_of_mem {version piece : Text} (valid : isValid version = true)
    (member : piece ∈ Text.splitOn '.' version) : isCanonicalNumber piece = true := by
  simp only [isValid, List.all_eq_true] at valid
  exact valid piece member

/-- A valid version is determined by its numbers. -/
theorem numbers_inj {left right : Text} (leftValid : isValid left = true)
    (rightValid : isValid right = true) (same : numbers left = numbers right) : left = right := by
  have pieces : Text.splitOn '.' left = Text.splitOn '.' right := by
    apply eq_of_map_eq_map _ same
    intro first firstMem second secondMem
    exact toNat_inj (isCanonicalNumber_of_mem leftValid firstMem)
      (isCanonicalNumber_of_mem rightValid secondMem)
  have joined := congrArg (Text.joinWith ['.']) pieces
  simpa [Text.joinWith_splitOn] using joined

/-- Decimal numbers between dots, which may start with zeros. -/
def IsNumeric (version : Text) : Prop :=
  ∃ pieces : List Text, pieces ≠ [] ∧ (∀ piece ∈ pieces, isNumber piece = true) ∧
    version = Text.joinWith ['.'] pieces

theorem isNumeric_iff {version : Text} :
    IsNumeric version ↔ ∀ piece ∈ Text.splitOn '.' version, isNumber piece = true := by
  apply Text.separated_iff
  intro piece number dot
  simp only [isNumber, Bool.and_eq_true, List.all_eq_true] at number
  exact absurd (number.2 '.' dot) (by decide)

theorem isNumeric_of_isValid {version : Text} (valid : isValid version = true) :
    IsNumeric version := by
  apply isNumeric_iff.2
  intro piece member
  have canonical := isCanonicalNumber_of_mem valid member
  simp only [isCanonicalNumber, Bool.and_eq_true] at canonical
  exact canonical.1

theorem IsNumeric.ne_nil {version : Text} (numeric : IsNumeric version) : version ≠ [] := by
  rintro rfl
  exact absurd (isNumeric_iff.1 numeric [] List.mem_cons_self) (by decide)

theorem IsNumeric.components {version : Text} (numeric : IsNumeric version) :
    components version = .ok (numbers version) := by
  have isNumber := List.all_eq_true.2 (isNumeric_iff.1 numeric)
  simp only [Version.components, components?, isNumber, if_true]
  rfl

/-- Versions compare like their numbers. -/
theorem IsNumeric.compareNumbers {left right : Text} (leftNumeric : IsNumeric left)
    (rightNumeric : IsNumeric right) :
    compareNumbers left right = .ok (compare (numbers left) (numbers right)) := by
  have nonempty : ¬(left = [] ∨ right = []) := by
    simp [leftNumeric.ne_nil, rightNumeric.ne_nil]
  rw [Version.compareNumbers, if_neg nonempty, compareTexts]
  by_cases same : left = right
  · simp [same, pure, Except.pure]
  · simp [same, leftNumeric.components, rightNumeric.components, bind, Except.bind, pure,
      Except.pure]

theorem compareNumbers_of_isValid {left right : Text} (leftValid : isValid left = true)
    (rightValid : isValid right = true) :
    compareNumbers left right = .ok (compare (numbers left) (numbers right)) :=
  (isNumeric_of_isValid leftValid).compareNumbers (isNumeric_of_isValid rightValid)

theorem IsNumeric.isBelow_iff {left right : Text} (leftNumeric : IsNumeric left)
    (rightNumeric : IsNumeric right) :
    isBelow left right = true ↔ numbers left < numbers right := by
  rw [isBelow, leftNumeric.compareNumbers rightNumeric, ← compare_eq_lt_iff]
  split
  · simp_all
  · simp_all

theorem isBelow_iff {left right : Text} (leftValid : isValid left = true)
    (rightValid : isValid right = true) :
    isBelow left right = true ↔ numbers left < numbers right :=
  (isNumeric_of_isValid leftValid).isBelow_iff (isNumeric_of_isValid rightValid)

end Version

namespace Range

/-- The text of a version continues another text if its pieces between dots do. -/
theorem continues_iff {base version : Text} :
    continues base version = true ↔
      ∃ more, more ≠ [] ∧ Text.splitOn '.' version = Text.splitOn '.' base ++ more := by
  rw [continues, List.isPrefixOf_iff_prefix]
  constructor
  · rintro ⟨after, rfl⟩
    refine ⟨Text.splitOn '.' after, Text.splitWhere_ne_nil _ after, ?_⟩
    have text : base ++ "." ++ after = base ++ '.' :: after := List.append_assoc _ _ _
    rw [text]
    exact Text.splitWhere_append_cons (decide_eq_true rfl) base after
  · rintro ⟨more, nonempty, pieces⟩
    have joined := congrArg (Text.joinWith ['.']) pieces
    have baseNonempty : Text.splitOn '.' base ≠ [] := Text.splitWhere_ne_nil _ base
    rw [Text.joinWith_append baseNonempty nonempty, Text.joinWith_splitOn,
      Text.joinWith_splitOn] at joined
    exact ⟨Text.joinWith ['.'] more, joined.symm⟩

theorem isPrefix_of_continues {base version : Text} (following : continues base version = true) :
    Version.numbers base <+: Version.numbers version := by
  rcases continues_iff.1 following with ⟨more, -, pieces⟩
  exact ⟨more.map (Text.toNat · 0), by rw [Version.numbers, Version.numbers, pieces,
    List.map_append]⟩

/-- A version is a given one or a greater one that continues it if and only if the numbers of the
given one are a beginning of its numbers. -/
theorem isPrefix_numbers_iff {base version : Text} (baseValid : Version.isValid base = true)
    (versionValid : Version.isValid version = true) :
    (compare (Version.numbers base) (Version.numbers version) = .eq ∨
        compare (Version.numbers base) (Version.numbers version) = .lt ∧
          continues base version = true) ↔
      Version.numbers base <+: Version.numbers version := by
  rw [compare_eq_lt_iff, Std.LawfulEqCmp.compare_eq_iff_eq]
  constructor
  · rintro (same | ⟨-, following⟩)
    · rw [same]
    · exact isPrefix_of_continues following
  · rintro ⟨more, numbers⟩
    by_cases same : Version.numbers base = Version.numbers version
    · exact Or.inl same
    · have below : Version.numbers base < Version.numbers version := by
        rcases List.le_iff_lt_or_eq.1 (List.IsPrefix.le ⟨more, numbers⟩) with below | equal
        · exact below
        · contradiction
      refine Or.inr ⟨below, continues_iff.2 ?_⟩
      have split := numbers.symm
      rw [Version.numbers, List.map_eq_append_iff] at split
      rcases split with ⟨before, after, pieces, beforeNumbers, rfl⟩
      have known : before = Text.splitOn '.' base := by
        apply eq_of_map_eq_map _ beforeNumbers
        intro first firstMem second secondMem
        exact Version.toNat_inj
          (Version.isCanonicalNumber_of_mem versionValid (by simp [pieces, firstMem]))
          (Version.isCanonicalNumber_of_mem baseValid secondMem)
      refine ⟨after, ?_, known ▸ pieces⟩
      rintro rfl
      simp at numbers
      contradiction

end Range

end BundleDecl
