import BundleDecl.Proofs.Text
import BundleDecl.Version

/-!
# The form of version numbers

A valid version number consists of decimal numbers between dots. So it is made of digits and dots
and starts with a digit, which is all that readers of longer texts need to know about it.
-/

namespace BundleDecl

namespace Version

theorem mem_of_isCanonicalNumber {digits : Text} (canonical : isCanonicalNumber digits = true)
    {character : Char} (member : character ∈ digits) : character.isDigit = true := by
  simp only [isCanonicalNumber, isNumber, Bool.and_eq_true, List.all_eq_true] at canonical
  exact canonical.1.2 character member

theorem dot_notMem_of_isCanonicalNumber {piece : Text}
    (canonical : isCanonicalNumber piece = true) : '.' ∉ piece :=
  fun member => absurd (mem_of_isCanonicalNumber canonical member) (by decide)

/-- A decimal number: zero, or digits of which the first is not zero. -/
inductive Decimal : Text → Prop
  | zero : Decimal ['0']
  | positive {first : Char} {rest : Text} : first.isDigit = true → first ≠ '0' →
      (∀ digit ∈ rest, digit.isDigit = true) → Decimal (first :: rest)

theorem isCanonicalNumber_iff {digits : Text} :
    isCanonicalNumber digits = true ↔ Decimal digits := by
  constructor
  · intro canonical
    have isDigit : ∀ digit ∈ digits, digit.isDigit = true := by
      intro digit
      exact mem_of_isCanonicalNumber canonical
    rcases digits with _ | ⟨first, rest⟩
    · exact absurd canonical (by decide)
    · rw [List.forall_mem_cons] at isDigit
      by_cases zero : first :: rest = ['0']
      · rw [zero]
        exact .zero
      · refine .positive isDigit.1 ?_ isDigit.2
        rintro rfl
        simp [isCanonicalNumber, zero] at canonical
  · intro decimal
    cases decimal with
    | zero => decide
    | positive isDigit notZero others =>
        simp only [isCanonicalNumber, isNumber, List.isEmpty_cons, List.all_cons, isDigit,
          List.all_eq_true.2 others]
        simp [notZero]

theorem isValid_iff_separated {version : Text} :
    isValid version = true ↔ Text.Separated '.' Decimal version := by
  rw [Text.separated_iff, isValid, List.all_eq_true]
  · simp only [isCanonicalNumber_iff]
  · intro piece decimal dot
    exact absurd (mem_of_isCanonicalNumber (isCanonicalNumber_iff.2 decimal) dot) (by decide)

/-- A valid version number consists of digits and dots. -/
theorem isDigit_or_eq_dot_of_isValid {version : Text} (valid : isValid version = true)
    {character : Char} (member : character ∈ version) :
    character.isDigit = true ∨ character = '.' := by
  simp only [isValid, List.all_eq_true] at valid
  rcases Text.mem_splitOn '.' member with dot | ⟨piece, pieceMem, charMem⟩
  · exact Or.inr dot
  · exact Or.inl (mem_of_isCanonicalNumber (valid piece pieceMem) charMem)

/-- A valid version number starts with a digit. -/
theorem exists_digit_of_isValid {version : Text} (valid : isValid version = true) :
    ∃ first rest, version = first :: rest ∧ first.isDigit = true := by
  rcases version with _ | ⟨first, rest⟩
  · exact absurd valid (by decide)
  · refine ⟨first, rest, rfl, ?_⟩
    rcases isDigit_or_eq_dot_of_isValid valid (List.mem_cons_self (a := first)) with digit | rfl
    · exact digit
    · simp [isValid, Text.splitOn, Text.splitWhere, isCanonicalNumber, isNumber] at valid

theorem ne_nil_of_isValid {version : Text} (valid : isValid version = true) : version ≠ [] := by
  rintro rfl
  exact absurd valid (by decide)

/-- What follows the mark of a version qualifier is a valid version number. -/
theorem isValid_tail {qualifier : Text} (versioned : isQualifier qualifier = true) :
    isValid qualifier.tail = true := by
  rcases qualifier with _ | ⟨mark, number⟩
  · exact absurd versioned (by decide)
  · simp only [isQualifier, Bool.and_eq_true] at versioned
    exact versioned.2

end Version

end BundleDecl
