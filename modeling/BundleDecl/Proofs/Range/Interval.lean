import BundleDecl.Proofs.Range.Includes
import BundleDecl.Proofs.Version.Successor
import Mathlib.Order.Interval.Set.OrdConnected

/-!
# Simple ranges as intervals

A simple range includes an interval of versions. A version alone stands for the interval up to the
version whose last number is greater by one, a version in braces for the interval up to its
successor, and a bounded range for what its two bounds have in common. So a version that lies
between two versions of a simple range belongs to that range as well.
-/

namespace BundleDecl

namespace Text

theorem head?_ofNat_ne_zero {number : Nat} (positive : 0 < number) :
    (ofNat number).head? ≠ some '0' := by
  induction number using Nat.strongRecOn with
  | ind number ih =>
      by_cases digit : number < 10
      · have oneDigit : ∀ digit < 10, 0 < digit → [Nat.digitChar digit].head? ≠ some '0' := by
          decide
        rw [ofNat, Nat.toDigits_of_lt_base digit]
        exact oneDigit number digit positive
      · have beginning : ofNat number = ofNat (number / 10) ++ [(number % 10).digitChar] :=
          Nat.toDigits_of_base_le (by decide) (by omega)
        have nonempty : ofNat (number / 10) ≠ [] := Nat.toDigits_ne_nil
        rw [beginning, List.head?_append_of_ne_nil _ nonempty]
        exact ih (number / 10) (by omega) (by omega)

end Text

namespace Version

/-- The version with its last number greater by one. -/
def increment (version : Text) : Text :=
  let pieces := Text.splitOn '.' version
  Text.joinWith ['.'] (pieces.dropLast ++ [Text.ofNat (Text.toNat (pieces.getLastD []) 0 + 1)])

theorem isCanonicalNumber_ofNat {number : Nat} (positive : 0 < number) :
    isCanonicalNumber (Text.ofNat number) = true := by
  have isNumber : isNumber (Text.ofNat number) = true := by
    rw [Version.isNumber, Bool.and_eq_true, List.all_eq_true]
    refine ⟨by simp [Text.ofNat, Nat.toDigits_ne_nil], ?_⟩
    intro digit member
    exact Nat.isDigit_of_mem_toDigits (by decide) (by decide) member
  rw [isCanonicalNumber, isNumber, Bool.true_and, Bool.or_eq_true]
  exact Or.inr (by simpa using Text.head?_ofNat_ne_zero positive)

theorem splitOn_increment {version : Text} (valid : isValid version = true) :
    Text.splitOn '.' (increment version) =
      (Text.splitOn '.' version).dropLast ++
        [Text.ofNat (Text.toNat ((Text.splitOn '.' version).getLastD []) 0 + 1)] := by
  apply Text.splitOn_joinWith (List.append_ne_nil_of_right_ne_nil _ (List.cons_ne_nil _ _))
  intro piece member
  rw [List.mem_append, List.mem_singleton] at member
  rcases member with member | rfl
  · exact dot_notMem_of_isCanonicalNumber
      (isCanonicalNumber_of_mem valid (List.mem_of_mem_dropLast member))
  · exact dot_notMem_of_isCanonicalNumber (isCanonicalNumber_ofNat (Nat.succ_pos _))

theorem isValid_increment {version : Text} (valid : isValid version = true) :
    isValid (increment version) = true := by
  rw [isValid, splitOn_increment valid, List.all_append, Bool.and_eq_true, List.all_eq_true]
  constructor
  · intro piece member
    exact isCanonicalNumber_of_mem valid (List.mem_of_mem_dropLast member)
  · simp [isCanonicalNumber_ofNat]

/-- The numbers of a version and those of its increment differ in the last number only. -/
theorem exists_numbers_increment {version : Text} (valid : isValid version = true) :
    ∃ before last, numbers version = before ++ [last] ∧
      numbers (increment version) = before ++ [last + 1] := by
  have nonempty : Text.splitOn '.' version ≠ [] := Text.splitWhere_ne_nil _ version
  rcases List.eq_nil_or_concat (Text.splitOn '.' version) with none | ⟨before, last, pieces⟩
  · contradiction
  · refine ⟨before.map (Text.toNat · 0), Text.toNat last 0, ?_, ?_⟩
    · simp [numbers, pieces]
    · have value : Text.toNat (Text.ofNat (Text.toNat last 0 + 1)) 0 = Text.toNat last 0 + 1 :=
        Nat.ofDigitChars_ten_toDigits
      rw [numbers, splitOn_increment valid, pieces]
      simp [value]

theorem eq_iff_numbers_eq {left right : Text} (leftValid : isValid left = true)
    (rightValid : isValid right = true) : left = right ↔ numbers left = numbers right :=
  ⟨congrArg numbers, numbers_inj leftValid rightValid⟩

end Version

/-- A list continues another one if and only if it lies between that list and the same list with its
last number greater by one. -/
theorem isPrefix_iff_mem_Ico {before numbers : List Nat} {last : Nat} :
    before ++ [last] <+: numbers ↔ numbers ∈ Set.Ico (before ++ [last]) (before ++ [last + 1]) := by
  rw [Set.mem_Ico, ← not_lt]
  -- Both ends share the numbers before the last one, so a list between them shares them as well.
  induction before generalizing numbers with
  | nil =>
      cases numbers with
      | nil => simp
      | cons first numbers =>
          simp only [List.nil_append, List.cons_prefix_cons, List.nil_prefix,
            List.cons_lt_cons_iff, List.not_lt_nil, and_true, and_false, or_false]
          omega
  | cons head before ih =>
      cases numbers with
      | nil => simp
      | cons first numbers =>
          simp only [List.cons_append, List.cons_prefix_cons, List.cons_lt_cons_iff, ih]
          rcases lt_trichotomy head first with lower | rfl | higher
          · simp [lower.ne, lower.ne', lower.not_gt]
          · simp
          · simp [higher.ne, higher.ne', higher]

namespace Range

variable {version : Text}

theorem Decides.includes_eq {left right : Range} {statement : Prop}
    (leftDecides : Decides version left statement)
    (rightDecides : Decides version right statement) :
    includes version left = includes version right := by
  rcases leftDecides with ⟨leftIncluded, leftAnswer, leftMeaning⟩
  rcases rightDecides with ⟨rightIncluded, rightAnswer, rightMeaning⟩
  rw [leftAnswer, rightAnswer, Bool.eq_iff_iff.2 (leftMeaning.trans rightMeaning.symm)]

theorem lt_or_eq_iff {left right : Text} (leftValid : Version.isValid left = true)
    (rightValid : Version.isValid right = true) :
    (Version.numbers left < Version.numbers right ∨ left = right) ↔
      Version.numbers left ≤ Version.numbers right := by
  rw [Version.eq_iff_numbers_eq leftValid rightValid, le_iff_lt_or_eq]

theorem decides_Ico {left right : Text} (leftValid : Version.isValid left = true)
    (rightValid : Version.isValid right = true) (valid : Version.isValid version = true) :
    Decides version (bounded left right true false)
      (Version.numbers version ∈ Set.Ico (Version.numbers left) (Version.numbers right)) := by
  apply (decides_bounded true false leftValid rightValid valid).congr
  simp only [true_and, Bool.false_eq_true, false_and, or_false, Set.mem_Ico,
    ← lt_or_eq_iff leftValid valid, @eq_comm _ version]

/-- A version alone includes what the interval up to its increment includes. -/
theorem includes_base {bound : Text} (boundValid : Version.isValid bound = true)
    (valid : Version.isValid version = true) :
    includes version (base bound) =
      includes version (bounded bound (Version.increment bound) true false) := by
  have interval := decides_Ico boundValid (Version.isValid_increment boundValid) valid
  rcases Version.exists_numbers_increment boundValid with ⟨before, last, numbers, incremented⟩
  rw [numbers, incremented, ← isPrefix_iff_mem_Ico, ← numbers] at interval
  exact (decides_base boundValid valid).includes_eq interval

/-- A version in braces includes what the interval up to its successor includes. -/
theorem includes_exact {bound : Text} (boundValid : Version.isValid bound = true)
    (valid : Version.isValid version = true) :
    includes version (exact bound) =
      includes version (bounded bound (bound ++ ".0".toList) true false) := by
  have interval := decides_Ico boundValid (Version.isValid_append_zero boundValid) valid
  apply (decides_exact bound).includes_eq (interval.congr _)
  rw [Set.mem_Ico, Version.numbers_append_zero, Version.eq_iff_numbers_eq valid boundValid]
  constructor
  · rintro ⟨above, below⟩
    rcases le_iff_lt_or_eq.1 above with above | same
    · exact absurd below (not_lt.2 (append_zero_le_of_lt above))
    · exact same.symm
  · intro same
    rw [same]
    exact ⟨le_refl _, lt_append_zero _⟩

/-- A bounded range includes what both of its bounds admit. -/
theorem includes_bounded_iff {left right : Text} (leftIncluded rightIncluded : Bool)
    (leftValid : Version.isValid left = true) (rightValid : Version.isValid right = true)
    (valid : Version.isValid version = true) :
    includes version (bounded left right leftIncluded rightIncluded) = .ok true ↔
      (includes version (minimum left) = .ok true ∧ (leftIncluded = true ∨ version ≠ left)) ∧
        includes version (maximum right) = .ok true ∧ (rightIncluded = true ∨ version ≠ right) := by
  rw [(decides_bounded leftIncluded rightIncluded leftValid rightValid valid).includes_iff,
    (decides_minimum leftValid valid).includes_iff,
    (decides_maximum rightValid valid).includes_iff]
  have notLeft : Version.numbers left < Version.numbers version → version ≠ left := by
    rintro below rfl
    exact absurd below (lt_irrefl _)
  have notRight : Version.numbers version < Version.numbers right → version ≠ right := by
    rintro below rfl
    exact absurd below (lt_irrefl _)
  tauto

/-- The lists of numbers above a bound, and the bound itself if it is included. -/
def aboveBound (included : Bool) (bound : Text) : Set (List Nat) :=
  {numbers | Version.numbers bound < numbers ∨ included = true ∧ numbers = Version.numbers bound}

/-- The lists of numbers below a bound, and the bound itself if it is included. -/
def belowBound (included : Bool) (bound : Text) : Set (List Nat) :=
  {numbers | numbers < Version.numbers bound ∨ included = true ∧ numbers = Version.numbers bound}

theorem ordConnected_aboveBound (included : Bool) (bound : Text) :
    (aboveBound included bound).OrdConnected := by
  constructor
  rintro first (above | ⟨included, rfl⟩) last - middle ⟨after, -⟩
  · exact Or.inl (lt_of_lt_of_le above after)
  · rcases lt_or_eq_of_le after with above | same
    · exact Or.inl above
    · exact Or.inr ⟨included, same.symm⟩

theorem ordConnected_belowBound (included : Bool) (bound : Text) :
    (belowBound included bound).OrdConnected := by
  constructor
  rintro first - last (below | ⟨included, rfl⟩) middle ⟨-, before⟩
  · exact Or.inl (lt_of_le_of_lt before below)
  · rcases lt_or_eq_of_le before with below | same
    · exact Or.inl below
    · exact Or.inr ⟨included, same⟩

/-- A simple range includes the versions whose numbers belong to an interval. -/
theorem Simple.exists_interval {range : Range} (simple : range.Simple) :
    ∃ interval : Set (List Nat), interval.OrdConnected ∧ ∀ version : Text,
      Version.isValid version = true →
        Decides version range (Version.numbers version ∈ interval) := by
  cases simple with
  | @base bound boundValid =>
      rcases Version.exists_numbers_increment boundValid with ⟨before, last, numbers, -⟩
      refine ⟨Set.Ico (before ++ [last]) (before ++ [last + 1]), Set.ordConnected_Ico, ?_⟩
      intro version valid
      rw [← isPrefix_iff_mem_Ico, ← numbers]
      exact decides_base boundValid valid
  | @exact bound boundValid =>
      refine ⟨{Version.numbers bound}, Set.ordConnected_singleton, ?_⟩
      intro version valid
      exact (decides_exact bound).congr (Version.eq_iff_numbers_eq valid boundValid)
  | @minimum bound boundValid =>
      refine ⟨aboveBound true bound, ordConnected_aboveBound true bound, ?_⟩
      intro version valid
      apply (decides_minimum boundValid valid).congr
      simp [aboveBound, Version.eq_iff_numbers_eq valid boundValid]
  | @maximum bound boundValid =>
      refine ⟨belowBound true bound, ordConnected_belowBound true bound, ?_⟩
      intro version valid
      apply (decides_maximum boundValid valid).congr
      simp [belowBound, Version.eq_iff_numbers_eq valid boundValid]
  | @bounded left right leftIncluded rightIncluded leftValid rightValid =>
      refine ⟨aboveBound leftIncluded left ∩ belowBound rightIncluded right,
        (ordConnected_aboveBound leftIncluded left).inter
          (ordConnected_belowBound rightIncluded right), ?_⟩
      intro version valid
      apply (decides_bounded leftIncluded rightIncluded leftValid rightValid valid).congr
      simp [aboveBound, belowBound, Version.eq_iff_numbers_eq valid leftValid,
        Version.eq_iff_numbers_eq valid rightValid]

/-- A simple range includes every version between two versions that it includes. -/
theorem Simple.includes_between {range : Range} (simple : range.Simple) {first middle last : Text}
    (firstValid : Version.isValid first = true) (middleValid : Version.isValid middle = true)
    (lastValid : Version.isValid last = true) (after : Version.AtMost first middle)
    (before : Version.AtMost middle last) (firstIncluded : includes first range = .ok true)
    (lastIncluded : includes last range = .ok true) : includes middle range = .ok true := by
  rcases simple.exists_interval with ⟨interval, connected, decides⟩
  rw [(decides first firstValid).includes_iff] at firstIncluded
  rw [(decides last lastValid).includes_iff] at lastIncluded
  rw [(decides middle middleValid).includes_iff]
  have firstNumeric := Version.isNumeric_of_isValid firstValid
  have middleNumeric := Version.isNumeric_of_isValid middleValid
  have lastNumeric := Version.isNumeric_of_isValid lastValid
  exact connected.out firstIncluded lastIncluded
    ⟨(firstNumeric.atMost_iff middleNumeric).1 after,
      (middleNumeric.atMost_iff lastNumeric).1 before⟩

/-- Simple ranges are intervals of versions. A version alone and a version in braces include what an
interval includes, a bounded range what its bounds admit, and no simple range has a gap. -/
theorem includes_simple {bound left right version : Text}
    (boundValid : Version.isValid bound = true) (leftValid : Version.isValid left = true)
    (rightValid : Version.isValid right = true) (valid : Version.isValid version = true) :
    Decides version (base bound) (Version.numbers bound <+: Version.numbers version) ∧
      (Version.isValid (Version.increment bound) = true ∧
        includes version (base bound) =
          includes version (bounded bound (Version.increment bound) true false)) ∧
      (∃ successor, Version.next bound = .ok successor ∧
        includes version (exact bound) =
          includes version (bounded bound successor true false)) ∧
      (∀ leftIncluded rightIncluded,
        Decides version (bounded left right leftIncluded rightIncluded)
          ((includes version (minimum left) = .ok true ∧
              (leftIncluded = true ∨ version ≠ left)) ∧
            includes version (maximum right) = .ok true ∧
              (rightIncluded = true ∨ version ≠ right))) ∧
      ∀ range : Range, range.Simple → ∀ first last,
        Version.isValid first = true → Version.isValid last = true →
        Version.AtMost first version → Version.AtMost version last →
        includes first range = .ok true → includes last range = .ok true →
          includes version range = .ok true := by
  refine ⟨decides_base boundValid valid,
    ⟨Version.isValid_increment boundValid, includes_base boundValid valid⟩, ?_, ?_, ?_⟩
  · refine ⟨bound ++ ".0".toList, ?_, includes_exact boundValid valid⟩
    rw [Version.next, if_neg (Version.ne_nil_of_isValid boundValid)]
  · intro leftIncluded rightIncluded
    have decides := decides_bounded leftIncluded rightIncluded leftValid rightValid valid
    apply decides.congr
    rw [← decides.includes_iff]
    exact includes_bounded_iff leftIncluded rightIncluded leftValid rightValid valid
  · intro range simple first last firstValid lastValid after before
    exact simple.includes_between firstValid valid lastValid after before

theorem includes_simple_long_numbers :
    let bound := "1.9".toList
    let version := "1.9.123456789012345678901234567890".toList
    includes version (base bound) = includes version (bounded bound "1.10".toList true false) ∧
      includes version (exact bound) = includes version (bounded bound "1.9.0".toList true false) ∧
      includes version (bounded bound "1.10".toList false false) = .ok true := by
  intro bound version
  have simple := @includes_simple bound bound "1.10".toList version rfl rfl rfl rfl
  have increment : Version.increment bound = "1.10".toList := by decide
  rcases simple with ⟨-, ⟨-, interval⟩, ⟨successor, next, single⟩, between, -⟩
  rw [increment] at interval
  rcases Except.ok.inj next with rfl
  refine ⟨interval, single, (between false false).includes_iff.2 ⟨⟨by decide, ?_⟩, by decide, ?_⟩⟩
  · exact Or.inr (by decide)
  · exact Or.inr (by decide)

end Range

end BundleDecl
