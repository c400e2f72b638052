import BundleDecl.Proofs.Version.Order

/-!
# The linear order of version numbers

Comparing version numbers never fails, also with leading zeros, and it orders them linearly up to
such zeros. A version followed by `.0` is the least one above it: nothing lies between a list of
numbers and the same list with a zero at its end. The mark of a version qualifier does not matter.
-/

namespace BundleDecl

theorem isLE_compare_iff {left right : List Nat} :
    (compare left right).isLE = true ↔ left ≤ right := by
  rw [← not_lt, ← compare_eq_lt_iff, @Std.OrientedCmp.eq_swap _ compare _ right left]
  cases compare left right <;> simp

theorem lt_append_zero (numbers : List Nat) : numbers < numbers ++ [0] := by
  induction numbers with
  | nil => exact List.nil_lt_cons 0 []
  | cons first numbers ih => exact List.cons_lt_cons_iff.2 (Or.inr ⟨rfl, ih⟩)

/-- Nothing lies between a list of numbers and the same list with a zero at its end. -/
theorem append_zero_le_of_lt {left right : List Nat} (below : left < right) :
    left ++ [0] ≤ right := by
  rw [← not_lt]
  induction left generalizing right with
  | nil =>
      cases right with
      | nil => exact absurd below (lt_irrefl [])
      | cons first right =>
          intro between
          rcases List.cons_lt_cons_iff.1 between with negative | ⟨-, shorter⟩
          · exact absurd negative (Nat.not_lt_zero first)
          · exact absurd shorter (List.not_lt_nil right)
  | cons first left ih =>
      cases right with
      | nil => exact absurd below (List.not_lt_nil _)
      | cons second right =>
          rw [List.cons_append, List.cons_lt_cons_iff]
          rcases List.cons_lt_cons_iff.1 below with lower | ⟨rfl, tails⟩
          · rintro (higher | ⟨rfl, -⟩)
            · exact absurd lower (lt_asymm higher)
            · exact absurd lower (lt_irrefl second)
          · rintro (higher | ⟨-, between⟩)
            · exact absurd higher (lt_irrefl first)
            · exact ih tails between

namespace Version

/-- Comparing two versions succeeds and does not find the first one greater. -/
def AtMost (left right : Text) : Prop :=
  ∃ order, compareNumbers left right = .ok order ∧ order.isLE = true

theorem IsNumeric.atMost_iff {left right : Text} (leftNumeric : IsNumeric left)
    (rightNumeric : IsNumeric right) : AtMost left right ↔ numbers left ≤ numbers right := by
  rw [← isLE_compare_iff, AtMost, leftNumeric.compareNumbers rightNumeric]
  simp

theorem IsNumeric.compareNumbers_swap {left right : Text} (leftNumeric : IsNumeric left)
    (rightNumeric : IsNumeric right) :
    ∃ order, Version.compareNumbers left right = .ok order ∧
      Version.compareNumbers right left = .ok order.swap := by
  refine ⟨_, leftNumeric.compareNumbers rightNumeric, ?_⟩
  rw [rightNumeric.compareNumbers leftNumeric, ← Std.OrientedCmp.eq_swap]

theorem splitOn_append_zero (version : Text) :
    Text.splitOn '.' (version ++ ".0".toList) = Text.splitOn '.' version ++ [['0']] :=
  Text.splitWhere_append_cons (decide_eq_true rfl) version ['0']

theorem numbers_append_zero (version : Text) :
    numbers (version ++ ".0".toList) = numbers version ++ [0] := by
  rw [numbers, splitOn_append_zero, List.map_append]
  rfl

theorem IsNumeric.append_zero {version : Text} (numeric : IsNumeric version) :
    IsNumeric (version ++ ".0".toList) := by
  apply isNumeric_iff.2
  intro piece member
  rw [splitOn_append_zero, List.mem_append, List.mem_singleton] at member
  rcases member with member | rfl
  · exact isNumeric_iff.1 numeric piece member
  · rfl

theorem isValid_append_zero {version : Text} (valid : isValid version = true) :
    isValid (version ++ ".0".toList) = true := by
  rw [isValid, splitOn_append_zero, List.all_append, Bool.and_eq_true]
  exact ⟨valid, rfl⟩

/-- What a successor of a version is: the least version above it. -/
structure Succeeds (successor version : Text) : Prop where
  numeric : IsNumeric successor
  above : isBelow version successor = true
  least : ∀ other, IsNumeric other → isBelow version other = true → AtMost successor other
  longer : ∃ count, componentCount version = .ok count ∧ componentCount successor = .ok (count + 1)
  valid : isValid version = true → isValid successor = true

theorem IsNumeric.exists_successor {version : Text} (numeric : IsNumeric version) :
    ∃ successor, next version = .ok successor ∧ Succeeds successor version := by
  refine ⟨version ++ ".0".toList, by rw [next, if_neg numeric.ne_nil], ?_⟩
  constructor
  · exact numeric.append_zero
  · rw [numeric.isBelow_iff numeric.append_zero, numbers_append_zero]
    exact lt_append_zero (numbers version)
  · intro other otherNumeric above
    rw [numeric.append_zero.atMost_iff otherNumeric, numbers_append_zero]
    exact append_zero_le_of_lt ((numeric.isBelow_iff otherNumeric).1 above)
  · refine ⟨version.count '.' + 1, by rw [componentCount, if_neg numeric.ne_nil], ?_⟩
    rw [componentCount, if_neg numeric.append_zero.ne_nil, List.count_append]
    rfl
  · exact isValid_append_zero

theorem IsNumeric.compareQualifiers {left right : Text} (leftNumeric : IsNumeric left)
    (rightNumeric : IsNumeric right) {leftMark rightMark : Char}
    (leftMarks : isMark leftMark = true) (rightMarks : isMark rightMark = true) :
    compareQualifiers (leftMark :: left) (rightMark :: right) =
      Version.compareNumbers left right := by
  have nonempty : ¬(left = [] ∨ right = []) := by
    simp [leftNumeric.ne_nil, rightNumeric.ne_nil]
  have number {version : Text} (numeric : IsNumeric version) {mark : Char}
      (marks : isMark mark = true) : afterMark? (mark :: version) = some version := by
    rcases version with _ | ⟨first, rest⟩
    · exact absurd rfl numeric.ne_nil
    · simp [afterMark?, marks]
  rw [Version.compareNumbers, if_neg nonempty, Version.compareQualifiers,
    number leftNumeric leftMarks, number rightNumeric rightMarks]

/-- Version numbers are linearly ordered up to leading zeros, and the next one after a version is
the least one above it. Version qualifiers compare like the numbers after their marks. -/
theorem compareNumbers_linear {first second third : Text} (firstNumeric : IsNumeric first)
    (secondNumeric : IsNumeric second) (thirdNumeric : IsNumeric third) :
    (∃ order, compareNumbers first second = .ok order ∧
        compareNumbers second first = .ok order.swap) ∧
      (AtMost first second ∨ AtMost second first) ∧
      (AtMost first second → AtMost second third → AtMost first third) ∧
      (isValid first = true → isValid second = true →
        compareNumbers first second = .ok .eq → first = second) ∧
      (∃ successor, next first = .ok successor ∧ Succeeds successor first) ∧
      ∀ firstMark secondMark, isMark firstMark = true → isMark secondMark = true →
        compareQualifiers (firstMark :: first) (secondMark :: second) =
          compareNumbers first second := by
  refine ⟨firstNumeric.compareNumbers_swap secondNumeric, ?_, ?_, ?_,
    firstNumeric.exists_successor, ?_⟩
  · rw [firstNumeric.atMost_iff secondNumeric, secondNumeric.atMost_iff firstNumeric]
    exact le_total (numbers first) (numbers second)
  · rw [firstNumeric.atMost_iff secondNumeric, secondNumeric.atMost_iff thirdNumeric,
      firstNumeric.atMost_iff thirdNumeric]
    exact le_trans
  · intro firstValid secondValid equal
    rw [firstNumeric.compareNumbers secondNumeric, Except.ok.injEq,
      Std.LawfulEqCmp.compare_eq_iff_eq] at equal
    exact numbers_inj firstValid secondValid equal
  · intro firstMark secondMark firstMarks secondMarks
    exact firstNumeric.compareQualifiers secondNumeric firstMarks secondMarks

theorem compareNumbers_linear_leading_zeros :
    let first := "01.9".toList
    let second := "1.9.0".toList
    let third := "0001.10".toList
    IsNumeric first ∧ IsNumeric second ∧ IsNumeric third ∧ AtMost first third ∧
      (∃ successor, next first = .ok successor ∧ AtMost successor second) ∧
      compareQualifiers ('V' :: first) ('v' :: second) = compareNumbers first second := by
  intro first second third
  have firstNumeric : IsNumeric first := isNumeric_iff.2 (by decide)
  have secondNumeric : IsNumeric second := isNumeric_iff.2 (by decide)
  have thirdNumeric : IsNumeric third := isNumeric_iff.2 (by decide)
  rcases compareNumbers_linear firstNumeric secondNumeric thirdNumeric with
    ⟨-, -, transitive, -, ⟨successor, next, succeeds⟩, qualifiers⟩
  refine ⟨firstNumeric, secondNumeric, thirdNumeric, ?_, ?_, qualifiers 'V' 'v' rfl rfl⟩
  · exact transitive ⟨.lt, by decide, rfl⟩ ⟨.lt, by decide, rfl⟩
  · exact ⟨successor, next, succeeds.least second secondNumeric (by decide)⟩

end Version

end BundleDecl
