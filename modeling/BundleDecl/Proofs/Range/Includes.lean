import BundleDecl.Proofs.Range.Normal
import BundleDecl.Proofs.Version.Order

/-!
# The versions that a range includes

Every range that is made of valid version numbers answers for every version, also with leading
zeros. For valid versions a simple range answers by their order; a union includes what some of its
members include, and an intersection what all of them do. That holds of the ranges that a union or
an intersection is made of, too, although nested ones are dissolved.
-/

namespace BundleDecl

namespace Range

/-- Whether the range includes the version is answered, and a statement says how. -/
def Decides (version : Text) (range : Range) (statement : Prop) : Prop :=
  ∃ included, includes version range = .ok included ∧ (included = true ↔ statement)

variable {version : Text}

theorem Decides.includes_iff {range : Range} {statement : Prop}
    (decides : Decides version range statement) :
    includes version range = .ok true ↔ statement := by
  rcases decides with ⟨included, answer, meaning⟩
  rw [answer, ← meaning, Except.ok.injEq]

theorem Decides.congr {range : Range} {statement other : Prop}
    (decides : Decides version range statement) (same : statement ↔ other) :
    Decides version range other := by
  rcases decides with ⟨included, answer, meaning⟩
  exact ⟨included, answer, meaning.trans same⟩

/-! ## Simple ranges -/

theorem decides_base {bound : Text} (boundValid : Version.isValid bound = true)
    (valid : Version.isValid version = true) :
    Decides version (base bound) (Version.numbers bound <+: Version.numbers version) := by
  refine ⟨_, by rw [includes, Version.compareNumbers_of_isValid boundValid valid]; rfl, ?_⟩
  rw [← isPrefix_numbers_iff boundValid valid]
  simp

theorem decides_exact (bound : Text) : Decides version (exact bound) (version = bound) := by
  refine ⟨_, by rw [includes], ?_⟩
  rw [beq_iff_eq]
  exact eq_comm

theorem atLeast_iff {bound : Text} {included : Bool} (boundValid : Version.isValid bound = true)
    (valid : Version.isValid version = true) :
    atLeast included (compare (Version.numbers bound) (Version.numbers version)) = true ↔
      Version.numbers bound < Version.numbers version ∨ included = true ∧ version = bound := by
  have same : compare (Version.numbers bound) (Version.numbers version) = .eq ↔
      version = bound := by
    rw [Std.LawfulEqCmp.compare_eq_iff_eq]
    constructor
    · intro numbers
      exact Version.numbers_inj valid boundValid numbers.symm
    · rintro rfl
      rfl
  simp [atLeast, compare_eq_lt_iff, same]

theorem atMost_iff {bound : Text} {included : Bool} (boundValid : Version.isValid bound = true)
    (valid : Version.isValid version = true) :
    atMost included (compare (Version.numbers bound) (Version.numbers version)) = true ↔
      Version.numbers version < Version.numbers bound ∨ included = true ∧ version = bound := by
  have swapped : atMost included (compare (Version.numbers bound) (Version.numbers version)) =
      atLeast included (compare (Version.numbers version) (Version.numbers bound)) := by
    rw [@Std.OrientedCmp.eq_swap _ compare _ (Version.numbers version)]
    cases compare (Version.numbers bound) (Version.numbers version) <;> rfl
  rw [swapped, atLeast_iff valid boundValid, @eq_comm _ bound]

theorem decides_minimum {bound : Text} (boundValid : Version.isValid bound = true)
    (valid : Version.isValid version = true) :
    Decides version (minimum bound)
      (Version.numbers bound < Version.numbers version ∨ version = bound) := by
  refine ⟨_, by rw [includes, Version.compareNumbers_of_isValid boundValid valid]; rfl, ?_⟩
  simp [atLeast_iff boundValid valid]

theorem decides_maximum {bound : Text} (boundValid : Version.isValid bound = true)
    (valid : Version.isValid version = true) :
    Decides version (maximum bound)
      (Version.numbers version < Version.numbers bound ∨ version = bound) := by
  refine ⟨_, by rw [includes, Version.compareNumbers_of_isValid boundValid valid]; rfl, ?_⟩
  simp [atMost_iff boundValid valid]

theorem decides_bounded {left right : Text} (leftIncluded rightIncluded : Bool)
    (leftValid : Version.isValid left = true) (rightValid : Version.isValid right = true)
    (valid : Version.isValid version = true) :
    Decides version (bounded left right leftIncluded rightIncluded)
      ((Version.numbers left < Version.numbers version ∨ leftIncluded = true ∧ version = left) ∧
        (Version.numbers version < Version.numbers right ∨
          rightIncluded = true ∧ version = right)) := by
  refine ⟨_, by
    rw [includes, Version.compareNumbers_of_isValid leftValid valid,
      Version.compareNumbers_of_isValid rightValid valid]
    rfl, ?_⟩
  simp [atLeast_iff leftValid valid, atMost_iff rightValid valid]

theorem decides_unsatisfiable : Decides version unsatisfiable False :=
  ⟨false, by rw [includes], by simp⟩

/-! ## Unions and intersections -/

theorem decides_union {members : List Range}
    (answers : ∀ member ∈ members, ∃ statement, Decides version member statement) :
    Decides version (union members) (∃ member ∈ members, includes version member = .ok true) := by
  simp only [Decides, includes]
  induction members with
  | nil => exact ⟨false, by rw [someIncludes], by simp⟩
  | cons member members ih =>
      rw [List.forall_mem_cons] at answers
      rcases answers with ⟨⟨_, included, answer, -⟩, others⟩
      rcases ih others with ⟨some, following, meaning⟩
      cases included with
      | true =>
          refine ⟨true, ?_, by simp [answer]⟩
          rw [someIncludes, answer]
          rfl
      | false =>
          refine ⟨some, ?_, by simp [answer, meaning]⟩
          rw [someIncludes, answer]
          exact following

theorem decides_intersection {members : List Range}
    (answers : ∀ member ∈ members, ∃ statement, Decides version member statement) :
    Decides version (intersection members)
      (∀ member ∈ members, includes version member = .ok true) := by
  simp only [Decides, includes]
  induction members with
  | nil => exact ⟨true, by rw [allInclude], by simp⟩
  | cons member members ih =>
      rw [List.forall_mem_cons] at answers
      rcases answers with ⟨⟨_, included, answer, -⟩, others⟩
      rcases ih others with ⟨all, following, meaning⟩
      cases included with
      | true =>
          refine ⟨all, ?_, by simp [answer, meaning]⟩
          rw [allInclude, answer]
          exact following
      | false =>
          refine ⟨false, ?_, by simp [answer]⟩
          rw [allInclude, answer]
          rfl

theorem Simple.decides {range : Range} (simple : range.Simple)
    (numeric : Version.IsNumeric version) : ∃ statement, Decides version range statement := by
  have compares {bound : Text} (boundValid : Version.isValid bound = true) :=
    (Version.isNumeric_of_isValid boundValid).compareNumbers numeric
  cases simple with
  | base boundValid => exact ⟨_, _, by rw [includes, compares boundValid]; rfl, Iff.rfl⟩
  | exact => exact ⟨_, decides_exact _⟩
  | minimum boundValid => exact ⟨_, _, by rw [includes, compares boundValid]; rfl, Iff.rfl⟩
  | maximum boundValid => exact ⟨_, _, by rw [includes, compares boundValid]; rfl, Iff.rfl⟩
  | bounded leftIncluded rightIncluded leftValid rightValid =>
      exact ⟨_, _, by rw [includes, compares leftValid, compares rightValid]; rfl, Iff.rfl⟩

namespace Arranged

variable {range : Range} {ranges : List Range}

/-- A range that is made of valid version numbers answers for every version. -/
theorem decides (arranged : range.Arranged) (numeric : Version.IsNumeric version) :
    ∃ statement, Decides version range statement := by
  induction arranged with
  | simple simple => exact simple.decides numeric
  | unsatisfiable => exact ⟨_, decides_unsatisfiable⟩
  | union _ _ _ _ ih => exact ⟨_, decides_union ih⟩
  | intersection _ _ _ _ ih => exact ⟨_, decides_intersection ih⟩

theorem includes_iff_unionMembers (arranged : range.Arranged)
    (numeric : Version.IsNumeric version) :
    includes version range = .ok true ↔
      ∃ member ∈ unionMembers range, includes version member = .ok true := by
  cases arranged with
  | union _ _ _ members =>
      have answers := fun member contained => (members member contained).decides numeric
      exact (decides_union answers).includes_iff
  | simple simple => simp [simple.unionMembers_eq]
  | _ => simp [unionMembers]

theorem includes_iff_intersectionMembers (arranged : range.Arranged)
    (numeric : Version.IsNumeric version) :
    includes version range = .ok true ↔
      ∀ member ∈ intersectionMembers range, includes version member = .ok true := by
  cases arranged with
  | intersection _ _ _ members =>
      have answers := fun member contained => (members member contained).decides numeric
      exact (decides_intersection answers).includes_iff
  | simple simple => simp [simple.intersectionMembers_eq]
  | _ => simp [intersectionMembers]

end Arranged

/-- A union includes what some of the ranges includes that it is made of. -/
theorem decides_unionOf {ranges : List Range} (arranged : ∀ range ∈ ranges, range.Arranged)
    (numeric : Version.IsNumeric version) :
    Decides version (unionOf ranges)
      (∃ range ∈ ranges, includes version range = .ok true) := by
  have collected : (∃ member ∈ ranges.flatMap unionMembers, includes version member = .ok true) ↔
      ∃ range ∈ ranges, includes version range = .ok true := by
    simp only [List.mem_flatMap]
    constructor
    · rintro ⟨member, ⟨range, rangeMem, contributed⟩, includes⟩
      exact ⟨range, rangeMem, ((arranged range rangeMem).includes_iff_unionMembers numeric).2
        ⟨member, contributed, includes⟩⟩
    · rintro ⟨range, rangeMem, includes⟩
      rcases ((arranged range rangeMem).includes_iff_unionMembers numeric).1 includes with
        ⟨member, contributed, includes⟩
      exact ⟨member, ⟨range, rangeMem, contributed⟩, includes⟩
  have answers : ∀ member ∈ ranges.flatMap unionMembers,
      ∃ statement, Decides version member statement := by
    intro member contained
    rcases List.mem_flatMap.1 contained with ⟨range, rangeMem, given⟩
    exact ((arranged range rangeMem).mem_unionMembers given).1.decides numeric
  rw [← collected]
  apply Combination.unions.combine_cases
    (motive := fun range => Decides version range
      (∃ member ∈ ranges.flatMap unionMembers, includes version member = .ok true))
  · intro (none : ranges.flatMap unionMembers = [])
    exact decides_unsatisfiable.congr (by simp [none])
  · intro member (alone : ∀ other, other ∈ ranges.flatMap unionMembers ↔ other = member)
    rcases answers member ((alone member).2 rfl) with ⟨statement, decides⟩
    apply decides.congr
    simp only [alone, exists_eq_left, decides.includes_iff]
  · intro members _ _ (same : ∀ member, member ∈ members ↔ member ∈ ranges.flatMap unionMembers)
    simp only [← same] at answers ⊢
    exact decides_union answers

/-- An intersection includes what all of the ranges include that it is made of. -/
theorem decides_intersectionOf {ranges : List Range} (nonempty : ranges ≠ [])
    (arranged : ∀ range ∈ ranges, range.Arranged) (numeric : Version.IsNumeric version) :
    Decides version (intersectionOf ranges)
      (∀ range ∈ ranges, includes version range = .ok true) := by
  have collected : (∀ member ∈ ranges.flatMap intersectionMembers,
      includes version member = .ok true) ↔
        ∀ range ∈ ranges, includes version range = .ok true := by
    simp only [List.mem_flatMap]
    constructor
    · intro includes range rangeMem
      apply ((arranged range rangeMem).includes_iff_intersectionMembers numeric).2
      intro member contributed
      exact includes member ⟨range, rangeMem, contributed⟩
    · rintro includes member ⟨range, rangeMem, contributed⟩
      exact ((arranged range rangeMem).includes_iff_intersectionMembers numeric).1
        (includes range rangeMem) member contributed
  have answers : ∀ member ∈ ranges.flatMap intersectionMembers,
      ∃ statement, Decides version member statement := by
    intro member contained
    rcases List.mem_flatMap.1 contained with ⟨range, rangeMem, given⟩
    exact ((arranged range rangeMem).mem_intersectionMembers given).1.decides numeric
  rw [← collected]
  apply Combination.intersections.combine_cases
    (motive := fun range => Decides version range
      (∀ member ∈ ranges.flatMap intersectionMembers, includes version member = .ok true))
  · intro (none : ranges.flatMap intersectionMembers = [])
    rcases List.exists_mem_of_ne_nil ranges nonempty with ⟨range, rangeMem⟩
    exact absurd (List.flatMap_eq_nil_iff.1 none range rangeMem)
      (arranged range rangeMem).intersectionMembers_ne_nil
  · intro member (alone : ∀ other, other ∈ ranges.flatMap intersectionMembers ↔ other = member)
    rcases answers member ((alone member).2 rfl) with ⟨statement, decides⟩
    apply decides.congr
    simp only [alone, forall_eq, decides.includes_iff]
  · intro members _ _
      (same : ∀ member, member ∈ members ↔ member ∈ ranges.flatMap intersectionMembers)
    simp only [← same] at answers ⊢
    exact decides_intersection answers

end Range

end BundleDecl
