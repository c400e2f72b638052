import BundleDecl.Proofs.Range.Includes
import BundleDecl.Proofs.Range.RoundTrip
import BundleDecl.Proofs.Version.Successor

/-!
# Spellings of a version

Leading zeros do not matter where versions are compared, but an exact range compares texts, and a
base range includes the versions that continue its text besides those that are equal to it. So two
spellings of a version can be told apart, by such ranges only, and a base range may include a
version without its successor.
-/

namespace BundleDecl

namespace Range

mutual

/-- The ranges that a range is made of, without the unions and the intersections. -/
def parts : Range → List Range
  | union members => memberParts members
  | intersection members => memberParts members
  | other => [other]

def memberParts : List Range → List Range
  | [] => []
  | member :: members => parts member ++ memberParts members

end

theorem memberParts_eq_flatMap (members : List Range) :
    memberParts members = members.flatMap parts := by
  induction members with
  | nil => rfl
  | cons member members ih => rw [memberParts, ih, List.flatMap_cons]

theorem simple_of_mem_parts {range part : Range} (arranged : range.Arranged)
    (contained : part ∈ parts range) : part.Simple ∨ part = unsatisfiable := by
  induction arranged with
  | simple simple =>
      cases simple <;>
        exact Or.inl (List.mem_singleton.1 contained ▸ by constructor <;> assumption)
  | unsatisfiable => exact Or.inr (List.mem_singleton.1 contained)
  | union _ _ _ _ ih | intersection _ _ _ _ ih =>
      rw [parts, memberParts_eq_flatMap, List.mem_flatMap] at contained
      rcases contained with ⟨member, memberMem, contained⟩
      exact ih member memberMem contained

variable {left right bound : Text}

mutual

/-- A range answers alike for two versions for which its parts do. -/
theorem includes_congr (range : Range)
    (agree : ∀ part ∈ parts range, includes left part = includes right part) :
    includes left range = includes right range := by
  cases range with
  | union members =>
      rw [includes, includes]
      exact someIncludes_congr members agree
  | intersection members =>
      rw [includes, includes]
      exact allInclude_congr members agree
  | _ => exact agree _ (List.mem_singleton_self _)

theorem someIncludes_congr (members : List Range)
    (agree : ∀ part ∈ memberParts members, includes left part = includes right part) :
    someIncludes left members = someIncludes right members := by
  match members with
  | [] => rfl
  | member :: members =>
      rw [memberParts, List.forall_mem_append] at agree
      rw [someIncludes, someIncludes, includes_congr member agree.1,
        someIncludes_congr members agree.2]

theorem allInclude_congr (members : List Range)
    (agree : ∀ part ∈ memberParts members, includes left part = includes right part) :
    allInclude left members = allInclude right members := by
  match members with
  | [] => rfl
  | member :: members =>
      rw [memberParts, List.forall_mem_append] at agree
      rw [allInclude, allInclude, includes_congr member agree.1,
        allInclude_congr members agree.2]

end

/-- What it takes for a range with bounds to answer alike for two spellings of a version. -/
def Indistinct (left right : Text) : Range → Prop
  | base bound => Version.numbers bound = Version.numbers left ∨
      continues bound left = continues bound right
  | exact bound => bound = left ↔ bound = right
  | _ => True

instance (left right : Text) : ∀ range : Range, Decidable (Indistinct left right range)
  | base _ => inferInstanceAs (Decidable (_ ∨ _))
  | exact _ => inferInstanceAs (Decidable (_ ↔ _))
  | minimum _ | maximum _ | bounded .. | unsatisfiable | union _ | intersection _ =>
    inferInstanceAs (Decidable True)

theorem lt_of_continues (following : continues bound right = true) :
    Version.numbers bound < Version.numbers right := by
  rcases List.le_iff_lt_or_eq.1 (List.IsPrefix.le (isPrefix_of_continues following)) with
    below | same
  · exact below
  · rcases continues_iff.1 following with ⟨more, nonempty, pieces⟩
    have lengths := congrArg List.length pieces
    have counts := congrArg List.length same
    simp only [Version.numbers, List.length_map, List.length_append] at lengths counts
    exact absurd (List.length_eq_zero_iff.1 (by omega)) nonempty

/-- A base range includes the versions that are equal to its own, and those that continue its
text. -/
theorem decides_base_of_isNumeric (boundNumeric : Version.IsNumeric bound)
    (numeric : Version.IsNumeric right) :
    Decides right (base bound)
      (Version.numbers bound = Version.numbers right ∨ continues bound right = true) := by
  refine ⟨_, by rw [includes, boundNumeric.compareNumbers numeric]; rfl, ?_⟩
  simp only [Bool.or_eq_true, Bool.and_eq_true, beq_iff_eq, compare_eq_lt_iff,
    Std.LawfulEqCmp.compare_eq_iff_eq]
  exact or_congr_right (and_iff_right_of_imp lt_of_continues)

theorem continues_append_zero_iff :
    continues bound (right ++ ".0".toList) = true ↔
      right = bound ∨ continues bound right = true := by
  simp only [continues_iff, Version.splitOn_append_zero]
  constructor
  · rintro ⟨more, nonempty, pieces⟩
    rcases List.eq_nil_or_concat' more with rfl | ⟨before, last, rfl⟩
    · contradiction
    · rw [← List.append_assoc] at pieces
      have shorter := (List.append_inj' pieces rfl).1
      by_cases none : before = []
      · rw [none, List.append_nil] at shorter
        left
        rw [← Text.joinWith_splitOn '.' right, shorter, Text.joinWith_splitOn]
      · exact Or.inr ⟨before, none, shorter⟩
  · rintro (rfl | ⟨more, -, pieces⟩)
    · exact ⟨[['0']], by simp, rfl⟩
    · exact ⟨more ++ [['0']], by simp, by rw [pieces, List.append_assoc]⟩

section

variable (leftNumeric : Version.IsNumeric left) (rightNumeric : Version.IsNumeric right)

include leftNumeric rightNumeric

theorem Simple.includes_eq_iff {range : Range} (simple : range.Simple)
    (same : Version.numbers left = Version.numbers right) :
    includes left range = includes right range ↔ Indistinct left right range := by
  have compares {bound : Text} (valid : Version.isValid bound = true) :
      Version.compareNumbers bound left = Version.compareNumbers bound right := by
    rw [(Version.isNumeric_of_isValid valid).compareNumbers leftNumeric,
      (Version.isNumeric_of_isValid valid).compareNumbers rightNumeric, same]
  cases simple with
  | @base bound valid =>
      have boundNumeric := Version.isNumeric_of_isValid valid
      have alike : continues bound left = continues bound right ↔
          (continues bound left = true ↔ continues bound right = true) := Bool.eq_iff_iff
      rcases decides_base_of_isNumeric boundNumeric leftNumeric with ⟨first, answer, meaning⟩
      rcases decides_base_of_isNumeric boundNumeric rightNumeric with ⟨second, answer', meaning'⟩
      rw [answer, answer', Indistinct, alike, Except.ok.injEq, Bool.eq_iff_iff, meaning, meaning',
        ← same]
      by_cases equal : Version.numbers bound = Version.numbers left
      · simp [equal]
      · simp [equal]
  | @exact bound =>
      rw [includes, includes, Indistinct, Except.ok.injEq, Bool.eq_iff_iff, beq_iff_eq, beq_iff_eq]
  | minimum valid => simp [includes, Indistinct, compares valid]
  | maximum valid => simp [includes, Indistinct, compares valid]
  | bounded _ _ leftValid rightValid =>
      simp [includes, Indistinct, compares leftValid, compares rightValid]

omit leftNumeric in
/-- A base range includes the successor of a version that it includes if and only if that version is
spelled as its own is. -/
theorem includes_next_iff (valid : Version.isValid bound = true)
    (included : includes right (base bound) = .ok true) :
    ∃ successor, Version.next right = .ok successor ∧
      (includes successor (base bound) = .ok true ↔
        right = bound ∨ continues bound right = true) ∧
      (Version.isValid right = true → includes successor (base bound) = .ok true) := by
  have boundNumeric := Version.isNumeric_of_isValid valid
  rw [(decides_base_of_isNumeric boundNumeric rightNumeric).includes_iff] at included
  have short : Version.numbers bound <+: Version.numbers right := by
    rcases included with same | following
    · rw [same]
    · exact isPrefix_of_continues following
  -- The successor has more numbers than the base, so only its text can count.
  have distinct : Version.numbers bound ≠ Version.numbers (right ++ ".0".toList) := by
    intro same
    have bounded := short.length_le
    rw [same, Version.numbers_append_zero, List.length_append, List.length_singleton] at bounded
    omega
  have spelled : includes (right ++ ".0".toList) (base bound) = .ok true ↔
      right = bound ∨ continues bound right = true := by
    rw [(decides_base_of_isNumeric boundNumeric rightNumeric.append_zero).includes_iff,
      or_iff_right distinct, continues_append_zero_iff]
  refine ⟨right ++ ".0".toList, by rw [Version.next, if_neg rightNumeric.ne_nil], spelled, ?_⟩
  intro rightValid
  exact spelled.2 (included.imp_left fun same => Version.numbers_inj rightValid valid same.symm)

/-- What two spellings of a version have in common, and where they differ. Every range that is read
answers alike for both if its parts do not look at how they are spelled, and a simple range does so
exactly if that does not matter. A base range that includes a version includes its successor, too,
if the version is spelled as its own is, as valid versions are, and otherwise it does not. -/
theorem includes_spelling (same : Version.compareNumbers left right = .ok .eq) :
    (∀ text range, ofText text = .ok range → (∀ part ∈ parts range, Indistinct left right part) →
        ∃ included, includes left range = .ok included ∧ includes right range = .ok included) ∧
      (∀ range, Simple range →
        (includes left range = includes right range ↔ Indistinct left right range)) ∧
      ∀ bound, Version.isValid bound = true → includes right (base bound) = .ok true →
        ∃ successor, Version.next right = .ok successor ∧
          (includes successor (base bound) = .ok true ↔
            right = bound ∨ continues bound right = true) ∧
          (Version.isValid right = true → includes successor (base bound) = .ok true) := by
  rw [leftNumeric.compareNumbers rightNumeric, Except.ok.injEq,
    Std.LawfulEqCmp.compare_eq_iff_eq] at same
  refine ⟨?_, ?_, ?_⟩
  · intro text range read indistinct
    have arranged := (wellFormed_of_ofText read).normal.arranged
    rcases arranged.decides rightNumeric with ⟨_, included, answer, -⟩
    refine ⟨included, ?_, answer⟩
    rw [includes_congr range ?_, answer]
    intro part contained
    rcases simple_of_mem_parts arranged contained with simple | rfl
    · exact (simple.includes_eq_iff leftNumeric rightNumeric same).2 (indistinct part contained)
    · rw [includes, includes]
  · intro range simple
    exact simple.includes_eq_iff leftNumeric rightNumeric same
  · intro bound valid included
    exact includes_next_iff rightNumeric valid included

end

theorem includes_spelling_union :
    let left := "1.05".toList
    let right := "1.5".toList
    let range := unionOf [base ['1'], minimum "0.9".toList]
    ofText range.toText = .ok range ∧ includes left range = includes right range ∧
      includes left (base ['1']) = includes right (base ['1']) ∧
      ∃ successor, Version.next right = .ok successor ∧
        includes successor (base ['1']) = .ok true := by
  intro left right range
  have leftNumeric : Version.IsNumeric left := Version.isNumeric_iff.2 (by decide)
  have rightNumeric : Version.IsNumeric right := Version.isNumeric_iff.2 (by decide)
  have wellFormed : range.WellFormed := by
    apply WellFormed.unionOf
    simpa using ⟨.base rfl, .minimum rfl⟩
  have read : ofText range.toText = .ok range := wellFormed.normal.ofText_eq_ok
  rcases includes_spelling leftNumeric rightNumeric (by decide) with ⟨alike, simple, next⟩
  rcases alike _ range read (by decide) with ⟨included, answer, answer'⟩
  refine ⟨read, answer.trans answer'.symm, ?_, ?_⟩
  · exact (simple (base ['1']) (.base rfl)).2 (Or.inr (by decide))
  · rcases next ['1'] rfl (by decide) with ⟨successor, after, included⟩
    exact ⟨successor, after, included.2 rfl⟩

/-- The base range of `1` includes `01` but not its successor `01.0`, which is equal to `1.0`; that
one is included. -/
theorem includes_leading_zero :
    ofText ['1'] = .ok (base ['1']) ∧
      Version.compareNumbers "1.0".toList "01.0".toList = .ok .eq ∧
      includes "1.0".toList (base ['1']) = .ok true ∧
      includes "01".toList (base ['1']) = .ok true ∧
      Version.next "01".toList = .ok "01.0".toList ∧
      includes "01.0".toList (base ['1']) = .ok false := by
  have one : (base ['1']).WellFormed := .base rfl
  exact ⟨one.normal.ofText_eq_ok, by decide, by decide, by decide, by decide, by decide⟩

end Range

end BundleDecl
