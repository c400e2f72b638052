import BundleDecl.Proofs.Failure
import BundleDecl.Proofs.Version.Order

/-!
# Which versions can be compared

Versions that are not numeric are refused with one exception: equal texts are equal, whatever they
are, unless they are empty. The mark of version qualifiers is looked at first, so for them the texts
after the marks count. The order of the two arguments does not matter.
-/

namespace BundleDecl

namespace Version

/-- A failure of malformed text, without a line. -/
def Refused (outcome : Except Failure Ordering) : Prop :=
  ∃ failure, outcome = .error failure ∧ failure.line = none ∧ failure.cause.failureClass = .format

/-- There is an order under a condition, and a refusal otherwise. -/
structure SucceedsIff (outcome : Except Failure Ordering) (accepted : Prop) : Prop where
  exists_ok : accepted → ∃ order, outcome = .ok order
  refused : ¬accepted → Refused outcome

/-- Both versions are numeric, or they are the same text, which is not empty. -/
def Comparable (left right : Text) : Prop :=
  IsNumeric left ∧ IsNumeric right ∨ left = right ∧ left ≠ []

/-- The number after the mark of a version. -/
def Marked (number qualifier : Text) : Prop :=
  ∃ mark ∈ ['v', 'V'], qualifier = mark :: number

/-- A numeric version after the mark. -/
def IsMarkedNumeric (qualifier : Text) : Prop :=
  ∃ number, Marked number qualifier ∧ IsNumeric number

variable {left right : Text}

namespace SucceedsIff

variable {outcome : Except Failure Ordering} {accepted : Prop}

theorem eq_ok_iff (succeeds : SucceedsIff outcome accepted) :
    (∃ order, outcome = .ok order) ↔ accepted := by
  refine ⟨?_, succeeds.exists_ok⟩
  rintro ⟨order, rfl⟩
  by_contra notAccepted
  rcases succeeds.refused notAccepted with ⟨failure, failed, -⟩
  contradiction

theorem refused_iff (succeeds : SucceedsIff outcome accepted) : Refused outcome ↔ ¬accepted := by
  refine ⟨?_, succeeds.refused⟩
  rintro ⟨failure, rfl, -⟩ holds
  rcases succeeds.exists_ok holds with ⟨order, found⟩
  contradiction

end SucceedsIff

theorem components_eq_fail {version : Text} (malformed : ¬IsNumeric version) :
    components version = fail (.versionNumberFormat version) := by
  have pieces : ¬(Text.splitOn '.' version).all isNumber = true := by
    rwa [List.all_eq_true, ← isNumeric_iff]
  rw [components, components?, if_neg pieces]

theorem refused_fail {cause : Cause} (malformed : cause.failureClass = .format) :
    Refused (fail cause) :=
  ⟨_, rfl, rfl, malformed⟩

theorem Comparable.ne_nil (comparable : Comparable left right) : left ≠ [] ∧ right ≠ [] := by
  rcases comparable with ⟨leftNumeric, rightNumeric⟩ | ⟨rfl, nonempty⟩
  · exact ⟨leftNumeric.ne_nil, rightNumeric.ne_nil⟩
  · exact ⟨nonempty, nonempty⟩

theorem comparable_comm : Comparable left right ↔ Comparable right left := by
  have swap {left right : Text} (comparable : Comparable left right) : Comparable right left := by
    rcases comparable with ⟨leftNumeric, rightNumeric⟩ | ⟨rfl, nonempty⟩
    · exact .inl ⟨rightNumeric, leftNumeric⟩
    · exact .inr ⟨rfl, nonempty⟩
  exact ⟨swap, swap⟩

theorem comparable_iff_of_ne (different : left ≠ right) :
    Comparable left right ↔ IsNumeric left ∧ IsNumeric right := by
  rw [Comparable, or_iff_left fun same => different same.1]

theorem compareTexts_succeedsIff (nonempty : left ≠ []) :
    SucceedsIff (compareTexts left right) (Comparable left right) := by
  rw [compareTexts]
  by_cases same : left = right
  · rw [if_pos same]
    exact ⟨fun _ => ⟨.eq, rfl⟩, fun differs => absurd (.inr ⟨same, nonempty⟩) differs⟩
  · rw [if_neg same]
    simp only [Comparable, same, false_and, or_false]
    constructor
    · rintro ⟨leftNumeric, rightNumeric⟩
      rw [leftNumeric.components, rightNumeric.components]
      exact ⟨_, rfl⟩
    · intro malformed
      by_cases leftNumeric : IsNumeric left
      · have rightMalformed : ¬IsNumeric right := fun numeric => malformed ⟨leftNumeric, numeric⟩
        rw [leftNumeric.components, components_eq_fail rightMalformed]
        exact refused_fail rfl
      · rw [components_eq_fail leftNumeric]
        exact refused_fail rfl

theorem compareNumbers_succeedsIff (left right : Text) :
    SucceedsIff (compareNumbers left right) (Comparable left right) := by
  rw [compareNumbers]
  split
  · rename_i empty
    refine ⟨?_, fun _ => refused_fail rfl⟩
    intro comparable
    simp [comparable.ne_nil] at empty
  · rename_i nonempty
    exact compareTexts_succeedsIff fun empty => nonempty (.inl empty)

theorem Marked.tail_eq {number qualifier : Text} (marked : Marked number qualifier) :
    qualifier.tail = number := by
  rcases marked with ⟨mark, -, rfl⟩
  rfl

theorem afterMark?_eq_some_iff {number qualifier : Text} :
    afterMark? qualifier = some number ↔ Marked number qualifier ∧ number ≠ [] := by
  rcases qualifier with _ | ⟨mark, _ | ⟨first, rest⟩⟩
  · simp [afterMark?, Marked]
  · simp only [afterMark?, reduceCtorEq, false_iff]
    rintro ⟨marked, nonempty⟩
    exact nonempty marked.tail_eq.symm
  · have isMark_iff : isMark mark = true ↔ mark ∈ ['v', 'V'] := by
      simp [isMark]
    rw [afterMark?, Option.ite_none_right_eq_some, Option.some.injEq, isMark_iff]
    constructor
    · rintro ⟨marks, rfl⟩
      exact ⟨⟨mark, marks, rfl⟩, List.cons_ne_nil _ _⟩
    · rintro ⟨⟨_, marks, same⟩, -⟩
      rw [List.cons.injEq] at same
      exact ⟨same.1 ▸ marks, same.2⟩

theorem exists_comparable_iff_of_ne
    (different : ∀ number, Marked number left → ¬Marked number right) :
    (∃ leftNumber rightNumber, Marked leftNumber left ∧ Marked rightNumber right ∧
        Comparable leftNumber rightNumber) ↔
      IsMarkedNumeric left ∧ IsMarkedNumeric right := by
  constructor
  · rintro ⟨leftNumber, rightNumber, leftMarked, rightMarked, comparable⟩
    have apart : leftNumber ≠ rightNumber := by
      rintro rfl
      exact different leftNumber leftMarked rightMarked
    rw [comparable_iff_of_ne apart] at comparable
    exact ⟨⟨leftNumber, leftMarked, comparable.1⟩, rightNumber, rightMarked, comparable.2⟩
  · rintro ⟨⟨leftNumber, leftMarked, leftNumeric⟩, rightNumber, rightMarked, rightNumeric⟩
    exact ⟨leftNumber, rightNumber, leftMarked, rightMarked, .inl ⟨leftNumeric, rightNumeric⟩⟩

theorem compareQualifiers_succeedsIff (left right : Text) :
    SucceedsIff (compareQualifiers left right) (∃ leftNumber rightNumber,
      Marked leftNumber left ∧ Marked rightNumber right ∧ Comparable leftNumber rightNumber) := by
  rw [compareQualifiers]
  split
  · rename_i leftNumber rightNumber leftMarked rightMarked
    rw [afterMark?_eq_some_iff] at leftMarked rightMarked
    have accepted : (∃ leftNumber rightNumber, Marked leftNumber left ∧
        Marked rightNumber right ∧ Comparable leftNumber rightNumber) ↔
        Comparable leftNumber rightNumber := by
      constructor
      · rintro ⟨_, _, leftOther, rightOther, comparable⟩
        rwa [← leftMarked.1.tail_eq, ← rightMarked.1.tail_eq, leftOther.tail_eq,
          rightOther.tail_eq]
      · intro comparable
        exact ⟨leftNumber, rightNumber, leftMarked.1, rightMarked.1, comparable⟩
    rw [accepted]
    exact compareTexts_succeedsIff leftMarked.2
  · rename_i unmarked
    refine ⟨?_, fun _ => refused_fail rfl⟩
    rintro ⟨leftNumber, rightNumber, leftMarked, rightMarked, comparable⟩
    exact (unmarked _ _ (afterMark?_eq_some_iff.2 ⟨leftMarked, comparable.ne_nil.1⟩)
      (afterMark?_eq_some_iff.2 ⟨rightMarked, comparable.ne_nil.2⟩)).elim

/-- Version numbers are refused if one of them is empty or not numeric, in either order; the
exception are equal texts that are not empty, which are never refused. The same holds of version
qualifiers, where the texts after the marks count. -/
theorem compareNumbers_refused (left right : Text) :
    (Refused (compareNumbers left right) ↔ ¬Comparable left right) ∧
      ((∃ order, compareNumbers left right = .ok order) ↔ Comparable left right) ∧
      (Refused (compareNumbers left right) ↔ Refused (compareNumbers right left)) ∧
      (left ≠ right →
        (Refused (compareNumbers left right) ↔ ¬IsNumeric left ∨ ¬IsNumeric right)) ∧
      (Refused (compareQualifiers left right) ↔ ¬∃ leftNumber rightNumber,
        Marked leftNumber left ∧ Marked rightNumber right ∧ Comparable leftNumber rightNumber) ∧
      ((∃ order, compareQualifiers left right = .ok order) ↔ ∃ leftNumber rightNumber,
        Marked leftNumber left ∧ Marked rightNumber right ∧ Comparable leftNumber rightNumber) ∧
      ((∀ number, Marked number left → ¬Marked number right) →
        (Refused (compareQualifiers left right) ↔
          ¬IsMarkedNumeric left ∨ ¬IsMarkedNumeric right)) := by
  have numbers := compareNumbers_succeedsIff left right
  have qualifiers := compareQualifiers_succeedsIff left right
  refine ⟨numbers.refused_iff, numbers.eq_ok_iff, ?_, ?_, qualifiers.refused_iff,
    qualifiers.eq_ok_iff, ?_⟩
  · rw [numbers.refused_iff, (compareNumbers_succeedsIff right left).refused_iff,
      comparable_comm]
  · intro different
    rw [numbers.refused_iff, comparable_iff_of_ne different, not_and_or]
  · intro different
    rw [qualifiers.refused_iff, exists_comparable_iff_of_ne different, not_and_or]

theorem compareNumbers_refused_unequal :
    Refused (compareNumbers "1.a".toList ['1']) ∧ Refused (compareNumbers ['1'] "1.a".toList) ∧
      Refused (compareQualifiers "v1.a".toList "V1.b".toList) := by
  have malformed : ¬IsNumeric "1.a".toList := by
    rw [isNumeric_iff]
    decide
  rcases compareNumbers_refused "1.a".toList ['1'] with ⟨-, -, comm, unequal, -⟩
  have refused := (unequal (by decide)).2 (.inl malformed)
  rcases compareNumbers_refused "v1.a".toList "V1.b".toList with ⟨-, -, -, -, -, -, qualifiers⟩
  have different : ∀ number, Marked number "v1.a".toList → ¬Marked number "V1.b".toList := by
    intro number left right
    exact absurd (left.tail_eq.trans right.tail_eq.symm) (by decide)
  refine ⟨refused, comm.1 refused, (qualifiers different).2 (.inl ?_)⟩
  rintro ⟨number, marked, numeric⟩
  rcases marked.tail_eq with rfl
  exact malformed numeric

/-- Texts that are no versions are found to be equal. -/
theorem compareNumbers_malformed :
    compareNumbers ['x'] ['x'] = .ok .eq ∧ ¬IsNumeric ['x'] ∧
      compareQualifiers "vx".toList "Vx".toList = .ok .eq ∧ ¬IsMarkedNumeric "vx".toList := by
  have malformed : ¬IsNumeric ['x'] := by
    rw [isNumeric_iff]
    decide
  refine ⟨rfl, malformed, rfl, ?_⟩
  rintro ⟨number, marked, numeric⟩
  rcases marked.tail_eq with rfl
  exact malformed numeric

end Version

end BundleDecl
