import BundleDecl.Proofs.Identifier.Parts

/-!
# The order of identifiers

Identifiers are ordered by their names, then by their qualifiers, then by their versions, where
texts are ordered by their characters and lists of texts by their texts, from the first one on. Of
two identifiers one comes before the other unless both have the same text, which no two identifiers
have. So identifiers can be put into increasing order in one way only.
-/

namespace BundleDecl

/-- The order of a dictionary: by code points, and a text comes before those that it begins. -/
def Text.Before (left right : Text) : Prop :=
  List.Lex (fun first second : Char => first.toNat < second.toNat) left right

theorem Text.compare_eq_lt_iff {left right : Text} :
    compare left right = .lt ↔ Before left right := by
  apply compare_eq_lt_iff_lex
  intro first second
  exact compareOfLessAndEq_eq_lt.trans UInt32.lt_iff_toNat_lt

namespace Identifier

/-- The name comes before, or the qualifiers after equal names, or the version qualifier after equal
names and qualifiers. -/
inductive Before (left right : Identifier) : Prop where
  | name : Text.Before left.name right.name → Before left right
  | qualifiers : left.name = right.name →
      List.Lex Text.Before left.qualifiers right.qualifiers → Before left right
  | metaQualifiers : left.name = right.name → left.qualifiers = right.qualifiers →
      List.Lex Text.Before left.metaQualifiers right.metaQualifiers → Before left right

instance : Std.TransCmp Identifier.compare :=
  inferInstanceAs (Std.TransCmp (compareLex
    (compareLex (compareOn Identifier.name) (compareOn Identifier.qualifiers))
    (compareOn Identifier.metaQualifiers)))

variable {left right : Identifier} {identifiers others : List Identifier}

theorem metaQualifiers_inj (same : left.metaQualifiers = right.metaQualifiers) :
    left.version = right.version := by
  apply Option.ext
  intro number
  rw [← toQualifier_mem_metaQualifiers, ← toQualifier_mem_metaQualifiers, same]

instance : Std.LawfulEqCmp Identifier.compare where
  compare_self := Std.ReflCmp.compare_self
  eq_of_compare {left right} equal := by
    simp only [Identifier.compare, Ordering.then_eq_eq, Std.LawfulEqCmp.compare_eq_iff_eq] at equal
    rcases equal with ⟨⟨name, qualifiers⟩, metaQualifiers⟩
    have version := metaQualifiers_inj metaQualifiers
    rcases left with ⟨_, _, _⟩
    rcases right with ⟨_, _, _⟩
    simp_all

/-- Comparison finds which of two identifiers comes before the other one. -/
theorem compare_eq_lt_iff : left.compare right = .lt ↔ Before left right := by
  rw [Identifier.compare, Ordering.then_eq_lt, Ordering.then_eq_lt, Ordering.then_eq_eq,
    Std.LawfulEqCmp.compare_eq_iff_eq, Std.LawfulEqCmp.compare_eq_iff_eq, Text.compare_eq_lt_iff,
    compare_eq_lt_iff_lex fun _ _ => Text.compare_eq_lt_iff,
    compare_eq_lt_iff_lex fun _ _ => Text.compare_eq_lt_iff]
  constructor
  · rintro ((name | ⟨name, qualifiers⟩) | ⟨⟨name, qualifiers⟩, metaQualifiers⟩)
    · exact .name name
    · exact .qualifiers name qualifiers
    · exact .metaQualifiers name qualifiers metaQualifiers
  · rintro (name | ⟨name, qualifiers⟩ | ⟨name, qualifiers, metaQualifiers⟩)
    · exact .inl (.inl name)
    · exact .inl (.inr ⟨name, qualifiers⟩)
    · exact .inr ⟨⟨name, qualifiers⟩, metaQualifiers⟩

theorem compare_eq_gt_iff : left.compare right = .gt ↔ Before right left := by
  rw [Std.OrientedCmp.gt_iff_lt, compare_eq_lt_iff]

theorem isLE_compare_iff : (left.compare right).isLE = true ↔ ¬Before right left := by
  rw [← compare_eq_gt_iff]
  cases left.compare right <;> simp

theorem Before.trans {first second third : Identifier} (before : Before first second)
    (after : Before second third) : Before first third := by
  rw [← compare_eq_lt_iff] at before after ⊢
  exact Std.TransCmp.lt_trans before after

/-- Exactly one of two identifiers comes before the other one unless they are equal. -/
theorem before_trichotomy (left right : Identifier) :
    (Before left right ∧ left ≠ right ∧ ¬Before right left) ∨
      (¬Before left right ∧ left = right ∧ ¬Before right left) ∨
        (¬Before left right ∧ left ≠ right ∧ Before right left) := by
  rw [← compare_eq_lt_iff, ← compare_eq_gt_iff, Ne,
    ← @Std.LawfulEqCmp.compare_eq_iff_eq _ Identifier.compare]
  cases left.compare right <;> simp

/-- Identifiers in canonical form are determined by their texts. -/
theorem Canonical.eq_iff_toText_eq (leftCanonical : left.Canonical)
    (rightCanonical : right.Canonical) : left = right ↔ left.toText = right.toText := by
  refine ⟨congrArg toText, ?_⟩
  intro texts
  -- The text does not tell qualifiers and version apart, but whoever reads it does.
  have read := leftCanonical.ofText_eq_ok
  rw [texts, rightCanonical.ofText_eq_ok] at read
  exact (Except.ok.inj read).symm

/-! ## Sorting -/

/-- No identifier comes before one that stands before it. -/
def Sorted (identifiers : List Identifier) : Prop :=
  identifiers.Pairwise fun first second => ¬Before second first

theorem sorted_sort (identifiers : List Identifier) : Sorted (sort identifiers) := by
  have atMost : (fun left right : Identifier => left.compare right != .gt) =
      fun left right => (left.compare right).isLE := by
    funext left right
    cases left.compare right <;> rfl
  rw [sort, atMost]
  refine (List.pairwise_mergeSort ?_ ?_ identifiers).imp isLE_compare_iff.1
  · intro first second third before after
    exact Std.TransCmp.isLE_trans before after
  · intro first second
    rw [@Std.OrientedCmp.eq_swap _ Identifier.compare _ second first]
    cases first.compare second <;> rfl

theorem perm_sort (identifiers : List Identifier) : (sort identifiers).Perm identifiers :=
  List.mergeSort_perm identifiers _

/-- Sorted lists of the same identifiers are equal. -/
theorem Sorted.eq_of_perm (sorted : Sorted identifiers) (othersSorted : Sorted others)
    (perm : identifiers.Perm others) : identifiers = others := by
  refine perm.eq_of_pairwise ?_ sorted othersSorted
  intro first second _ _ notAfter notBefore
  rcases before_trichotomy first second with ⟨before, -⟩ | ⟨-, same, -⟩ | ⟨-, -, after⟩
  · contradiction
  · exact same
  · contradiction

theorem sort_eq_of_perm (perm : identifiers.Perm others) : sort identifiers = sort others := by
  apply (sorted_sort identifiers).eq_of_perm (sorted_sort others)
  exact (perm_sort identifiers).trans (perm.trans (perm_sort others).symm)

/-- The order is linear: of two identifiers one comes before the other one unless they are equal,
and comparison finds which; they are equal if and only if their texts are. So the same identifiers
are sorted into the same list, whatever order they come in. -/
theorem compare_linear :
    (∀ left right : Identifier,
      ((Before left right ∧ left ≠ right ∧ ¬Before right left) ∨
        (¬Before left right ∧ left = right ∧ ¬Before right left) ∨
          (¬Before left right ∧ left ≠ right ∧ Before right left)) ∧
      (left.compare right = .lt ↔ Before left right) ∧
      (left.compare right = .eq ↔ left = right) ∧
      (left.compare right = .gt ↔ Before right left) ∧
      left.compare right = (right.compare left).swap) ∧
    (∀ first second third : Identifier, Before first second → Before second third →
      Before first third) ∧
    (∀ left right : Identifier, left.Made → right.Made →
      (left.compare right = .eq ↔ left.toText = right.toText)) ∧
    ∀ identifiers, Sorted (sort identifiers) ∧ (sort identifiers).Perm identifiers ∧
      ∀ others, identifiers.Perm others → sort identifiers = sort others := by
  refine ⟨?_, fun _ _ _ => Before.trans, ?_, ?_⟩
  · intro left right
    exact ⟨before_trichotomy left right, compare_eq_lt_iff, Std.LawfulEqCmp.compare_eq_iff_eq,
      compare_eq_gt_iff, Std.OrientedCmp.eq_swap⟩
  · intro left right leftMade rightMade
    rw [Std.LawfulEqCmp.compare_eq_iff_eq]
    exact leftMade.canonical.eq_iff_toText_eq rightMade.canonical
  · intro identifiers
    exact ⟨sorted_sort identifiers, perm_sort identifiers, fun _ => sort_eq_of_perm⟩

/-- A version comes before a qualifier, although its text does not. -/
theorem compare_linear_versioned :
    let bare : Identifier := ⟨"lib".toList, [], none⟩
    let versioned : Identifier := ⟨"lib".toList, [], some ['1']⟩
    let qualified : Identifier := ⟨"lib".toList, [['q']], none⟩
    Before bare qualified ∧ Before versioned qualified ∧
      Text.Before qualified.toText versioned.toText ∧
      (versioned.compare qualified = .eq ↔ versioned.toText = qualified.toText) ∧
      sort [qualified, versioned, bare] = sort [bare, versioned, qualified] := by
  intro bare versioned qualified
  rcases compare_linear with ⟨order, trans, texts, sorted⟩
  have first : Before bare versioned := (order bare versioned).2.1.1 rfl
  have second : Before versioned qualified := (order versioned qualified).2.1.1 rfl
  have versionedMade : versioned.Made := ⟨"lib".toList, ["v1".toList], [], rfl⟩
  have qualifiedMade : qualified.Made := ⟨"lib".toList, [['q']], [], rfl⟩
  refine ⟨trans _ _ _ first second, second, Text.compare_eq_lt_iff.1 rfl,
    texts _ _ versionedMade qualifiedMade, ?_⟩
  exact (sorted _).2.2 _ (by decide)

end Identifier

end BundleDecl
