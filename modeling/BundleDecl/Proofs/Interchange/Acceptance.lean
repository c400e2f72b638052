import BundleDecl.Proofs.Interchange.Stated

/-!
# Which values are decoded

A value of any form is either decoded or refused, with the least of its violations if it does not
have the form of declarations. Otherwise it is accepted if and only if its texts are, each by
itself, and all identifiers are different; and the result is written as the same value in canonical
form.
-/

namespace BundleDecl

namespace Interchange

/-! ## Acceptance -/

theorem TargetData.exists_denotes {target : TargetData} {identifier : Identifier}
    (read : Identifier.ofText target.bundle = .ok identifier)
    (acceptable : ∀ data ∈ target.dependencies, data.Acceptable) :
    ∃ list, target.Denotes (identifier, list) := by
  have denoted : ∀ data ∈ target.dependencies, ∃ dependency, data.Denotes dependency := by
    intro data member
    exact (acceptable data member).exists_denotes
  rcases exists_forall₂ denoted with ⟨dependencies, related⟩
  exact ⟨.ofList dependencies, read, dependencies, rfl, related⟩

/-- Every bundle is that of an identifier without version, no two of them the same, and every
dependency is accepted. -/
structure Acceptable (targets : List TargetData) : Prop where
  bundles : ∃ identifiers, List.Forall₂ (fun target identifier =>
      Identifier.ofText target.bundle = .ok identifier) targets identifiers ∧
    (∀ identifier ∈ identifiers, identifier.version = none) ∧ identifiers.Nodup
  dependencies : ∀ target ∈ targets, ∀ data ∈ target.dependencies, data.Acceptable

theorem exists_stated {targets : List TargetData} {identifiers : List Identifier}
    (read : List.Forall₂ (fun target identifier =>
      Identifier.ofText target.bundle = .ok identifier) targets identifiers)
    (acceptable : ∀ target ∈ targets, ∀ data ∈ target.dependencies, data.Acceptable) :
    ∃ entries, List.Forall₂ TargetData.Denotes targets entries ∧
      entries.map Prod.fst = identifiers := by
  induction read with
  | nil => exact ⟨[], .nil, rfl⟩
  | @cons target identifier _ _ first _ ih =>
      rw [List.forall_mem_cons] at acceptable
      rcases TargetData.exists_denotes first acceptable.1 with ⟨list, denotes⟩
      rcases ih acceptable.2 with ⟨entries, stated, rfl⟩
      exact ⟨(identifier, list) :: entries, .cons denotes stated, rfl⟩

/-- What is stated makes entries if and only if it is acceptable. -/
theorem acceptable_iff {targets : List TargetData} :
    Acceptable targets ↔
      (∀ target ∈ targets, ∀ data ∈ target.dependencies, data.Acceptable) ∧
        ∃ entries, Denotes targets entries := by
  constructor
  · rintro ⟨⟨identifiers, read, unversioned, distinct⟩, dependencies⟩
    rcases exists_stated read dependencies with ⟨entries, stated, rfl⟩
    exact ⟨dependencies, entries, stated, distinct, List.forall_mem_map.1 unversioned⟩
  · rintro ⟨dependencies, entries, denotes⟩
    refine ⟨⟨entries.map Prod.fst, ?_, ?_, denotes.distinct⟩, dependencies⟩
    · rw [List.forall₂_map_right_iff]
      exact denotes.stated.imp fun _ _ known => known.bundle
    · exact List.forall_mem_map.2 denotes.unversioned

/-! ## Canonical form -/

namespace DependencyData

/-- The data with sorted kinds and the range in canonical text; no other text is a range. -/
def canonical (data : DependencyData) : DependencyData :=
  match Range.ofText data.range with
  | .ok range => ⟨SortedSet.ofList data.kinds, range.toText, data.metadata⟩
  | .error _ => data

/-- Whether data have the same kinds, range and metadata, the latter in any order. -/
def same (left right : DependencyData) : Bool :=
  left.kinds == right.kinds && left.range == right.range && left.metadata.isPerm right.metadata

/-- What is stated of a dependency by the value that it is written as. -/
def ofDependency (dependency : Dependency) : DependencyData :=
  ⟨dependency.kinds, dependency.range.toText, dependency.metadata⟩

theorem Denotes.canonical_eq {data : DependencyData} {dependency : Dependency}
    (denotes : data.Denotes dependency) : data.canonical = ofDependency dependency := by
  rw [canonical, denotes.range, ofDependency, denotes.kinds, denotes.metadata]

theorem same_ofDependency {left right : Dependency} (leftFormed : left.range.WellFormed)
    (rightFormed : right.range.WellFormed) :
    (ofDependency left).same (ofDependency right) = left.same right := by
  rw [Bool.eq_iff_iff, Dependency.same_eq_true_iff, leftFormed.eq_iff_toText_eq rightFormed]
  simp [same, ofDependency, List.isPerm_iff, and_assoc]

theorem any_same_ofDependency {dependency : Dependency} {seen : List Dependency}
    (formed : dependency.range.WellFormed) (seenFormed : ∀ known ∈ seen, known.range.WellFormed) :
    (seen.map ofDependency).any (same (ofDependency dependency)) =
      seen.any (dependency.same ·) := by
  rw [List.any_map, Bool.eq_iff_iff, List.any_eq_true, List.any_eq_true]
  apply exists_congr
  intro known
  apply and_congr_right
  intro member
  rw [Function.comp_apply, same_ofDependency formed (seenFormed known member)]

/-- Dependencies that are the same as an earlier one are those whose data are. -/
theorem eraseDupsBy_map_ofDependency {dependencies : List Dependency}
    (formed : ∀ dependency ∈ dependencies, dependency.range.WellFormed) :
    (dependencies.map ofDependency).eraseDupsBy same =
      (DependencyList.distinctFrom [] dependencies).map ofDependency := by
  have loop (seen : List Dependency) (seenFormed : ∀ known ∈ seen, known.range.WellFormed) :
      List.eraseDupsBy.loop same (dependencies.map ofDependency) (seen.map ofDependency) =
        (seen.map ofDependency).reverse ++
          (DependencyList.distinctFrom seen dependencies).map ofDependency := by
    fun_induction DependencyList.distinctFrom seen dependencies with
    | case1 => simp [List.eraseDupsBy.loop]
    | case2 seen first rest known ih =>
        rw [List.forall_mem_cons] at formed
        rw [← any_same_ofDependency formed.1 seenFormed] at known
        rw [List.map_cons, List.eraseDupsBy.loop, known]
        exact ih formed.2 seenFormed
    | case3 seen first rest fresh ih =>
        rw [List.forall_mem_cons] at formed
        rw [← any_same_ofDependency formed.1 seenFormed, Bool.not_eq_true] at fresh
        rw [List.map_cons, List.eraseDupsBy.loop, fresh]
        have others := ih formed.2 (List.forall_mem_cons.2 ⟨formed.1, seenFormed⟩)
        rw [List.map_cons] at others
        simpa using others
  exact loop [] (List.forall_mem_nil _)

end DependencyData

namespace TargetData

/-- The data with the bundle in canonical text, and with every dependency in canonical form that is
not equal to an earlier one; no other text is an identifier. -/
def canonical (target : TargetData) : TargetData :=
  match Identifier.ofText target.bundle with
  | .ok identifier =>
    ⟨identifier.toText,
      (target.dependencies.map DependencyData.canonical).eraseDupsBy DependencyData.same⟩
  | .error _ => target

def toJson (target : TargetData) : Json :=
  .object [
    ("bundle", .string target.bundle),
    ("entries", .array (target.dependencies.map DependencyData.toJson))]

/-- An entry says what its target states in canonical form. -/
theorem Denotes.canonical_eq {target : TargetData} {entry : Identifier × DependencyList}
    (denotes : target.Denotes entry) :
    target.canonical =
      ⟨entry.1.toText, entry.2.dependencies.map DependencyData.ofDependency⟩ := by
  rcases denotes.list with ⟨dependencies, list, denoted⟩
  have canonicals : target.dependencies.map DependencyData.canonical =
      dependencies.map DependencyData.ofDependency :=
    map_eq_map_iff_forall₂.2 (denoted.imp fun _ _ known => known.canonical_eq)
  have formed : ∀ dependency ∈ dependencies, dependency.range.WellFormed := by
    intro dependency member
    rcases exists_left_of_forall₂ denoted member with ⟨data, -, known⟩
    exact Range.wellFormed_of_ofText known.range
  rw [canonical, denotes.bundle, canonicals, DependencyData.eraseDupsBy_map_ofDependency formed,
    list]
  rfl

end TargetData

/-- The value of targets in canonical form; targets without dependencies are left out. -/
def canonicalJson (targets : List TargetData) : Json :=
  .object [("dependencies", .array (((targets.map TargetData.canonical).filter fun target =>
    !target.dependencies.isEmpty).map TargetData.toJson))]

theorem Denotes.toJson_eq {targets : List TargetData}
    {entries : List (Identifier × DependencyList)} (denotes : Denotes targets entries) :
    (Declarations.mk (entries.filter fun entry => !entry.2.isEmpty)).toJson =
      canonicalJson targets := by
  have canonicals : targets.map TargetData.canonical = entries.map fun entry =>
      ⟨entry.1.toText, entry.2.dependencies.map DependencyData.ofDependency⟩ :=
    map_eq_map_iff_forall₂.2 (denotes.stated.imp fun _ _ known => known.canonical_eq)
  rw [canonicalJson, canonicals, List.filter_map, List.map_map]
  simp only [Function.comp_def, List.isEmpty_map, Declarations.toJson, TargetData.toJson,
    List.map_map]
  rfl

/-! ## The outcome -/

theorem exists_failure_of_liftM {Value : Type} {outcome : Except Failure Value} {refusal : Refusal}
    (refused : (liftM outcome : Except Refusal Value) = .error refusal) :
    ∃ failure, refusal = .failure failure := by
  rcases mapError_eq_error_iff.1 refused with ⟨failure, -, rfl⟩
  exact ⟨failure, rfl⟩

theorem exists_violation_of_check {schema : Schema} {value : Json} {refusal : Refusal}
    (refused : check schema value = .error refusal) : ∃ violation, refusal = .schema violation := by
  rw [check] at refused
  split at refused
  · contradiction
  · exact ⟨_, (Except.error.inj refused).symm⟩

theorem refused_of_addTarget {entries : List (Identifier × DependencyList)} {value : Json}
    {refusal : Refusal} (refused : Declarations.addTarget entries value = .error refusal) :
    (∃ identifier, refusal = .repeatedBundle identifier) ∨
      ∃ failure, refusal = .failure failure := by
  rw [Declarations.addTarget, bind_eq_error_iff] at refused
  rcases refused with refused | ⟨identifier, -, refused⟩
  · exact .inr (exists_failure_of_liftM refused)
  · split at refused
    · exact .inl ⟨identifier, (Except.error.inj refused).symm⟩
    · rcases bind_eq_error_iff.1 refused with refused | ⟨list, -, refused⟩
      · exact .inr (exists_failure_of_liftM refused)
      · contradiction

/-- A value is refused for its form, for a bundle that comes up twice or for one of its parts. -/
theorem refused_of_ofJson {value : Json} {refusal : Refusal}
    (refused : Declarations.ofJson value = .error refusal) :
    (∃ violation, refusal = .schema violation) ∨
      (∃ identifier, refusal = .repeatedBundle identifier) ∨
      ∃ failure, refusal = .failure failure := by
  rw [Declarations.ofJson, bind_eq_error_iff] at refused
  rcases refused with refused | ⟨⟨⟩, -, refused⟩
  · exact .inl (exists_violation_of_check refused)
  · rcases bind_eq_error_iff.1 refused with refused | ⟨entries, -, refused⟩
    · rcases foldlM_eq_error_iff.1 refused with ⟨_, _, _, _, -, -, refused⟩
      exact .inr (refused_of_addTarget refused)
    · exact .inr (.inr (exists_failure_of_liftM refused))

end Interchange

end BundleDecl
