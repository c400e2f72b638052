import BundleDecl.Proofs.Declarations.Filter
import BundleDecl.Proofs.Declarations.RoundTrip

/-!
# Dropping optional dependencies

What is left without the optional dependencies are exactly the required ones, and the targets that
have some. Metadata have one value for each name, so whether a dependency is optional depends on
what they say and not on their order; and since `true` is a value without a line break, it does not
change when declarations are written and read again.
-/

namespace BundleDecl

namespace Dependency

/-- The word `true` in any letter case. -/
def SaysTrue (value : Text) : Prop :=
  List.Forall₂ (fun character letters => character ∈ letters) value
    [['t', 'T'], ['r', 'R'], ['u', 'U'], ['e', 'E']]

theorem lower_eq_true_iff {value : Text} :
    Text.lower value = ("true" : Text) ↔ SaysTrue value := by
  have letters : ("true" : Text) = ['t', 'r', 'u', 'e'] := rfl
  rw [letters, Text.lower, ← List.forall₂_eq_eq_eq, List.forall₂_map_left_iff, SaysTrue]
  simp only [List.forall₂_cons_right_iff, List.forall₂_nil_right_iff,
    Text.lowerCharacter_eq_letter_iff 't' 'T' (by decide) rfl,
    Text.lowerCharacter_eq_letter_iff 'r' 'R' (by decide) rfl,
    Text.lowerCharacter_eq_letter_iff 'u' 'U' (by decide) rfl,
    Text.lowerCharacter_eq_letter_iff 'e' 'E' (by decide) rfl]

theorem isOptional_eq_true_iff {dependency : Dependency} :
    dependency.isOptional = true ↔ ∃ value,
      Entries.get? "optional".toList dependency.metadata = some value ∧ SaysTrue value := by
  rw [isOptional, isMarked, Option.any_eq_true]
  simp only [beq_iff_eq, lower_eq_true_iff]

/-- The metadata have one value for each name. -/
def Keyed (dependency : Dependency) : Prop :=
  (dependency.metadata.map Prod.fst).Nodup

theorem Keyed.isOptional_eq_of_same {left right : Dependency} (keyed : left.Keyed)
    (same : left.same right = true) : left.isOptional = right.isOptional := by
  have perm := (same_eq_true_iff.1 same).2.2
  rw [Bool.eq_iff_iff, isOptional_eq_true_iff, isOptional_eq_true_iff,
    Entries.get?_eq_of_perm keyed perm]

theorem saysTrue_withLineFeeds_iff {value : Text} :
    SaysTrue (Text.withLineFeeds value) ↔ SaysTrue value := by
  have noBreak {text : Text} (saysTrue : SaysTrue text) {character : Char}
      (member : character ∈ text) : Text.lowerCharacter character ∈ ("true" : Text) := by
    rw [← lower_eq_true_iff.2 saysTrue]
    exact List.mem_map_of_mem member
  constructor
  · intro saysTrue
    have noFeed : '\n' ∉ Text.withLineFeeds value := by
      intro feed
      exact absurd (noBreak saysTrue feed) (by decide)
    rwa [Text.withLineFeeds_eq_self_of_noFeed noFeed] at saysTrue
  · intro saysTrue
    have noReturn : '\r' ∉ value := by
      intro feed
      exact absurd (noBreak saysTrue feed) (by decide)
    rwa [Text.withLineFeeds_eq_self noReturn]

theorem isOptional_withLineFeeds (dependency : Dependency) :
    dependency.withLineFeeds.isOptional = dependency.isOptional := by
  rw [Bool.eq_iff_iff, isOptional_eq_true_iff, isOptional_eq_true_iff]
  simp only [withLineFeeds, Entries.get?_map_value, Option.map_eq_some_iff]
  constructor
  · rintro ⟨_, ⟨value, found, rfl⟩, saysTrue⟩
    exact ⟨value, found, saysTrue_withLineFeeds_iff.1 saysTrue⟩
  · rintro ⟨value, found, saysTrue⟩
    exact ⟨_, ⟨value, found, rfl⟩, saysTrue_withLineFeeds_iff.2 saysTrue⟩
end Dependency

namespace DependencyList

/-- The metadata of every dependency have one value for each name. -/
def Keyed (list : DependencyList) : Prop :=
  ∀ dependency ∈ list.dependencies, dependency.Keyed

variable {list : DependencyList} {dependency : Dependency}

theorem required_eq_some_iff {kept : Dependency} :
    required dependency = some kept ↔ dependency.isOptional = false ∧ dependency = kept := by
  rw [required]
  cases dependency.isOptional <;> simp

theorem filterMap_required (dependencies : List Dependency) :
    dependencies.filterMap required =
      dependencies.filter fun dependency => !dependency.isOptional := by
  rw [← List.filterMap_eq_filter]
  apply List.filterMap_congr
  intro dependency _
  rw [required]
  cases known : dependency.isOptional <;> simp [Option.guard, known]

theorem unchanged_withoutOptionals_iff :
    list.withoutOptionals.unchanged = true ↔ list.hasOptional = false := by
  rw [withoutOptionals, unchanged_filter_iff, hasOptional, List.any_eq_false]
  apply forall_congr'
  intro dependency
  apply imp_congr_right
  intro _
  simp only [required_eq_some_iff, Bool.not_eq_true]
  constructor
  · rintro ⟨kept, ⟨isRequired, -⟩, -⟩
    exact isRequired
  · intro isRequired
    exact ⟨dependency, ⟨isRequired, rfl⟩, dependency.same_refl⟩

/-- The list without its optional dependencies holds the required ones. -/
theorem Keyed.holds_withoutOptionals_iff (keyed : list.Keyed) :
    list.withoutOptionals.value.holds dependency = true ↔
      list.holds dependency = true ∧ dependency.isOptional = false := by
  rw [withoutOptionals, holds_filter_eq_true_iff, holds_eq_true_iff]
  simp only [required_eq_some_iff]
  constructor
  · rintro ⟨known, member, kept, ⟨isRequired, rfl⟩, same⟩
    have alike := Dependency.same_comm _ _ ▸ same
    refine ⟨⟨known, member, same⟩, ?_⟩
    rw [← (keyed known member).isOptional_eq_of_same alike, isRequired]
  · rintro ⟨⟨known, member, same⟩, isRequired⟩
    have alike := Dependency.same_comm _ _ ▸ same
    rw [← (keyed known member).isOptional_eq_of_same alike] at isRequired
    exact ⟨known, member, known, ⟨isRequired, rfl⟩, same⟩

theorem Keyed.same_withoutOptionals (keyed : list.Keyed) {other : DependencyList}
    (otherKeyed : other.Keyed) (same : list.same other = true) :
    list.withoutOptionals.value.same other.withoutOptionals.value = true := by
  rw [same_eq_true_iff] at same ⊢
  intro dependency
  rw [keyed.holds_withoutOptionals_iff, otherKeyed.holds_withoutOptionals_iff, same]

/-- A list that is the same without its optional dependencies has none. -/
theorem Keyed.hasOptional_of_same (keyed : list.Keyed)
    (same : list.withoutOptionals.value.same list = true) : list.hasOptional = false := by
  rw [hasOptional, List.any_eq_false]
  intro dependency member
  have holds := (same_eq_true_iff.1 same dependency).2 (holds_of_mem member)
  simp [(keyed.holds_withoutOptionals_iff.1 holds).2]

theorem mem_withoutOptionals (member : dependency ∈ list.withoutOptionals.value.dependencies) :
    dependency ∈ list.dependencies ∧ dependency.isOptional = false := by
  rcases unchanged : list.withoutOptionals.unchanged with _ | _
  · rw [withoutOptionals, value_filter_of_changed unchanged, filterMap_required] at member
    simpa using mem_of_mem_distinctFrom member
  · have isRequired := unchanged_withoutOptionals_iff.1 unchanged
    rw [withoutOptionals, value_filter_of_unchanged unchanged] at member
    rw [hasOptional, List.any_eq_false] at isRequired
    exact ⟨member, by simpa using isRequired dependency member⟩

theorem isEmpty_withoutOptionals (list : DependencyList) :
    list.withoutOptionals.value.isEmpty = list.dependencies.all Dependency.isOptional := by
  rw [Bool.eq_iff_iff, List.all_eq_true]
  constructor
  · intro empty dependency member
    by_contra isRequired
    have holds : list.withoutOptionals.value.holds dependency = true :=
      holds_filter_eq_true_iff.2 ⟨dependency, member, dependency,
        required_eq_some_iff.2 ⟨by simpa using isRequired, rfl⟩, dependency.same_refl⟩
    rcases holds_eq_true_iff.1 holds with ⟨known, knownMem, -⟩
    rw [List.isEmpty_iff.1 empty] at knownMem
    contradiction
  · intro all
    rw [isEmpty, List.isEmpty_iff, List.eq_nil_iff_forall_not_mem]
    intro dependency member
    rcases mem_withoutOptionals member with ⟨member, isRequired⟩
    rw [all dependency member] at isRequired
    contradiction

/-- Without its optional dependencies a list has the required ones in their order. -/
theorem dependencies_withoutOptionals (separate : Separate list.dependencies) :
    list.withoutOptionals.value.dependencies =
      list.dependencies.filter fun dependency => !dependency.isOptional := by
  rcases unchanged : list.withoutOptionals.unchanged with _ | _
  · rw [withoutOptionals, value_filter_of_changed unchanged, filterMap_required, ofList,
      distinctFrom_eq_self (separate.sublist List.filter_sublist) (by simp)]
  · have isRequired := unchanged_withoutOptionals_iff.1 unchanged
    rw [hasOptional, List.any_eq_false] at isRequired
    rw [withoutOptionals, value_filter_of_unchanged unchanged, List.filter_eq_self.2]
    intro dependency member
    simpa using isRequired dependency member

end DependencyList

namespace Declarations

/-- The metadata of every dependency have one value for each name. -/
def Keyed (declarations : Declarations) : Prop :=
  ∀ entry ∈ declarations.entries, entry.2.Keyed

variable {declarations : Declarations}

/-- What is left of an entry without its optional dependencies. -/
def requiredEntry (entry : Identifier × DependencyList) : Option (Identifier × DependencyList) :=
  if entry.2.dependencies.all Dependency.isOptional then
    none
  else
    some (entry.1, entry.2.withoutOptionals.value)

theorem remaining_withoutOptionals :
    remaining (fun _ list => some list.withoutOptionals.value) = requiredEntry := by
  funext entry
  rw [remaining, requiredEntry, ← DependencyList.isEmpty_withoutOptionals]
  cases empty : entry.2.withoutOptionals.value.isEmpty <;> simp [Option.filter, empty]

theorem requiredEntry_eq_some_iff {entry kept : Identifier × DependencyList} :
    requiredEntry entry = some kept ↔
      (∃ dependency ∈ entry.2.dependencies, dependency.isOptional = false) ∧
        kept = (entry.1, entry.2.withoutOptionals.value) := by
  rw [requiredEntry]
  split
  · rename_i all
    rw [List.all_eq_true] at all
    refine iff_of_false nofun ?_
    rintro ⟨⟨dependency, member, isRequired⟩, -⟩
    rw [all dependency member] at isRequired
    contradiction
  · rename_i some
    rw [List.all_eq_true] at some
    push Not at some
    simp only [Bool.not_eq_true] at some
    rw [Option.some.injEq, eq_comm, and_iff_right some]

theorem Keyed.unchanged_withoutOptionals_iff (keyed : declarations.Keyed) :
    declarations.withoutOptionals.unchanged = true ↔ declarations.hasOptional = false := by
  rw [withoutOptionals, unchanged_filter_iff, hasOptional, List.any_eq_false]
  apply forall_congr'
  intro entry
  apply imp_congr_right
  intro member
  simp only [Option.some.injEq, exists_eq_left', Bool.not_eq_true]
  constructor
  · exact (keyed entry member).hasOptional_of_same
  · intro isRequired
    rw [← DependencyList.unchanged_withoutOptionals_iff] at isRequired
    rw [DependencyList.withoutOptionals, DependencyList.value_filter_of_unchanged isRequired]
    exact entry.2.same_refl

/-- Dropping optional dependencies drops them from each entry. -/
theorem Keyed.entries_withoutOptionals (keyed : declarations.Keyed)
    (created : declarations.Created) :
    declarations.withoutOptionals.value.entries =
      declarations.entries.filterMap requiredEntry := by
  rcases unchanged : declarations.withoutOptionals.unchanged with _ | _
  · rw [withoutOptionals, value_filter_of_changed unchanged, remaining_withoutOptionals]
  · have isRequired := keyed.unchanged_withoutOptionals_iff.1 unchanged
    rw [hasOptional, List.any_eq_false] at isRequired
    rw [withoutOptionals, value_filter_of_unchanged unchanged]
    -- No list has an optional dependency, so each of them is left as it is.
    have kept : ∀ entry ∈ declarations.entries, requiredEntry entry = some entry := by
      intro entry member
      have required : entry.2.hasOptional = false := by simpa using isRequired entry member
      have nonempty := (created_iff.1 created).2.2 entry member
      rw [requiredEntry_eq_some_iff]
      constructor
      · rcases List.exists_mem_of_ne_nil _ (List.isEmpty_eq_false_iff.1 nonempty) with
          ⟨dependency, dependencyMem⟩
        rw [DependencyList.hasOptional, List.any_eq_false] at required
        exact ⟨dependency, dependencyMem, by simpa using required dependency dependencyMem⟩
      · rw [← DependencyList.unchanged_withoutOptionals_iff] at required
        rw [DependencyList.withoutOptionals, DependencyList.value_filter_of_unchanged required]
    rw [List.filterMap_congr kept, List.filterMap_some]

theorem Keyed.exists_of_mem_withoutOptionals (keyed : declarations.Keyed)
    (created : declarations.Created) {entry : Identifier × DependencyList}
    (member : entry ∈ declarations.withoutOptionals.value.entries) :
    ∃ known ∈ declarations.entries,
      (∃ dependency ∈ known.2.dependencies, dependency.isOptional = false) ∧
        entry = (known.1, known.2.withoutOptionals.value) := by
  rw [keyed.entries_withoutOptionals created] at member
  simpa only [List.mem_filterMap, requiredEntry_eq_some_iff] using member

theorem Keyed.hasOptional_withoutOptionals (keyed : declarations.Keyed)
    (created : declarations.Created) :
    declarations.withoutOptionals.value.hasOptional = false := by
  rw [hasOptional, List.any_eq_false]
  intro entry member
  rcases keyed.exists_of_mem_withoutOptionals created member with ⟨known, -, -, rfl⟩
  change ¬known.2.withoutOptionals.value.hasOptional = true
  rw [Bool.not_eq_true, DependencyList.hasOptional, List.any_eq_false]
  intro dependency dependencyMem
  simp [(DependencyList.mem_withoutOptionals dependencyMem).2]

theorem Keyed.withoutOptionals (keyed : declarations.Keyed) (created : declarations.Created) :
    declarations.withoutOptionals.value.Keyed := by
  intro entry member dependency dependencyMem
  rcases keyed.exists_of_mem_withoutOptionals created member with ⟨known, knownMem, -, rfl⟩
  exact keyed known knownMem dependency (DependencyList.mem_withoutOptionals dependencyMem).1

theorem Keyed.withoutOptionals_withoutOptionals (keyed : declarations.Keyed)
    (created : declarations.Created) :
    declarations.withoutOptionals.value.withoutOptionals.value =
      declarations.withoutOptionals.value := by
  apply value_filter_of_unchanged
  exact (keyed.withoutOptionals created).unchanged_withoutOptionals_iff.2
    (keyed.hasOptional_withoutOptionals created)

theorem Keyed.targets_withoutOptionals (keyed : declarations.Keyed)
    (created : declarations.Created) :
    declarations.withoutOptionals.value.entries.map Prod.fst =
      (declarations.entries.filter fun entry =>
        entry.2.dependencies.any fun dependency => !dependency.isOptional).map Prod.fst := by
  rw [keyed.entries_withoutOptionals created, ← remaining_withoutOptionals,
    targets_filterMap_remaining]
  simp only [Option.any_some, DependencyList.isEmpty_withoutOptionals, List.not_all_eq_any_not]

theorem Keyed.get?_withoutOptionals (keyed : declarations.Keyed) (created : declarations.Created)
    (target : Identifier) :
    declarations.withoutOptionals.value.get? target =
      (declarations.get? target).bind fun list =>
        (some list.withoutOptionals.value).filter fun list => !list.isEmpty := by
  rw [get?, keyed.entries_withoutOptionals created, ← remaining_withoutOptionals,
    get?_filterMap_remaining (created_iff.1 created).1]
  rfl

theorem Keyed.withoutOptionals_eq_empty_iff (keyed : declarations.Keyed)
    (created : declarations.Created) :
    declarations.withoutOptionals.value = empty ↔ ∀ entry ∈ declarations.entries,
      ∀ dependency ∈ entry.2.dependencies, dependency.isOptional = true := by
  have entries : declarations.withoutOptionals.value = empty ↔
      declarations.withoutOptionals.value.entries = [] := by
    rw [empty, Declarations.mk.injEq]
  rw [entries, keyed.entries_withoutOptionals created, List.filterMap_eq_nil_iff]
  simp only [requiredEntry, ite_eq_left_iff, reduceCtorEq, imp_false, not_not, List.all_eq_true]

theorem get?_mem_entries {target : Identifier} {list : DependencyList}
    (created : declarations.Created) (known : declarations.get? target = some list) :
    (target, list) ∈ declarations.entries :=
  (Entries.get?_eq_some_iff (created_iff.1 created).1).1 known

/-- Same declarations are the same without their optional dependencies. -/
theorem Keyed.same_withoutOptionals (keyed : declarations.Keyed) (created : declarations.Created)
    {other : Declarations} (otherKeyed : other.Keyed) (otherCreated : other.Created)
    (same : declarations.same other = true) :
    declarations.withoutOptionals.value.same other.withoutOptionals.value = true := by
  rw [same_eq_true_iff (created_iff.1 created).1 (created_iff.1 otherCreated).1] at same
  apply (same_eq_true_iff created.distinct_filter otherCreated.distinct_filter).2
  intro target
  have related := same target
  rw [← Declarations.withoutOptionals, ← Declarations.withoutOptionals,
    keyed.get?_withoutOptionals created, otherKeyed.get?_withoutOptionals otherCreated]
  rcases known : declarations.get? target with _ | list
  · rcases otherKnown : other.get? target with _ | otherList
    · exact .none
    · rw [known, otherKnown] at related
      contradiction
  · rcases otherKnown : other.get? target with _ | otherList
    · rw [known, otherKnown] at related
      contradiction
    · rw [known, otherKnown, Option.rel_some_some] at related
      have alike := (keyed _ (get?_mem_entries created known)).same_withoutOptionals
        (otherKeyed _ (get?_mem_entries otherCreated otherKnown)) related
      have empty := DependencyList.isEmpty_eq_of_same alike
      cases left : list.withoutOptionals.value.isEmpty with
      | true => simp [Option.filter, left, ← empty]
      | false => simpa [Option.filter, left, ← empty] using alike

end Declarations

/-! ## Writing and reading -/

namespace DependencyList

variable {list : DependencyList}

theorem isEmpty_withLineFeeds (list : DependencyList) :
    list.withLineFeeds.isEmpty = list.isEmpty := by
  rcases list with ⟨_ | ⟨dependency, dependencies⟩⟩ <;> rfl

theorem Keyed.withLineFeeds (keyed : list.Keyed) : list.withLineFeeds.Keyed := by
  intro dependency member
  rcases List.mem_map.1 (mem_of_mem_distinctFrom member) with ⟨known, knownMem, rfl⟩
  rw [Dependency.Keyed, Dependency.withLineFeeds, List.map_map]
  exact keyed known knownMem

/-- Optional dependencies may be dropped before or after the line breaks become line feeds. -/
theorem Keyed.withoutOptionals_withLineFeeds (keyed : list.Keyed)
    (separate : Separate list.dependencies) :
    list.withLineFeeds.withoutOptionals.value = list.withoutOptionals.value.withLineFeeds := by
  have mapped : ∀ dependency ∈ list.dependencies.map Dependency.withLineFeeds,
      dependency.Keyed := by
    intro dependency member
    rcases List.mem_map.1 member with ⟨known, knownMem, rfl⟩
    rw [Dependency.Keyed, Dependency.withLineFeeds, List.map_map]
    exact keyed known knownMem
  have spread : Separate list.withLineFeeds.dependencies := separate_distinctFrom [] _
  have dependencies : list.withLineFeeds.withoutOptionals.value.dependencies =
      list.withoutOptionals.value.withLineFeeds.dependencies := by
    rw [dependencies_withoutOptionals spread, DependencyList.withLineFeeds, ofList,
      filter_distinctFrom, DependencyList.withLineFeeds, dependencies_withoutOptionals separate,
      List.filter_map]
    · simp only [Function.comp_def, Dependency.isOptional_withLineFeeds]
      rfl
    · intro dependency member other _ same
      rw [(mapped dependency member).isOptional_eq_of_same same]
  exact congrArg DependencyList.mk dependencies

end DependencyList

namespace Declarations

variable {declarations : Declarations}

theorem Canonical.created (canonical : declarations.Canonical) : declarations.Created := by
  refine created_iff.2 ⟨canonical.distinct, ?_, ?_⟩
  · intro entry member
    exact (canonical.entry entry member).unversioned
  · intro entry member
    simpa [DependencyList.isEmpty] using (canonical.entry entry member).nonempty

theorem Canonical.keyed (canonical : declarations.Canonical) : declarations.Keyed := by
  intro entry member dependency dependencyMem
  exact ((canonical.entry entry member).dependency dependency dependencyMem).parts.distinct

theorem Canonical.withoutOptionals (canonical : declarations.Canonical) :
    declarations.withoutOptionals.value.Canonical := by
  refine ⟨?_, canonical.created.distinct_filter⟩
  intro entry member
  rcases canonical.keyed.exists_of_mem_withoutOptionals canonical.created member with
    ⟨known, knownMem, isRequired, rfl⟩
  have described := canonical.entry known knownMem
  have kept := DependencyList.dependencies_withoutOptionals described.separate
  refine { described with nonempty := ?_, separate := ?_, dependency := ?_ }
  · rcases isRequired with ⟨dependency, dependencyMem, isRequired⟩
    rw [kept]
    exact List.ne_nil_of_mem (List.mem_filter.2 ⟨dependencyMem, by simp [isRequired]⟩)
  · rw [kept]
    exact described.separate.sublist List.filter_sublist
  · intro dependency dependencyMem
    exact described.dependency dependency (DependencyList.mem_withoutOptionals dependencyMem).1

theorem requiredEntry_withLineFeeds {entry : Identifier × DependencyList} (keyed : entry.2.Keyed)
    (separate : DependencyList.Separate entry.2.dependencies) :
    requiredEntry (entry.1, entry.2.withLineFeeds) =
      (requiredEntry entry).map fun kept => (kept.1, kept.2.withLineFeeds) := by
  have kept := keyed.withoutOptionals_withLineFeeds separate
  simp only [requiredEntry, ← DependencyList.isEmpty_withoutOptionals, kept,
    DependencyList.isEmpty_withLineFeeds]
  split <;> rfl

theorem Canonical.withoutOptionals_withLineFeeds (canonical : declarations.Canonical) :
    declarations.withLineFeeds.withoutOptionals.value =
      declarations.withoutOptionals.value.withLineFeeds := by
  have created : declarations.withLineFeeds.Created := by
    rw [created_iff, withLineFeeds, List.map_map, List.forall_mem_map, List.forall_mem_map]
    refine ⟨canonical.distinct, (created_iff.1 canonical.created).2.1, ?_⟩
    intro entry member
    rw [DependencyList.isEmpty_withLineFeeds]
    exact (created_iff.1 canonical.created).2.2 entry member
  have keyed : declarations.withLineFeeds.Keyed := by
    rw [Keyed, withLineFeeds, List.forall_mem_map]
    intro entry member
    exact (canonical.keyed entry member).withLineFeeds
  have entries : declarations.withLineFeeds.withoutOptionals.value.entries =
      declarations.withoutOptionals.value.withLineFeeds.entries := by
    rw [keyed.entries_withoutOptionals created, withLineFeeds, withLineFeeds,
      canonical.keyed.entries_withoutOptionals canonical.created, List.filterMap_map,
      List.map_filterMap]
    apply List.filterMap_congr
    intro entry member
    exact requiredEntry_withLineFeeds (canonical.keyed entry member)
      (canonical.entry entry member).separate
  exact congrArg Declarations.mk entries

/-- What is left of declarations without their optional dependencies. -/
structure DropsOptionals (declarations : Declarations) (required : Transformed Declarations) :
    Prop where
  none : required.value.hasOptional = false
  /-- The targets with a required dependency are left, in order. -/
  targets : required.value.entries.map Prod.fst =
    (declarations.entries.filter fun entry =>
      entry.2.dependencies.any fun dependency => !dependency.isOptional).map Prod.fst
  /-- Each of them has its required dependencies, in order. -/
  lists : ∀ target list kept, declarations.get? target = some list →
    required.value.get? target = some kept → DependencyList.Separate list.dependencies →
      kept.dependencies = list.dependencies.filter fun dependency => !dependency.isOptional
  unchanged_iff : required.unchanged = true ↔ declarations.hasOptional = false
  kept : required.unchanged = true → required.value = declarations
  empty_iff : required.value = empty ↔ ∀ entry ∈ declarations.entries,
    ∀ dependency ∈ entry.2.dependencies, dependency.isOptional = true
  /-- Doing it again changes nothing. -/
  again : required.value.withoutOptionals.value = required.value
  /-- Same declarations become the same. -/
  same : ∀ other : Declarations, other.Created → other.Keyed → declarations.same other = true →
    required.value.same other.withoutOptionals.value = true

/-- The laws of optional dependencies. -/
structure OptionalLaws : Prop where
  drops (declarations : Declarations) (created : declarations.Created)
    (keyed : declarations.Keyed) : declarations.DropsOptionals declarations.withoutOptionals
  /-- A dependency is optional if it says so under one name. -/
  optional_iff (dependency : Dependency) (keyed : dependency.Keyed) :
    dependency.isOptional = true ↔ ∃ value,
      ("optional".toList, value) ∈ dependency.metadata ∧ Dependency.SaysTrue value
  /-- It does not matter whether optional dependencies are dropped before declarations are written
  or after they are read again. -/
  written (declarations : Declarations) (wellFormed : declarations.WellFormed)
    (declaring : Option Identifier) : ∃ read, ofText declaring declarations.toText = .ok read ∧
      ofText declaring declarations.withoutOptionals.value.toText =
        .ok read.withoutOptionals.value

/-- Without their optional dependencies declarations have none. They have the targets with a
required dependency, each with its required dependencies; they are the declarations as they were if
and only if there was no optional dependency, and empty if and only if there was no other one. -/
theorem withoutOptionals_exact : OptionalLaws where
  drops declarations created keyed := by
    refine ⟨keyed.hasOptional_withoutOptionals created, keyed.targets_withoutOptionals created, ?_,
      keyed.unchanged_withoutOptionals_iff, value_filter_of_unchanged,
      keyed.withoutOptionals_eq_empty_iff created,
      keyed.withoutOptionals_withoutOptionals created, ?_⟩
    · intro target list kept known left separate
      rw [keyed.get?_withoutOptionals created, known, Option.bind_some,
        Option.filter_eq_some_iff, Option.some.injEq] at left
      rw [← left.1, DependencyList.dependencies_withoutOptionals separate]
    · intro other otherCreated otherKeyed same
      exact keyed.same_withoutOptionals created otherKeyed otherCreated same
  optional_iff dependency keyed := by
    rw [Dependency.isOptional_eq_true_iff]
    simp only [Entries.get?_eq_some_iff keyed]
  written declarations wellFormed declaring := by
    have canonical := wellFormed.canonical
    refine ⟨_, canonical.ofText_toText_eq_ok, ?_⟩
    rw [canonical.withoutOptionals_withLineFeeds]
    exact canonical.withoutOptionals.ofText_toText_eq_ok

theorem withoutOptionals_exact_emptied :
    let dependency (value : Text) : Dependency :=
      ⟨["api".toList], .minimum ['1'], [("optional".toList, value)]⟩
    let lib : Identifier := ⟨"lib".toList, [], none⟩
    let tool : Identifier := ⟨"tool".toList, [], none⟩
    let mixed : DependencyList :=
      ⟨[dependency "TRUE".toList, dependency "true\r".toList, dependency "tRue".toList]⟩
    let declarations : Declarations := ⟨[(tool, ⟨[dependency "true".toList]⟩), (lib, mixed)]⟩
    let reversed : Declarations := ⟨[(lib, mixed), (tool, ⟨[dependency "true".toList]⟩)]⟩
    let required := declarations.withoutOptionals.value
    required.entries.map Prod.fst = [lib] ∧
      (∀ kept, required.get? lib = some kept →
        kept.dependencies = [dependency "true\r".toList]) ∧
      required.same reversed.withoutOptionals.value = true ∧
      ((dependency "tRue".toList).isOptional = true ↔ ∃ value,
        ("optional".toList, value) ∈ (dependency "tRue".toList).metadata ∧
          Dependency.SaysTrue value) ∧
      ∃ read, ofText none declarations.toText = .ok read ∧
        ofText none required.toText = .ok read.withoutOptionals.value := by
  intro dependency lib tool mixed declarations reversed required
  have keyed (value : Text) : (dependency value).Keyed := by
    simp [Dependency.Keyed, dependency]
  have made (value : Text) :
      (dependency value).Built ∧ (dependency value).range.WellFormed := by
    refine ⟨?_, .minimum rfl⟩
    have kinds : Builder.Reachable ⟨["api".toList], some (.minimum ['1']), []⟩ :=
      @Builder.Reachable.addKind _ _ "api".toList (.setRange (some (.minimum ['1'])) .empty) rfl
    exact ⟨_, @Builder.Reachable.addMetadata _ _ "optional".toList value kinds rfl, rfl⟩
  have allKeyed : declarations.Keyed := by
    simp [Keyed, DependencyList.Keyed, declarations, mixed, keyed]
  have reversedKeyed : reversed.Keyed := by
    simp [Keyed, DependencyList.Keyed, reversed, mixed, keyed]
  have created : declarations.Created := ⟨declarations.entries, by decide, rfl⟩
  have reversedCreated : reversed.Created := ⟨reversed.entries, by decide, rfl⟩
  have wellFormed : declarations.WellFormed := by
    refine ⟨declarations.entries, ⟨by decide, ?_, ?_⟩, rfl⟩
    · intro entry member
      rcases List.mem_pair.1 member with rfl | rfl
      · exact ⟨"tool".toList, [], rfl⟩
      · exact ⟨"lib".toList, [], rfl⟩
    · intro entry member
      refine ⟨entry.2.dependencies, ?_, ?_⟩
      · rcases List.mem_pair.1 member with rfl | rfl <;> rfl
      · rcases List.mem_pair.1 member with rfl | rfl
        · exact List.forall_mem_singleton.2 (made _)
        · simp only [mixed, List.forall_mem_cons, made, and_self, true_and]
          exact List.forall_mem_nil _
  have drops := withoutOptionals_exact.drops declarations created allKeyed
  have separate : DependencyList.Separate mixed.dependencies := by
    rw [DependencyList.Separate]
    decide
  refine ⟨drops.targets, ?_, drops.same reversed reversedCreated reversedKeyed rfl,
    withoutOptionals_exact.optional_iff _ (keyed _),
    withoutOptionals_exact.written declarations wellFormed none⟩
  intro kept left
  exact drops.lists lib mixed kept rfl left separate

end Declarations

end BundleDecl
