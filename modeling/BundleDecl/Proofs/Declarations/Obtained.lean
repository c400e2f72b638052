import BundleDecl.Delivery
import BundleDecl.Proofs.Interchange

/-!
# Declarations however they were obtained

Declarations are read from text or from JSON, made of entries, filtered by any transformation and
freed of optional dependencies, in any number of steps. Only some of these operations check what
they are given, and filtering keeps what its transformation returns. All the same, what every single
operation needs of its input and guarantees of its result is one invariant of declarations.
-/

namespace BundleDecl

namespace DependencyList

/-- Lists of dependencies that were built, filtered any number of times. -/
inductive Obtained : DependencyList → Prop where
  | ofList {dependencies : List Dependency}
      (built : ∀ dependency ∈ dependencies, dependency.Built) : Obtained (ofList dependencies)
  | filter {list : DependencyList} (transformation : Dependency → Option Dependency)
      (obtained : Obtained list)
      (built : ∀ dependency ∈ list.dependencies, ∀ replacement,
        transformation dependency = some replacement → replacement.Built) :
      Obtained (list.filter transformation).value

/-- The invariant of dependency lists. -/
structure Consistent (list : DependencyList) : Prop where
  different : list.dependencies.Pairwise fun first second =>
    ¬(first.kinds = second.kinds ∧ first.range = second.range ∧
      first.metadata.Perm second.metadata)
  parts : ∀ dependency ∈ list.dependencies,
    Dependency.Parts dependency.kinds dependency.metadata
  nonempty : ∀ dependency ∈ list.dependencies, dependency.kinds ≠ []

theorem consistent_iff {list : DependencyList} :
    list.Consistent ↔ Separate list.dependencies ∧
      ∀ dependency ∈ list.dependencies, dependency.Built := by
  have separate : Separate list.dependencies ↔ list.dependencies.Pairwise fun first second =>
      ¬(first.kinds = second.kinds ∧ first.range = second.range ∧
        first.metadata.Perm second.metadata) := by
    simp only [Separate, ← Dependency.same_eq_true_iff, Bool.not_eq_true, Dependency.same_comm]
  rw [separate]
  constructor
  · intro consistent
    refine ⟨consistent.different, ?_⟩
    intro dependency member
    exact Dependency.built_iff.2
      ⟨consistent.parts dependency member, consistent.nonempty dependency member⟩
  · rintro ⟨different, built⟩
    exact {
      different
      parts := fun dependency member => (Dependency.built_iff.1 (built dependency member)).1
      nonempty := fun dependency member => (Dependency.built_iff.1 (built dependency member)).2 }

theorem consistent_ofList {dependencies : List Dependency}
    (built : ∀ dependency ∈ dependencies, dependency.Built) : (ofList dependencies).Consistent := by
  refine consistent_iff.2 ⟨separate_distinctFrom [] dependencies, ?_⟩
  intro dependency member
  exact built dependency (mem_of_mem_distinctFrom member)

/-- Filtering keeps the invariant if every replacement was built. -/
theorem Consistent.filter {list : DependencyList} (consistent : list.Consistent)
    {transformation : Dependency → Option Dependency}
    (built : ∀ dependency ∈ list.dependencies, ∀ replacement,
      transformation dependency = some replacement → replacement.Built) :
    (list.filter transformation).value.Consistent := by
  rw [DependencyList.filter, replace]
  split
  · exact consistent
  · apply consistent_ofList
    intro replacement member
    simp only [List.mem_filterMap, List.mem_map, id] at member
    rcases member with ⟨outcome, ⟨dependency, dependencyMem, transformed⟩, rfl⟩
    exact built dependency dependencyMem replacement transformed

/-- The lists that can be obtained are the ones with the invariant. -/
theorem obtained_iff_consistent {list : DependencyList} : list.Obtained ↔ list.Consistent := by
  constructor
  · intro obtained
    induction obtained with
    | ofList built => exact consistent_ofList built
    | filter transformation _ built consistent => exact consistent.filter built
  · intro consistent
    rcases consistent_iff.1 consistent with ⟨separate, built⟩
    rw [← ofList_eq_self separate]
    exact .ofList built

theorem Consistent.withoutOptionals {list : DependencyList} (consistent : list.Consistent) :
    list.withoutOptionals.value.Consistent := by
  apply consistent.filter
  intro dependency member replacement kept
  rw [required] at kept
  split at kept
  · contradiction
  · rcases Option.some.inj kept with rfl
    exact (consistent_iff.1 consistent).2 dependency member

end DependencyList

namespace Declarations

/-- Declarations that were read, made of entries or made of other ones, in any number of steps. -/
inductive Obtained : Declarations → Prop where
  | ofSource {declaring : Option Identifier} {source : Source} {declarations : Declarations}
      (read : ofSource declaring source = .ok declarations) : Obtained declarations
  | ofJson {value : Json} {declarations : Declarations} (read : ofJson value = .ok declarations) :
      Obtained declarations
  | ofJsonText {text : Text} {declarations : Declarations}
      (read : ofJsonText text = .ok declarations) : Obtained declarations
  | ofEntries {entries : List (Identifier × DependencyList)} {declarations : Declarations}
      (distinct : (entries.map Prod.fst).Nodup) (lists : ∀ entry ∈ entries, entry.2.Obtained)
      (made : ofEntries entries = .ok declarations) : Obtained declarations
  | filter {declarations : Declarations}
      (transformation : Identifier → DependencyList → Option DependencyList)
      (obtained : Obtained declarations)
      (lists : ∀ entry ∈ declarations.entries, ∀ replacement,
        transformation entry.1 entry.2 = some replacement → replacement.Obtained) :
      Obtained (declarations.filter transformation).value
  | withoutOptionals {declarations : Declarations} (obtained : Obtained declarations) :
      Obtained declarations.withoutOptionals.value

/-- The invariant of declarations. -/
structure Consistent (declarations : Declarations) : Prop where
  distinct : (declarations.entries.map Prod.fst).Nodup
  unversioned : ∀ entry ∈ declarations.entries, entry.1.metaQualifiers = []
  nonempty : ∀ entry ∈ declarations.entries, entry.2.isEmpty = false
  list : ∀ entry ∈ declarations.entries, entry.2.Consistent

theorem Canonical.consistent {declarations : Declarations} (canonical : declarations.Canonical) :
    declarations.Consistent := by
  refine ⟨canonical.distinct, ?_, ?_, ?_⟩
  · intro entry member
    simp [Identifier.metaQualifiers, (canonical.entry entry member).unversioned]
  · intro entry member
    simpa [DependencyList.isEmpty] using (canonical.entry entry member).nonempty
  · intro entry member
    have described := canonical.entry entry member
    refine DependencyList.consistent_iff.2 ⟨described.separate, ?_⟩
    intro dependency dependencyMem
    have built := described.dependency dependency dependencyMem
    exact Dependency.built_iff.2 ⟨built.parts, built.nonempty⟩

/-- What is read from text, however it arrives, has the invariant. -/
theorem consistent_of_ofSource {declaring : Option Identifier} {source : Source}
    {declarations : Declarations} (read : ofSource declaring source = .ok declarations) :
    declarations.Consistent := by
  rw [ofSource, ofDelivered] at read
  split at read
  · rename_i found lines
    split at read
    · simp at read
    · rcases Except.ok.inj read with rfl
      have written : ofPhysicalLines declaring (Delivered.ofChunks source.toChunks).lines =
          .ok found := mapError_eq_ok_iff.2 lines
      exact (ofPhysicalLines_eq_ok_iff.1 written).canonical.consistent
  · split at read <;> simp at read

theorem consistent_of_ofEntries {entries : List (Identifier × DependencyList)}
    {declarations : Declarations} (distinct : (entries.map Prod.fst).Nodup)
    (list : ∀ entry ∈ entries, entry.2.Consistent)
    (made : ofEntries entries = .ok declarations) : declarations.Consistent := by
  rcases ofEntries_eq_ok_iff.1 made with ⟨unversioned, rfl⟩
  refine ⟨distinct.sublist (List.filter_sublist.map Prod.fst), ?_, ?_, ?_⟩
  · intro entry member
    simp [Identifier.metaQualifiers, unversioned entry (List.mem_of_mem_filter member)]
  · intro entry member
    simpa using List.of_mem_filter member
  · intro entry member
    exact list entry (List.mem_of_mem_filter member)

/-- One more target of a value adds a new entry with a list of built dependencies. -/
theorem consistent_of_addTarget {entries next : List (Identifier × DependencyList)} {value : Json}
    (kept : (entries.map Prod.fst).Nodup ∧ ∀ entry ∈ entries, entry.2.Consistent)
    (added : addTarget entries value = .ok next) :
    (next.map Prod.fst).Nodup ∧ ∀ entry ∈ next, entry.2.Consistent := by
  rw [addTarget, bind_eq_ok_iff] at added
  rcases added with ⟨target, -, added⟩
  split at added
  · contradiction
  · rename_i unknown
    rw [Entries.has_eq_true_iff] at unknown
    rw [bind_eq_ok_iff] at added
    rcases added with ⟨list, read, made⟩
    rcases pure_eq_ok_iff.1 made with rfl
    rcases map_eq_ok_iff.1 (Interchange.liftM_eq_ok_iff.1 read) with ⟨dependencies, items, rfl⟩
    have built : ∀ dependency ∈ dependencies, dependency.Built := by
      intro dependency member
      rcases exists_item_of_mapM_eq_ok items member with ⟨item, -, read⟩
      exact Dependency.built_of_ofJson read
    refine ⟨Entries.nodup_concat_iff.2 ⟨kept.1, unknown⟩, ?_⟩
    intro entry member
    rcases List.mem_append.1 member with earlier | last
    · exact kept.2 entry earlier
    · rcases List.mem_singleton.1 last with rfl
      exact DependencyList.consistent_ofList built

theorem consistent_of_ofJson {value : Json} {declarations : Declarations}
    (read : ofJson value = .ok declarations) : declarations.Consistent := by
  rw [ofJson, bind_eq_ok_iff] at read
  rcases read with ⟨⟨⟩, -, read⟩
  rw [bind_eq_ok_iff] at read
  rcases read with ⟨entries, added, made⟩
  have kept : (entries.map Prod.fst).Nodup ∧ ∀ entry ∈ entries, entry.2.Consistent := by
    refine invariant_of_foldlM_eq_ok (fun entries => (entries.map Prod.fst).Nodup ∧
      ∀ entry ∈ entries, entry.2.Consistent) ?_ ⟨.nil, List.forall_mem_nil _⟩ added
    intro entries value next
    exact consistent_of_addTarget
  exact consistent_of_ofEntries kept.1 kept.2 (Interchange.liftM_eq_ok_iff.1 made)

/-- Filtering keeps the invariant if every list that it is given has it. -/
theorem Consistent.filter {declarations : Declarations} (consistent : declarations.Consistent)
    {transformation : Identifier → DependencyList → Option DependencyList}
    (lists : ∀ entry ∈ declarations.entries, ∀ replacement,
      transformation entry.1 entry.2 = some replacement → replacement.Consistent) :
    (declarations.filter transformation).value.Consistent := by
  rcases unchanged : (declarations.filter transformation).unchanged with _ | _
  · rw [value_filter_of_changed unchanged]
    -- Every entry that is left stands for an entry of the same target.
    have origin (entry : Identifier × DependencyList)
        (member : entry ∈ declarations.entries.filterMap (remaining transformation)) :
        ∃ known ∈ declarations.entries, entry.1 = known.1 ∧
          transformation known.1 known.2 = some entry.2 ∧ entry.2.isEmpty = false := by
      simpa only [List.mem_filterMap, remaining_eq_some_iff] using member
    refine ⟨?_, ?_, ?_, ?_⟩
    · rw [targets_filterMap_remaining]
      exact consistent.distinct.sublist (List.filter_sublist.map Prod.fst)
    · intro entry member
      rcases origin entry member with ⟨known, knownMem, target, -, -⟩
      rw [target]
      exact consistent.unversioned known knownMem
    · intro entry member
      rcases origin entry member with ⟨-, -, -, -, nonempty⟩
      exact nonempty
    · intro entry member
      rcases origin entry member with ⟨known, knownMem, -, transformed, -⟩
      exact lists known knownMem entry.2 transformed
  · rw [value_filter_of_unchanged unchanged]
    exact consistent

theorem Consistent.withoutOptionals {declarations : Declarations}
    (consistent : declarations.Consistent) : declarations.withoutOptionals.value.Consistent := by
  apply consistent.filter
  intro entry member replacement kept
  rcases Option.some.inj kept with rfl
  exact (consistent.list entry member).withoutOptionals

/-- Declarations have the invariant, however they were obtained: different targets without a
version, no empty list, no dependency twice in a list, and dependencies of valid parts only. If they
have no target they are the empty declarations, whose text is empty. -/
theorem consistent_of_obtained {declarations : Declarations} (obtained : declarations.Obtained) :
    declarations.Consistent ∧
      (declarations.isEmpty = true → declarations = empty ∧ declarations.toText = []) := by
  constructor
  · induction obtained with
    | ofSource read => exact consistent_of_ofSource read
    | ofJson read => exact consistent_of_ofJson read
    | ofJsonText read =>
        rcases bind_eq_ok_iff.1 read with ⟨value, -, read⟩
        exact consistent_of_ofJson read
    | ofEntries distinct lists made =>
        refine consistent_of_ofEntries distinct ?_ made
        intro entry member
        exact DependencyList.obtained_iff_consistent.1 (lists entry member)
    | filter transformation _ lists consistent =>
        apply consistent.filter
        intro entry member replacement transformed
        exact DependencyList.obtained_iff_consistent.1
          (lists entry member replacement transformed)
    | withoutOptionals _ consistent => exact consistent.withoutOptionals
  · intro none
    rcases declarations with ⟨entries⟩
    rcases List.isEmpty_iff.1 none with rfl
    exact ⟨rfl, rfl⟩

theorem consistent_of_obtained_filtered :
    let dependency (value : Text) : Dependency :=
      ⟨["api".toList], .minimum ['1'], [("optional".toList, value)]⟩
    let list := DependencyList.ofList
      [dependency "TRUE".toList, dependency "no".toList, dependency "TRUE".toList]
    let declarations : Declarations := ⟨[(⟨"lib".toList, [], none⟩, list)]⟩
    let required := declarations.withoutOptionals.value
    let nothing := (required.filter fun _ _ => none).value
    required.Consistent ∧ nothing = empty ∧ nothing.toText = [] := by
  intro dependency list declarations required nothing
  have built (value : Text) : (dependency value).Built := by
    have kinds : Builder.Reachable ⟨["api".toList], some (.minimum ['1']), []⟩ :=
      @Builder.Reachable.addKind _ _ "api".toList (.setRange (some (.minimum ['1'])) .empty) rfl
    exact ⟨_, @Builder.Reachable.addMetadata _ _ "optional".toList value kinds rfl, rfl⟩
  have obtained : declarations.Obtained := by
    refine @Obtained.ofEntries declarations.entries _ (by decide) ?_ rfl
    intro entry member
    rcases List.mem_singleton.1 member with rfl
    apply DependencyList.Obtained.ofList
    simp [built]
  have filtered : nothing.Obtained := .filter _ obtained.withoutOptionals nofun
  exact ⟨(consistent_of_obtained obtained.withoutOptionals).1,
    (consistent_of_obtained filtered).2 rfl⟩

end Declarations

end BundleDecl
