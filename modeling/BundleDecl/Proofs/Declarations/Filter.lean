import BundleDecl.Proofs.Declarations

/-!
# Filtering is rebuilding

A filtered list or filtered declarations are the same as what is made anew of everything that the
transformation leaves. They are kept as they stand exactly if the transformation changes nothing,
and since what is kept then may differ from what it stands for only in order, two transformations in
a row are the same as their composition if the second one does not look at that order.
-/

namespace BundleDecl

namespace DependencyList

/-- A transformation that makes same dependencies of same ones. -/
def Congruent (transformation : Dependency → Option Dependency) : Prop :=
  ∀ first second : Dependency, first.same second = true →
    Option.Rel (fun left right => left.same right = true) (transformation first)
      (transformation second)

variable {first second : Dependency → Option Dependency}

/-- A filtered list is the same as the list of what the transformation makes. -/
theorem same_filter (transformation : Dependency → Option Dependency) (list : DependencyList) :
    (list.filter transformation).value.same
      (ofList (list.dependencies.filterMap transformation)) = true := by
  rw [same_eq_true_iff]
  intro dependency
  rw [holds_filter_eq_true_iff, holds_ofList_eq_true_iff]
  simp only [List.mem_filterMap]
  constructor
  · rintro ⟨known, member, kept, transformed, same⟩
    exact ⟨kept, ⟨known, member, transformed⟩, same⟩
  · rintro ⟨kept, ⟨known, member, transformed⟩, same⟩
    exact ⟨known, member, kept, transformed, same⟩

theorem Congruent.exists_same {transformation : Dependency → Option Dependency}
    (congruent : Congruent transformation) {dependency other kept : Dependency}
    (same : dependency.same other = true) (transformed : transformation dependency = some kept) :
    ∃ otherKept, transformation other = some otherKept ∧ kept.same otherKept = true := by
  have related := congruent dependency other same
  rw [transformed] at related
  generalize transformation other = outcome at related
  cases related with
  | some alike => exact ⟨_, rfl, alike⟩

/-- What a congruent transformation leaves depends only on what a list holds. -/
theorem Congruent.holds_filter_eq_true_iff {transformation : Dependency → Option Dependency}
    (congruent : Congruent transformation) {list : DependencyList} {dependency : Dependency} :
    (list.filter transformation).value.holds dependency = true ↔
      ∃ known, list.holds known = true ∧
        ∃ kept, transformation known = some kept ∧ dependency.same kept = true := by
  rw [DependencyList.holds_filter_eq_true_iff]
  constructor
  · rintro ⟨known, member, left⟩
    exact ⟨known, holds_of_mem member, left⟩
  · rintro ⟨known, holds, kept, transformed, same⟩
    rcases holds_eq_true_iff.1 holds with ⟨found, member, alike⟩
    rcases congruent.exists_same alike transformed with ⟨otherKept, again, keptSame⟩
    exact ⟨found, member, otherKept, again, Dependency.same_trans same keptSame⟩

theorem Congruent.same_filter {transformation : Dependency → Option Dependency}
    (congruent : Congruent transformation) {left right : DependencyList}
    (same : left.same right = true) :
    (left.filter transformation).value.same (right.filter transformation).value = true := by
  rw [same_eq_true_iff] at same ⊢
  simp only [congruent.holds_filter_eq_true_iff, same, implies_true]

/-- What the second transformation makes of a filtered list is what it makes of the results of the
first one. -/
theorem holds_filter_filter_eq_true_iff (congruent : Congruent second) {list : DependencyList}
    {dependency : Dependency} :
    ((list.filter first).value.filter second).value.holds dependency = true ↔
      ∃ known ∈ list.dependencies, ∃ middle, first known = some middle ∧
        ∃ kept, second middle = some kept ∧ dependency.same kept = true := by
  simp only [congruent.holds_filter_eq_true_iff, holds_filter_eq_true_iff]
  constructor
  · rintro ⟨found, ⟨known, member, middle, made, alike⟩, kept, transformed, same⟩
    rcases congruent.exists_same alike transformed with ⟨otherKept, again, keptSame⟩
    exact ⟨known, member, middle, made, otherKept, again, Dependency.same_trans same keptSame⟩
  · rintro ⟨known, member, middle, made, left⟩
    exact ⟨middle, ⟨known, member, middle, made, middle.same_refl⟩, left⟩

/-- Filtering twice is filtering by both transformations in a row. -/
theorem same_filter_filter (congruent : Congruent second) (list : DependencyList) :
    ((list.filter first).value.filter second).value.same
      (list.filter fun dependency => (first dependency).bind second).value = true := by
  rw [same_eq_true_iff]
  intro dependency
  rw [holds_filter_filter_eq_true_iff congruent, holds_filter_eq_true_iff]
  apply exists_congr
  intro known
  apply and_congr_right
  intro _
  simp only [Option.bind_eq_some_iff]
  constructor
  · rintro ⟨middle, made, kept, transformed, same⟩
    exact ⟨kept, ⟨middle, made, transformed⟩, same⟩
  · rintro ⟨kept, ⟨middle, made, transformed⟩, same⟩
    exact ⟨middle, made, kept, transformed, same⟩

end DependencyList

namespace Declarations

/-- A transformation that makes same lists of same lists of one target. -/
def Congruent (transformation : Identifier → DependencyList → Option DependencyList) : Prop :=
  ∀ target, ∀ left right : DependencyList, left.same right = true →
    Option.Rel (fun left right => left.same right = true) (transformation target left)
      (transformation target right)

variable {transformation first second : Identifier → DependencyList → Option DependencyList}
  {declarations : Declarations}

/-- The entries of filtered declarations are alike to what is left of each entry. -/
theorem alike_filter (transformation : Identifier → DependencyList → Option DependencyList)
    (nonempty : ∀ entry ∈ declarations.entries, entry.2.isEmpty = false) :
    List.Forall₂ Alike (declarations.filter transformation).value.entries
      (declarations.entries.filterMap (remaining transformation)) := by
  rcases unchanged : (declarations.filter transformation).unchanged with _ | _
  · rw [value_filter_of_changed unchanged]
    exact List.forall₂_same.2 fun entry _ => .refl entry
  · rw [value_filter_of_unchanged unchanged]
    rw [unchanged_filter_iff] at unchanged
    generalize declarations.entries = entries at nonempty unchanged
    induction entries with
    | nil => exact .nil
    | cons entry entries ih =>
        rw [List.forall_mem_cons] at nonempty unchanged
        rcases unchanged.1 with ⟨kept, transformed, same⟩
        have left : remaining transformation entry = some (entry.1, kept) := by
          refine remaining_eq_some_iff.2 ⟨rfl, transformed, ?_⟩
          rw [DependencyList.isEmpty_eq_of_same same, nonempty.1]
        rw [List.filterMap_cons, left]
        exact .cons ⟨rfl, DependencyList.same_symm same⟩ (ih nonempty.2 unchanged.2)

theorem nonempty_filter (transformation : Identifier → DependencyList → Option DependencyList)
    (nonempty : ∀ entry ∈ declarations.entries, entry.2.isEmpty = false) :
    ∀ entry ∈ (declarations.filter transformation).value.entries, entry.2.isEmpty = false := by
  intro entry member
  rcases exists_right_of_forall₂ (alike_filter transformation nonempty) member with
    ⟨kept, keptMem, alike⟩
  rcases List.mem_filterMap.1 keptMem with ⟨known, -, left⟩
  rw [DependencyList.isEmpty_eq_of_same alike.2]
  exact (remaining_eq_some_iff.1 left).2.2

/-- The targets of filtered declarations are those for which the transformation has a list that is
not empty, in their order. -/
theorem targets_filter (nonempty : ∀ entry ∈ declarations.entries, entry.2.isEmpty = false) :
    (declarations.filter transformation).value.entries.map Prod.fst =
      (declarations.entries.filter fun entry =>
        (transformation entry.1 entry.2).any fun list => !list.isEmpty).map Prod.fst := by
  rw [targets_eq_of_alike (alike_filter transformation nonempty), targets_filterMap_remaining]

theorem Created.distinct_filter (created : declarations.Created) :
    ((declarations.filter transformation).value.entries.map Prod.fst).Nodup := by
  rcases created_iff.1 created with ⟨distinct, -, nonempty⟩
  rw [targets_filter nonempty]
  exact distinct.sublist (List.filter_sublist.map Prod.fst)

/-- Filtered declarations are the same as those that are made of what the transformation has. -/
theorem Created.exists_rebuilt (created : declarations.Created) :
    ∃ rebuilt,
      ofEntries (declarations.entries.filterMap fun entry =>
        (transformation entry.1 entry.2).map (entry.1, ·)) = .ok rebuilt ∧
      (declarations.filter transformation).value.same rebuilt = true ∧
      (declarations.filter transformation).value.entries.map Prod.fst =
        rebuilt.entries.map Prod.fst := by
  rcases created_iff.1 created with ⟨distinct, unversioned, nonempty⟩
  have alike := alike_filter transformation nonempty
  have targets := targets_eq_of_alike alike
  refine ⟨⟨declarations.entries.filterMap (remaining transformation)⟩, ?_, ?_, targets⟩
  · refine ofEntries_eq_ok_iff.2 ⟨?_, ?_⟩
    · intro entry member
      simp only [List.mem_filterMap, Option.map_eq_some_iff] at member
      rcases member with ⟨known, knownMem, list, -, rfl⟩
      exact unversioned known knownMem
    · rw [List.filter_filterMap]
      congr
      funext entry
      rw [remaining]
      rcases transformation entry.1 entry.2 with _ | list
      · rfl
      · cases empty : list.isEmpty <;> simp [Option.filter, empty]
  · apply same_of_alike alike
    rw [← targets]
    exact created.distinct_filter

/-- Of entries that are alike, a congruent transformation leaves entries that are alike. -/
theorem Congruent.remaining (congruent : Congruent transformation)
    {left right : Identifier × DependencyList} (alike : Alike left right) :
    Option.Rel Alike (remaining transformation left) (remaining transformation right) := by
  rcases left with ⟨target, list⟩
  rcases right with ⟨other, otherList⟩
  rcases alike with ⟨targets, lists⟩
  change target = other at targets
  subst other
  have related := congruent target list otherList lists
  simp only [Declarations.remaining]
  generalize transformation target list = outcome at related
  generalize transformation target otherList = otherOutcome at related
  cases related with
  | none => exact .none
  | @some kept otherKept same =>
      have empty := DependencyList.isEmpty_eq_of_same same
      cases known : kept.isEmpty with
      | true => simp [Option.filter, known, ← empty]
      | false => simpa [Option.filter, known, ← empty] using ⟨rfl, same⟩

theorem remaining_bind_remaining (entry : Identifier × DependencyList) :
    (remaining first entry).bind (remaining second) =
      remaining (fun target list =>
        ((first target list).filter fun list => !list.isEmpty).bind (second target)) entry := by
  simp only [remaining]
  cases (first entry.1 entry.2).filter fun list => !list.isEmpty <;> rfl

/-- Filtering twice is filtering by both transformations in a row. An empty list counts as none. -/
theorem Created.same_filter_filter (created : declarations.Created)
    (congruent : Congruent second) :
    ((declarations.filter first).value.filter second).value.same
      (declarations.filter fun target list =>
        ((first target list).filter fun list => !list.isEmpty).bind (second target)).value =
        true := by
  rcases created_iff.1 created with ⟨-, -, nonempty⟩
  have outer := alike_filter second (nonempty_filter first nonempty)
  have inner := List.rel_filterMap (R := Alike) (P := Alike)
    (fun _ _ alike => congruent.remaining alike) (alike_filter first nonempty)
  rw [List.filterMap_filterMap, funext remaining_bind_remaining] at inner
  have composed := alike_filter (fun target list =>
    ((first target list).filter fun list => !list.isEmpty).bind (second target)) nonempty
  refine same_of_alike ?_ created.distinct_filter
  exact alike_trans (alike_trans outer inner) (alike_symm composed)

/-- What filtering makes of a list. -/
structure FiltersList (list : DependencyList)
    (transformation : Dependency → Option Dependency) (filtered : Transformed DependencyList) :
    Prop where
  /-- It is the same as the list of what the transformation makes of the dependencies. -/
  rebuilt : filtered.value.same (.ofList (list.dependencies.filterMap transformation)) = true
  unchanged_iff : filtered.unchanged = true ↔ list.isEmpty = true ∨
    ∀ dependency ∈ list.dependencies, ∃ kept,
      transformation dependency = some kept ∧ kept.same dependency = true
  kept : filtered.unchanged = true → filtered.value = list

/-- What filtering makes of declarations. -/
structure Filters (declarations : Declarations)
    (transformation : Identifier → DependencyList → Option DependencyList)
    (filtered : Transformed Declarations) : Prop where
  /-- They are the same as those that are made of what the transformation makes of the entries, with
  the targets in the same order. -/
  rebuilt : ∃ rebuilt,
    ofEntries (declarations.entries.filterMap fun entry =>
      (transformation entry.1 entry.2).map (entry.1, ·)) = .ok rebuilt ∧
    filtered.value.same rebuilt = true ∧
    filtered.value.entries.map Prod.fst = rebuilt.entries.map Prod.fst
  /-- Targets stay in order; those without a dependency left are dropped. -/
  targets : filtered.value.entries.map Prod.fst =
    (declarations.entries.filter fun entry =>
      (transformation entry.1 entry.2).any fun list => !list.isEmpty).map Prod.fst
  unchanged_iff : filtered.unchanged = true ↔ declarations.isEmpty = true ∨
    ∀ entry ∈ declarations.entries, ∃ kept,
      transformation entry.1 entry.2 = some kept ∧ kept.same entry.2 = true
  kept : filtered.unchanged = true → filtered.value = declarations

/-- The laws of filtering. -/
structure FilterLaws : Prop where
  list (list : DependencyList) (transformation : Dependency → Option Dependency) :
    FiltersList list transformation (list.filter transformation)
  declarations (declarations : Declarations) (created : declarations.Created)
    (transformation : Identifier → DependencyList → Option DependencyList) :
    declarations.Filters transformation (declarations.filter transformation)
  /-- Two transformations in a row do what their composition does, provided that the second one
  makes the same of what is the same. -/
  listInARow (list : DependencyList) (first second : Dependency → Option Dependency)
    (congruent : DependencyList.Congruent second) :
    ((list.filter first).value.filter second).value.same
      (list.filter fun dependency => (first dependency).bind second).value = true
  inARow (declarations : Declarations) (created : declarations.Created)
    (first second : Identifier → DependencyList → Option DependencyList)
    (congruent : Congruent second) :
    ((declarations.filter first).value.filter second).value.same
      (declarations.filter fun target list =>
        ((first target list).filter fun list => !list.isEmpty).bind (second target)).value = true

/-- A filtered list is the same as the list of what the transformation makes of its dependencies,
and it is the list itself if and only if there is nothing in it or the transformation changes
nothing. The same holds of declarations that were made of entries, whose targets stay in order, and
two transformations in a row can be made one. -/
theorem filter_rebuilds : FilterLaws where
  list list transformation := by
    refine ⟨list.same_filter transformation, ?_, DependencyList.value_filter_of_unchanged⟩
    rw [DependencyList.unchanged_filter_iff, iff_or_self]
    intro empty
    rw [List.isEmpty_iff.1 empty]
    exact List.forall_mem_nil _
  declarations declarations created transformation := by
    rcases created_iff.1 created with ⟨-, -, nonempty⟩
    refine ⟨created.exists_rebuilt, targets_filter nonempty, ?_, value_filter_of_unchanged⟩
    rw [unchanged_filter_iff, iff_or_self]
    intro empty
    rw [List.isEmpty_iff.1 empty]
    exact List.forall_mem_nil _
  listInARow list _ _ congruent := DependencyList.same_filter_filter congruent list
  inARow _ created _ _ congruent := created.same_filter_filter congruent

theorem filter_rebuilds_reversed :
    let dependency (kind : Text) (metadata : List (Text × Text)) : Dependency :=
      ⟨[kind], .minimum ['1'], metadata⟩
    let list : DependencyList :=
      ⟨[dependency "api".toList [(['a'], ['1']), (['b'], ['2'])], dependency "doc".toList []]⟩
    let declarations : Declarations := ⟨[(⟨"lib".toList, [], none⟩, list)]⟩
    let reversed (dependency : Dependency) : Option Dependency :=
      some { dependency with metadata := dependency.metadata.reverse }
    let plain (dependency : Dependency) : Option Dependency :=
      if dependency.kinds = ["doc".toList] then none else some dependency
    (list.filter reversed).value = list ∧
      (declarations.filter fun _ list => some (list.filter reversed).value).value = declarations ∧
      ((list.filter reversed).value.filter plain).value.same
        (list.filter fun dependency => (reversed dependency).bind plain).value = true ∧
      ((declarations.filter fun _ list => some (list.filter reversed).value).value.filter
          fun _ list => some (list.filter plain).value).value.same
        (declarations.filter fun _ list =>
          ((some (list.filter reversed).value).filter fun list => !list.isEmpty).bind
            fun list => some (list.filter plain).value).value = true := by
  intro dependency list declarations reversed plain
  have laws := filter_rebuilds
  have created : declarations.Created := ⟨declarations.entries, by decide, rfl⟩
  have congruent : DependencyList.Congruent plain := by
    intro first second same
    have kinds := (Dependency.same_eq_true_iff.1 same).1
    simp only [plain, kinds]
    split
    · exact .none
    · exact .some same
  have congruentLists : Congruent fun _ list => some (list.filter plain).value :=
    fun _ _ _ same => .some (congruent.same_filter same)
  exact ⟨(laws.list list reversed).kept rfl, (laws.declarations declarations created _).kept rfl,
    laws.listInARow list reversed plain congruent,
    laws.inARow declarations created _ _ congruentLists⟩

end Declarations

end BundleDecl
