import BundleDecl.Proofs.Declarations.Optional
import BundleDecl.Proofs.Interchange

/-!
# What same declarations have in common

Being the same is an equivalence of dependencies, of dependency lists and of declarations. It looks
neither at the order of metadata nor at that of dependencies or targets, although all of them are
kept in order. So the parts of same values are the same one by one after a rearrangement, and what
is counted, found or collected in them does not tell them apart; nor does a round trip through
either written form, whose lines come in another order at most.
-/

namespace BundleDecl

/-- In some order, the items of a list are related to those of another list one by one. -/
def Rearranged {Item : Type} (related : Item → Item → Prop) (left right : List Item) : Prop :=
  ∃ arranged, left.Perm arranged ∧ List.Forall₂ related arranged right

/-- Lists in which no two items are equivalent are rearrangements of each other if every item has an
equivalent on the other side. -/
theorem rearranged_of_equivalent {Item : Type} {related : Item → Item → Prop}
    (equivalence : Equivalence related) {left right : List Item}
    (leftDistinct : left.Pairwise fun first second => ¬related first second)
    (rightDistinct : right.Pairwise fun first second => ¬related first second)
    (forward : ∀ item ∈ left, ∃ other ∈ right, related item other)
    (backward : ∀ other ∈ right, ∃ item ∈ left, related item other) :
    Rearranged related left right := by
  -- Both lists have the same classes, each of them once.
  let setoid : Setoid Item := ⟨related, equivalence⟩
  have nodup {items : List Item}
      (distinct : items.Pairwise fun first second => ¬related first second) :
      (items.map (Quotient.mk setoid)).Nodup := by
    refine List.pairwise_map.2 (distinct.imp ?_)
    intro first second different same
    exact different (Quotient.exact same)
  have classes : (right.map (Quotient.mk setoid)).Perm (left.map (Quotient.mk setoid)) := by
    rw [List.perm_ext_iff_of_nodup (nodup rightDistinct) (nodup leftDistinct)]
    intro found
    simp only [List.mem_map]
    constructor
    · rintro ⟨other, otherMem, rfl⟩
      rcases backward other otherMem with ⟨item, itemMem, same⟩
      exact ⟨item, itemMem, Quotient.sound same⟩
    · rintro ⟨item, itemMem, rfl⟩
      rcases forward item itemMem with ⟨other, otherMem, same⟩
      exact ⟨other, otherMem, (Quotient.sound same).symm⟩
  have split : Relation.Comp (· = List.map (Quotient.mk setoid) ·) List.Perm
      (right.map (Quotient.mk setoid)) left := by
    rw [List.eq_map_comp_perm]
    exact classes
  rcases split with ⟨arranged, same, perm⟩
  refine ⟨arranged, perm.symm, ?_⟩
  exact (map_eq_map_iff_forall₂.1 same.symm).imp fun _ _ alike => Quotient.exact alike

namespace Rearranged

variable {Item : Type} {related : Item → Item → Prop} {left right : List Item}

theorem length_eq (rearranged : Rearranged related left right) : left.length = right.length := by
  rcases rearranged with ⟨arranged, perm, alike⟩
  exact perm.length_eq.trans alike.length_eq

/-- What is written for the items is in another order at most if that of related ones is. -/
theorem perm_flatMap {write : Item → List Text} (rearranged : Rearranged related left right)
    (each : ∀ item ∈ left, ∀ other ∈ right, related item other → (write item).Perm (write other)) :
    (left.flatMap write).Perm (right.flatMap write) := by
  rcases rearranged with ⟨arranged, perm, alike⟩
  refine (perm.flatMap_right write).trans ?_
  rw [List.flatMap_def, List.flatMap_def]
  apply List.Perm.flatten_congr
  rw [List.forall₂_map_left_iff, List.forall₂_map_right_iff, List.forall₂_iff_zip]
  refine ⟨alike.length_eq, ?_⟩
  intro item other member
  rcases List.of_mem_zip member with ⟨itemMem, otherMem⟩
  exact each item (perm.mem_iff.2 itemMem) other otherMem (List.forall₂_zip alike member)

end Rearranged

namespace Dependency

theorem same_equivalence : Equivalence fun left right : Dependency => left.same right = true :=
  ⟨same_refl, fun {left right} same => same_comm left right ▸ same, same_trans⟩

variable {left right : Dependency}

theorem same_withLineFeeds (same : left.same right = true) :
    left.withLineFeeds.same right.withLineFeeds = true := by
  rw [same_eq_true_iff] at same ⊢
  exact ⟨same.1, same.2.1, same.2.2.map _⟩

theorem perm_toLines (same : left.same right = true) : left.toLines.Perm right.toLines := by
  rcases same_eq_true_iff.1 same with ⟨kinds, range, metadata⟩
  rw [toLines, toLines, kindLine, kindLine, kinds, range]
  exact (metadata.map _).cons _

end Dependency

namespace DependencyList

theorem same_equivalence :
    Equivalence fun left right : DependencyList => left.same right = true :=
  ⟨same_refl, same_symm, same_trans⟩

/-- The classes of lists that are the same. -/
def sameSetoid : Setoid DependencyList := ⟨_, same_equivalence⟩

variable {list left right : DependencyList}

theorem rearranged_of_same (leftSeparate : Separate left.dependencies)
    (rightSeparate : Separate right.dependencies) (same : left.same right = true) :
    Rearranged (fun dependency other => dependency.same other = true) left.dependencies
      right.dependencies := by
  have different {dependencies : List Dependency} (separate : Separate dependencies) :
      dependencies.Pairwise fun first second => ¬first.same second = true := by
    refine separate.imp ?_
    intro first second differs
    rw [Dependency.same_comm, differs]
    exact Bool.false_ne_true
  have held := same_eq_true_iff.1 same
  apply rearranged_of_equivalent Dependency.same_equivalence (different leftSeparate)
    (different rightSeparate)
  · intro dependency member
    exact holds_eq_true_iff.1 ((held dependency).1 (holds_of_mem member))
  · intro dependency member
    rcases holds_eq_true_iff.1 ((held dependency).2 (holds_of_mem member)) with
      ⟨known, knownMem, alike⟩
    exact ⟨known, knownMem, Dependency.same_comm _ _ ▸ alike⟩

/-- Lists without repetitions are the same if and only if they hold the same dependencies one by
one, in some order. -/
theorem same_iff_rearranged (leftSeparate : Separate left.dependencies)
    (rightSeparate : Separate right.dependencies) :
    left.same right = true ↔
      Rearranged (fun dependency other => dependency.same other = true) left.dependencies
        right.dependencies := by
  refine ⟨rearranged_of_same leftSeparate rightSeparate, ?_⟩
  rintro ⟨arranged, perm, alike⟩
  rw [same, Bool.and_eq_true, List.all_eq_true, List.all_eq_true]
  constructor
  · intro dependency member
    exact holds_eq_true_iff.2 (exists_right_of_forall₂ alike (perm.mem_iff.1 member))
  · intro dependency member
    rcases exists_left_of_forall₂ alike member with ⟨known, knownMem, same⟩
    exact holds_eq_true_iff.2
      ⟨known, perm.mem_iff.2 knownMem, Dependency.same_comm _ _ ▸ same⟩

theorem Keyed.hasOptional_iff (keyed : list.Keyed) :
    list.hasOptional = true ↔ ∃ dependency,
      list.holds dependency = true ∧ dependency.Keyed ∧ dependency.isOptional = true := by
  rw [hasOptional, List.any_eq_true]
  constructor
  · rintro ⟨dependency, member, optional⟩
    exact ⟨dependency, holds_of_mem member, keyed dependency member, optional⟩
  · rintro ⟨dependency, holds, dependencyKeyed, optional⟩
    rcases holds_eq_true_iff.1 holds with ⟨known, member, same⟩
    exact ⟨known, member, dependencyKeyed.isOptional_eq_of_same same ▸ optional⟩

theorem mem_kinds_iff {kind : Text} :
    kind ∈ list.kinds ↔ ∃ dependency, list.holds dependency = true ∧ kind ∈ dependency.kinds := by
  rw [kinds, SortedSet.mem_ofList, List.mem_flatMap]
  constructor
  · rintro ⟨dependency, member, kindMem⟩
    exact ⟨dependency, holds_of_mem member, kindMem⟩
  · rintro ⟨dependency, holds, kindMem⟩
    rcases holds_eq_true_iff.1 holds with ⟨known, member, same⟩
    exact ⟨known, member, (Dependency.same_eq_true_iff.1 same).1 ▸ kindMem⟩

/-- What same lists have in common. -/
structure Agree (left right : DependencyList) : Prop where
  size : left.size = right.size
  hasOptional : left.hasOptional = right.hasOptional
  kinds : left.kinds = right.kinds

theorem Keyed.hasOptional_eq_of_same (leftKeyed : left.Keyed) (rightKeyed : right.Keyed)
    (same : left.same right = true) : left.hasOptional = right.hasOptional := by
  rw [Bool.eq_iff_iff, leftKeyed.hasOptional_iff, rightKeyed.hasOptional_iff]
  simp only [same_eq_true_iff.1 same]

/-- Same lists without repetitions agree. -/
theorem agree_of_same (leftSeparate : Separate left.dependencies)
    (rightSeparate : Separate right.dependencies) (leftKeyed : left.Keyed)
    (rightKeyed : right.Keyed) (same : left.same right = true) : left.Agree right where
  size := (rearranged_of_same leftSeparate rightSeparate same).length_eq
  hasOptional := leftKeyed.hasOptional_eq_of_same rightKeyed same
  kinds := by
    apply SortedSet.eq_of_mem_iff (SortedSet.pairwise_ofList _) (SortedSet.pairwise_ofList _)
    intro kind
    change kind ∈ left.kinds ↔ kind ∈ right.kinds
    simp only [mem_kinds_iff, same_eq_true_iff.1 same]

theorem same_withLineFeeds (same : left.same right = true) :
    left.withLineFeeds.same right.withLineFeeds = true := by
  have held {list other : DependencyList} (same : list.same other = true) (dependency : Dependency)
      (holds : list.withLineFeeds.holds dependency = true) :
      other.withLineFeeds.holds dependency = true := by
    rw [withLineFeeds, holds_ofList_eq_true_iff] at holds ⊢
    rcases holds with ⟨_, changed, alike⟩
    rcases List.mem_map.1 changed with ⟨known, member, rfl⟩
    rcases holds_eq_true_iff.1 ((same_eq_true_iff.1 same known).1 (holds_of_mem member)) with
      ⟨found, foundMem, foundSame⟩
    exact ⟨found.withLineFeeds, List.mem_map_of_mem foundMem,
      Dependency.same_trans alike (Dependency.same_withLineFeeds foundSame)⟩
  rw [same_eq_true_iff]
  exact fun dependency => ⟨held same dependency, held (same_symm same) dependency⟩

end DependencyList

namespace Declarations

variable {declarations left right : Declarations} {target : Identifier} {list : DependencyList}

/-- Declarations that were made of entries are the same if and only if the lists of every target are
of one class. -/
theorem Created.same_iff (leftCreated : left.Created) (rightCreated : right.Created) :
    left.same right = true ↔ ∀ target,
      (left.get? target).map (Quotient.mk DependencyList.sameSetoid) =
        (right.get? target).map (Quotient.mk DependencyList.sameSetoid) := by
  rw [same_eq_true_iff (created_iff.1 leftCreated).1 (created_iff.1 rightCreated).1]
  apply forall_congr'
  intro target
  cases left.get? target with
  | none => cases right.get? target <;> simp
  | some list =>
      cases right.get? target with
      | none => simp
      | some other =>
          rw [Option.rel_some_some, Option.map_some, Option.map_some, Option.some.injEq]
          exact ⟨fun same => Quotient.sound same, fun classes => Quotient.exact classes⟩

theorem same_equivalence : Equivalence fun left right : { declarations : Declarations //
    declarations.Created } => left.val.same right.val = true := by
  refine ⟨?_, ?_, ?_⟩
  · intro declarations
    exact (declarations.property.same_iff declarations.property).2 fun _ => rfl
  · intro left right same
    rw [left.property.same_iff right.property] at same
    rw [right.property.same_iff left.property]
    exact fun target => (same target).symm
  · intro first second third before after
    rw [first.property.same_iff second.property] at before
    rw [second.property.same_iff third.property] at after
    rw [first.property.same_iff third.property]
    exact fun target => (before target).trans (after target)

theorem Created.same_symm (leftCreated : left.Created) (rightCreated : right.Created)
    (same : left.same right = true) : right.same left = true :=
  same_equivalence.symm (x := ⟨left, leftCreated⟩) (y := ⟨right, rightCreated⟩) same

theorem Created.exists_same (leftCreated : left.Created) (rightCreated : right.Created)
    (same : left.same right = true) (known : left.get? target = some list) :
    ∃ other, right.get? target = some other ∧ list.same other = true := by
  have classes := (leftCreated.same_iff rightCreated).1 same target
  rw [known, Option.map_some, eq_comm, Option.map_eq_some_iff] at classes
  rcases classes with ⟨other, found, alike⟩
  exact ⟨other, found, DependencyList.same_symm (Quotient.exact alike)⟩

theorem Created.rearranged_of_same (leftCreated : left.Created) (rightCreated : right.Created)
    (same : left.same right = true) : Rearranged Alike left.entries right.entries := by
  have different {declarations : Declarations} (created : declarations.Created) :
      declarations.entries.Pairwise fun first second => ¬Alike first second := by
    refine (List.pairwise_map.1 (created_iff.1 created).1).imp ?_
    intro first second targets alike
    exact targets alike.1
  have found {one other : Declarations} (created : one.Created) (otherCreated : other.Created)
      (same : one.same other = true) (entry : Identifier × DependencyList)
      (member : entry ∈ one.entries) : ∃ found ∈ other.entries, Alike entry found := by
    have known : one.get? entry.1 = some entry.2 :=
      Entries.get?_of_mem (created_iff.1 created).1 member
    rcases created.exists_same otherCreated same known with ⟨list, listKnown, lists⟩
    exact ⟨(entry.1, list), get?_mem_entries otherCreated listKnown, rfl, lists⟩
  apply rearranged_of_equivalent ⟨.refl, .symm, .trans⟩ (different leftCreated)
    (different rightCreated)
  · exact found leftCreated rightCreated same
  · intro entry member
    rcases found rightCreated leftCreated (leftCreated.same_symm rightCreated same) entry member
      with ⟨known, knownMem, alike⟩
    exact ⟨known, knownMem, alike.symm⟩

/-- Declarations that were made of entries are the same if and only if they have the same lists for
the same targets one by one, in some order. -/
theorem Created.same_iff_rearranged (leftCreated : left.Created) (rightCreated : right.Created) :
    left.same right = true ↔ Rearranged Alike left.entries right.entries := by
  refine ⟨leftCreated.rearranged_of_same rightCreated, ?_⟩
  rintro ⟨arranged, perm, alike⟩
  have arrangedSame : same ⟨arranged⟩ right = true :=
    same_of_alike alike (created_iff.1 rightCreated).1
  rwa [same, size, ← perm.length_eq, ← perm.all_eq] at arrangedSame

theorem Created.hasOptional_iff (created : declarations.Created) :
    declarations.hasOptional = true ↔
      ∃ target list, declarations.get? target = some list ∧ list.hasOptional = true := by
  rw [hasOptional, List.any_eq_true]
  constructor
  · rintro ⟨⟨target, list⟩, member, optional⟩
    exact ⟨target, list, Entries.get?_of_mem (created_iff.1 created).1 member, optional⟩
  · rintro ⟨target, list, known, optional⟩
    exact ⟨(target, list), get?_mem_entries created known, optional⟩

theorem Created.hasOptional_eq_of_same (leftCreated : left.Created) (rightCreated : right.Created)
    (leftKeyed : left.Keyed) (rightKeyed : right.Keyed) (same : left.same right = true) :
    left.hasOptional = right.hasOptional := by
  have found {one other : Declarations} (created : one.Created) (otherCreated : other.Created)
      (keyed : one.Keyed) (otherKeyed : other.Keyed) (same : one.same other = true)
      (optional : one.hasOptional = true) : other.hasOptional = true := by
    rw [created.hasOptional_iff] at optional
    rw [otherCreated.hasOptional_iff]
    rcases optional with ⟨target, list, known, listOptional⟩
    rcases created.exists_same otherCreated same known with ⟨otherList, otherKnown, lists⟩
    have agree := (keyed _ (get?_mem_entries created known)).hasOptional_eq_of_same
      (otherKeyed _ (get?_mem_entries otherCreated otherKnown)) lists
    exact ⟨target, otherList, otherKnown, agree ▸ listOptional⟩
  rw [Bool.eq_iff_iff]
  exact ⟨found leftCreated rightCreated leftKeyed rightKeyed same,
    found rightCreated leftCreated rightKeyed leftKeyed (leftCreated.same_symm rightCreated same)⟩

/-! ## Written forms -/

theorem Canonical.perm_toLines (leftCanonical : left.Canonical) (rightCanonical : right.Canonical)
    (same : left.same right = true) : left.toLines.Perm right.toLines := by
  apply (leftCanonical.created.rearranged_of_same rightCanonical.created same).perm_flatMap
  rintro ⟨target, list⟩ member ⟨other, otherList⟩ otherMem ⟨targets, lists⟩
  change target = other at targets
  subst other
  have canonical := leftCanonical.entry _ member
  have otherCanonical := rightCanonical.entry _ otherMem
  have empty := DependencyList.isEmpty_eq_of_same lists
  have described : list.isEmpty = false := by
    simpa [DependencyList.isEmpty] using canonical.nonempty
  have rearranged :=
    DependencyList.rearranged_of_same canonical.separate otherCanonical.separate lists
  simp only [targetLines, ← empty, described, Bool.false_eq_true, if_false]
  exact .cons _ (rearranged.perm_flatMap fun _ _ _ _ => Dependency.perm_toLines)

theorem get?_withLineFeeds (declarations : Declarations) (target : Identifier) :
    declarations.withLineFeeds.get? target =
      (declarations.get? target).map DependencyList.withLineFeeds :=
  Entries.get?_map_value DependencyList.withLineFeeds target declarations.entries

/-- With line feeds as the line breaks of their metadata values, same declarations stay the same. -/
theorem Created.same_withLineFeeds (leftCreated : left.Created) (rightCreated : right.Created)
    (same : left.same right = true) : left.withLineFeeds.same right.withLineFeeds = true := by
  have distinct {declarations : Declarations} (created : declarations.Created) :
      (declarations.withLineFeeds.entries.map Prod.fst).Nodup := by
    rw [withLineFeeds, List.map_map]
    exact (created_iff.1 created).1
  rw [same_eq_true_iff (created_iff.1 leftCreated).1 (created_iff.1 rightCreated).1] at same
  rw [same_eq_true_iff (distinct leftCreated) (distinct rightCreated)]
  intro target
  have lists := same target
  rw [get?_withLineFeeds, get?_withLineFeeds]
  generalize left.get? target = known at lists
  generalize right.get? target = other at lists
  cases lists with
  | none => exact .none
  | some same => exact .some (DependencyList.same_withLineFeeds same)

theorem Canonical.ofJsonText_eq_ok (canonical : declarations.Canonical) (indent : Option Nat) :
    ofJsonText (declarations.toJsonText indent) = .ok declarations := by
  rw [ofJsonText, Interchange.read, toJsonText, canonical.textual_toJson.ofText?_toText]
  exact canonical.ofJson_toJson

/-- What same declarations have in common. -/
structure Agree (left right : Declarations) : Prop where
  size : left.size = right.size
  lists : ∀ target, Option.Rel (fun list other => list.same other = true) (left.get? target)
    (right.get? target)
  hasOptional : left.hasOptional = right.hasOptional
  lines : left.toLines.Perm right.toLines
  read : ∀ declaring, ∃ first second, ofText declaring left.toText = .ok first ∧
    ofText declaring right.toText = .ok second ∧ first.same second = true
  interchanged : ∀ indent, ∃ first second, ofJsonText (left.toJsonText indent) = .ok first ∧
    ofJsonText (right.toJsonText indent) = .ok second ∧ first.same second = true

theorem Canonical.agree_of_same (leftCanonical : left.Canonical)
    (rightCanonical : right.Canonical) (same : left.same right = true) : left.Agree right where
  size := (leftCanonical.created.rearranged_of_same rightCanonical.created same).length_eq
  lists := (same_eq_true_iff leftCanonical.distinct rightCanonical.distinct).1 same
  hasOptional := leftCanonical.created.hasOptional_eq_of_same rightCanonical.created
    leftCanonical.keyed rightCanonical.keyed same
  lines := leftCanonical.perm_toLines rightCanonical same
  read := fun _ => ⟨_, _, leftCanonical.ofText_toText_eq_ok, rightCanonical.ofText_toText_eq_ok,
    leftCanonical.created.same_withLineFeeds rightCanonical.created same⟩
  interchanged := fun indent => ⟨_, _, leftCanonical.ofJsonText_eq_ok indent,
    rightCanonical.ofJsonText_eq_ok indent, same⟩

/-- The laws of being the same. -/
structure SameLaws : Prop where
  dependencies : Equivalence fun left right : Dependency => left.same right = true
  lists : Equivalence fun left right : DependencyList => left.same right = true
  declarations : Equivalence
    fun left right : { declarations : Declarations // declarations.Created } =>
      left.val.same right.val = true
  dependency_iff (left right : Dependency) : left.same right = true ↔
    left.kinds = right.kinds ∧ left.range = right.range ∧ left.metadata.Perm right.metadata
  list_iff (left right : DependencyList) (leftSeparate : DependencyList.Separate left.dependencies)
    (rightSeparate : DependencyList.Separate right.dependencies) :
    left.same right = true ↔ Rearranged (fun dependency other => dependency.same other = true)
      left.dependencies right.dependencies
  declarations_iff (left right : Declarations) (leftCreated : left.Created)
    (rightCreated : right.Created) :
    left.same right = true ↔ Rearranged Alike left.entries right.entries
  list_agree (left right : DependencyList)
    (leftSeparate : DependencyList.Separate left.dependencies)
    (rightSeparate : DependencyList.Separate right.dependencies) (leftKeyed : left.Keyed)
    (rightKeyed : right.Keyed) (same : left.same right = true) : left.Agree right
  agree (left right : Declarations) (leftWellFormed : left.WellFormed)
    (rightWellFormed : right.WellFormed) (same : left.same right = true) : left.Agree right

/-- Being the same is an equivalence of dependencies, of lists and of declarations: the kinds and
the ranges are equal and the metadata, the dependencies and the targets are the same one by one, in
whatever order. Same lists and same declarations agree, also after they were written and read. -/
theorem same_congruence : SameLaws where
  dependencies := Dependency.same_equivalence
  lists := DependencyList.same_equivalence
  declarations := same_equivalence
  dependency_iff _ _ := Dependency.same_eq_true_iff
  list_iff _ _ := DependencyList.same_iff_rearranged
  declarations_iff _ _ := Created.same_iff_rearranged
  list_agree _ _ := DependencyList.agree_of_same
  agree _ _ leftWellFormed rightWellFormed same :=
    leftWellFormed.canonical.agree_of_same rightWellFormed.canonical same

/-- Declarations whose targets, dependencies and metadata are in another order. -/
theorem same_congruence_reordered :
    let dependency (metadata : List (Text × Text)) : Dependency :=
      ⟨["api".toList], .minimum ['1'], metadata⟩
    let lib : Identifier := ⟨"lib".toList, [], none⟩
    let tool : Identifier := ⟨"tool".toList, [], none⟩
    let note := ("note".toList, "a\rb".toList)
    let optional := ("optional".toList, "TRUE".toList)
    let list : DependencyList := ⟨[dependency [], dependency [note, optional]]⟩
    let other : DependencyList := ⟨[dependency [optional, note], dependency []]⟩
    let left : Declarations := ⟨[(lib, list), (tool, ⟨[dependency []]⟩)]⟩
    let right : Declarations := ⟨[(tool, ⟨[dependency []]⟩), (lib, other)]⟩
    list.Agree other ∧ left.Agree right ∧ left.toText ≠ right.toText := by
  intro dependency lib tool note optional list other left right
  have laws := same_congruence
  have keyed : list.Keyed ∧ other.Keyed := by
    simp only [DependencyList.Keyed, Dependency.Keyed]
    decide
  have separate : DependencyList.Separate list.dependencies ∧
      DependencyList.Separate other.dependencies := by
    simp only [DependencyList.Separate]
    decide
  have built (metadata : List (Text × Text))
      (member : metadata ∈ [[], [note, optional], [optional, note]]) :
      (dependency metadata).Built ∧ (dependency metadata).range.WellFormed := by
    have parts : Dependency.Parts ["api".toList] metadata := by
      refine ⟨by decide, by decide, by decide, ?_, ?_, ?_⟩ <;> revert metadata <;> decide
    exact ⟨Dependency.built_iff.2 ⟨parts, List.cons_ne_nil _ _⟩, .minimum rfl⟩
  have made : ∀ declarations ∈ [left, right], (declarations.entries.map Prod.fst).Nodup ∧
      ofEntries declarations.entries = .ok declarations ∧
      ∀ entry ∈ declarations.entries, entry.1 ∈ [lib, tool] ∧
        entry.2 = .ofList entry.2.dependencies ∧ ∀ known ∈ entry.2.dependencies,
          ∃ metadata ∈ [[], [note, optional], [optional, note]], dependency metadata = known := by
    decide
  have wellFormed : ∀ declarations ∈ [left, right], declarations.WellFormed := by
    intro declarations member
    rcases made declarations member with ⟨distinct, kept, entries⟩
    refine ⟨declarations.entries, ⟨distinct, ?_, ?_⟩, kept⟩
    · intro entry entryMem
      rcases List.mem_pair.1 (entries entry entryMem).1 with target | target
      · exact ⟨"lib".toList, [], target ▸ rfl⟩
      · exact ⟨"tool".toList, [], target ▸ rfl⟩
    · intro entry entryMem
      rcases entries entry entryMem with ⟨-, list, known⟩
      refine ⟨entry.2.dependencies, list, ?_⟩
      intro dependency dependencyMem
      rcases known dependency dependencyMem with ⟨metadata, metadataMem, rfl⟩
      exact built metadata metadataMem
  refine ⟨laws.list_agree list other separate.1 separate.2 keyed.1 keyed.2 rfl, ?_, by decide⟩
  exact laws.agree left right (wellFormed left (by simp)) (wellFormed right (by simp)) rfl

end Declarations

end BundleDecl
