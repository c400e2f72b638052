import BundleDecl.Declarations
import BundleDecl.Proofs.DependencyList
import BundleDecl.Proofs.Entries
import BundleDecl.Proofs.Failure
import Mathlib.Data.List.Perm.Subperm

/-!
# Laws of declarations

Declarations are made of entries with one target each. Those with the same lists for the same
targets are the same. Filtering keeps the declarations themselves or rebuilds them of what is left
of each entry.
-/

namespace BundleDecl

namespace Declarations

/-- Entries whose targets carry no version make declarations, without those of empty lists. -/
theorem ofEntries_eq_ok_iff {entries : List (Identifier × DependencyList)}
    {declarations : Declarations} :
    ofEntries entries = .ok declarations ↔ (∀ entry ∈ entries, entry.1.version = none) ∧
      declarations = ⟨entries.filter fun entry => !entry.2.isEmpty⟩ := by
  rw [ofEntries]
  split
  · rename_i target list found
    have versioned := List.find?_some found
    change target.version.isSome = true at versioned
    constructor
    · intro made
      exact absurd made fail_ne_ok
    · rintro ⟨unversioned, -⟩
      rw [unversioned _ (List.mem_of_find?_eq_some found)] at versioned
      contradiction
  · rename_i none
    have unversioned : ∀ entry ∈ entries, entry.1.version = .none := by
      simpa [List.find?_eq_none] using none
    rw [Except.ok.injEq, eq_comm]
    exact ⟨fun same => ⟨unversioned, same⟩, fun same => same.2⟩

theorem ofEntries_eq_self {entries : List (Identifier × DependencyList)}
    (unversioned : ∀ entry ∈ entries, entry.1.version = none)
    (nonempty : ∀ entry ∈ entries, entry.2.isEmpty = false) :
    ofEntries entries = .ok ⟨entries⟩ := by
  refine ofEntries_eq_ok_iff.2 ⟨unversioned, ?_⟩
  rw [List.filter_eq_self.2]
  intro entry member
  simp [nonempty entry member]

/-- Declarations that were made of one entry for each target. -/
def Created (declarations : Declarations) : Prop :=
  ∃ entries, (entries.map Prod.fst).Nodup ∧ ofEntries entries = .ok declarations

theorem created_iff {declarations : Declarations} :
    declarations.Created ↔ (declarations.entries.map Prod.fst).Nodup ∧
      (∀ entry ∈ declarations.entries, entry.1.version = none) ∧
      ∀ entry ∈ declarations.entries, entry.2.isEmpty = false := by
  constructor
  · rintro ⟨entries, distinct, made⟩
    rcases ofEntries_eq_ok_iff.1 made with ⟨unversioned, rfl⟩
    refine ⟨distinct.sublist (List.filter_sublist.map Prod.fst), ?_, ?_⟩
    · intro entry member
      exact unversioned entry (List.mem_of_mem_filter member)
    · intro entry member
      simpa using List.of_mem_filter member
  · rintro ⟨distinct, unversioned, nonempty⟩
    exact ⟨declarations.entries, distinct, ofEntries_eq_self unversioned nonempty⟩

/-! ## Entries that are alike -/

/-- Two entries for one target with the same list. -/
def Alike (first second : Identifier × DependencyList) : Prop :=
  first.1 = second.1 ∧ first.2.same second.2 = true

theorem Alike.refl (entry : Identifier × DependencyList) : Alike entry entry :=
  ⟨rfl, entry.2.same_refl⟩

theorem Alike.symm {first second : Identifier × DependencyList} (alike : Alike first second) :
    Alike second first :=
  ⟨alike.1.symm, DependencyList.same_symm alike.2⟩

theorem Alike.trans {first second third : Identifier × DependencyList} (left : Alike first second)
    (right : Alike second third) : Alike first third :=
  ⟨left.1.trans right.1, DependencyList.same_trans left.2 right.2⟩

theorem alike_symm {left right : List (Identifier × DependencyList)}
    (alike : List.Forall₂ Alike left right) : List.Forall₂ Alike right left :=
  (alike.imp fun _ _ known => known.symm).flip

theorem alike_trans {first second third : List (Identifier × DependencyList)}
    (left : List.Forall₂ Alike first second) (right : List.Forall₂ Alike second third) :
    List.Forall₂ Alike first third := by
  induction left generalizing third with
  | nil => exact right
  | cons known _ ih =>
      cases right with
      | cons other others => exact .cons (known.trans other) (ih others)

theorem targets_eq_of_alike {left right : List (Identifier × DependencyList)}
    (alike : List.Forall₂ Alike left right) : left.map Prod.fst = right.map Prod.fst :=
  map_eq_map_iff_forall₂.2 (alike.imp fun _ _ known => known.1)

/-- Declarations whose entries are alike one by one are the same. -/
theorem same_of_alike {left right : Declarations}
    (alike : List.Forall₂ Alike left.entries right.entries)
    (distinct : (right.entries.map Prod.fst).Nodup) : left.same right = true := by
  rw [same, Bool.and_eq_true, beq_iff_eq, List.all_eq_true]
  refine ⟨alike.length_eq, ?_⟩
  rintro ⟨target, list⟩ member
  rcases exists_right_of_forall₂ alike member with ⟨⟨other, otherList⟩, otherMem, targets, lists⟩
  change target = other at targets
  subst other
  have found : right.get? target = some otherList := Entries.get?_of_mem distinct otherMem
  simpa only [found, Option.any_some] using lists

/-- Declarations are the same if and only if they have the same list, or none, for every target. -/
theorem same_eq_true_iff {left right : Declarations} (distinct : (left.entries.map Prod.fst).Nodup)
    (rightDistinct : (right.entries.map Prod.fst).Nodup) :
    left.same right = true ↔ ∀ target, Option.Rel (fun list other => list.same other = true)
      (left.get? target) (right.get? target) := by
  have mem_targets_iff (declarations : Declarations) (target : Identifier) :
      target ∈ declarations.entries.map Prod.fst ↔ (declarations.get? target).isSome = true := by
    rw [← Entries.has_eq_true_iff]
    rfl
  have same_length (declarations : Declarations) :
      declarations.size = (declarations.entries.map Prod.fst).length := by
    rw [size, List.length_map]
  rw [same, Bool.and_eq_true, beq_iff_eq, List.all_eq_true]
  constructor
  · rintro ⟨sizes, found⟩ target
    -- The targets of the left side are targets of the right side, and these are not more.
    have contained : left.entries.map Prod.fst ⊆ right.entries.map Prod.fst := by
      intro target member
      rcases List.mem_map.1 member with ⟨⟨known, list⟩, entryMem, rfl⟩
      rw [mem_targets_iff]
      exact Option.isSome_of_any (found _ entryMem)
    rw [same_length, same_length] at sizes
    have perm := (distinct.subperm contained).perm_of_length_le (Nat.le_of_eq sizes.symm)
    rcases known : left.get? target with _ | list
    · have absent : right.get? target = none := by
        rw [← Option.not_isSome_iff_eq_none, ← mem_targets_iff, ← perm.mem_iff, mem_targets_iff,
          known]
        exact Bool.false_ne_true
      rw [absent]
      exact .none
    · have held := found _ ((Entries.get?_eq_some_iff distinct).1 known)
      rcases (Option.any_eq_true _ _).1 held with ⟨other, otherKnown, same⟩
      change right.get? target = some other at otherKnown
      rw [otherKnown]
      exact .some same
  · intro related
    have perm : (left.entries.map Prod.fst).Perm (right.entries.map Prod.fst) := by
      rw [List.perm_ext_iff_of_nodup distinct rightDistinct]
      intro target
      rw [mem_targets_iff, mem_targets_iff]
      have lists := related target
      generalize left.get? target = known at lists
      generalize right.get? target = other at lists
      cases lists <;> simp
    refine ⟨by rw [same_length, same_length, perm.length_eq], ?_⟩
    rintro ⟨target, list⟩ member
    have lists := related target
    have known : left.get? target = some list := Entries.get?_of_mem distinct member
    rw [known] at lists
    change Option.any (list.same ·) (right.get? target) = true
    generalize right.get? target = other at lists
    cases lists with
    | some same => exact same

/-! ## Filtering -/

/-- What a transformation leaves of an entry. -/
def remaining (transformation : Identifier → DependencyList → Option DependencyList)
    (entry : Identifier × DependencyList) : Option (Identifier × DependencyList) :=
  ((transformation entry.1 entry.2).filter fun list => !list.isEmpty).map (entry.1, ·)

theorem remaining_eq_some_iff
    {transformation : Identifier → DependencyList → Option DependencyList}
    {entry kept : Identifier × DependencyList} :
    remaining transformation entry = some kept ↔ kept.1 = entry.1 ∧
      transformation entry.1 entry.2 = some kept.2 ∧ kept.2.isEmpty = false := by
  simp only [remaining, Option.map_eq_some_iff, Option.filter_eq_some_iff, Bool.not_eq_true']
  constructor
  · rintro ⟨list, ⟨transformed, nonempty⟩, rfl⟩
    exact ⟨rfl, transformed, nonempty⟩
  · rintro ⟨target, transformed, nonempty⟩
    exact ⟨kept.2, ⟨transformed, nonempty⟩, Prod.ext target.symm rfl⟩

variable {transformation : Identifier → DependencyList → Option DependencyList}
  {declarations : Declarations}

/-- The targets that are left are those for which the transformation has a list that is not
empty. -/
theorem targets_filterMap_remaining (entries : List (Identifier × DependencyList)) :
    (entries.filterMap (remaining transformation)).map Prod.fst =
      (entries.filter fun entry =>
        (transformation entry.1 entry.2).any fun list => !list.isEmpty).map Prod.fst := by
  induction entries with
  | nil => rfl
  | cons entry entries ih =>
      rw [List.filterMap_cons, List.filter_cons, remaining]
      rcases transformation entry.1 entry.2 with _ | list
      · simpa using ih
      · cases empty : list.isEmpty <;> simp [Option.filter, empty, ih]

/-- What is left for a target is what is left of its list. -/
theorem get?_filterMap_remaining {entries : List (Identifier × DependencyList)}
    (distinct : (entries.map Prod.fst).Nodup) (target : Identifier) :
    Entries.get? target (entries.filterMap (remaining transformation)) =
      (Entries.get? target entries).bind fun list =>
        (transformation target list).filter fun list => !list.isEmpty := by
  apply Option.ext
  intro kept
  have leftDistinct : ((entries.filterMap (remaining transformation)).map Prod.fst).Nodup := by
    rw [targets_filterMap_remaining]
    exact distinct.sublist (List.filter_sublist.map Prod.fst)
  rw [Entries.get?_eq_some_iff leftDistinct]
  simp only [List.mem_filterMap, remaining_eq_some_iff, Option.bind_eq_some_iff,
    Entries.get?_eq_some_iff distinct, Option.filter_eq_some_iff, Bool.not_eq_true']
  constructor
  · rintro ⟨⟨known, list⟩, member, rfl, transformed, nonempty⟩
    exact ⟨list, member, transformed, nonempty⟩
  · rintro ⟨list, member, transformed, nonempty⟩
    exact ⟨(target, list), member, rfl, transformed, nonempty⟩

/-- Filtering looks at each entry once. -/
theorem filter_eq (transformation : Identifier → DependencyList → Option DependencyList)
    (declarations : Declarations) :
    declarations.filter transformation =
      if declarations.entries.all fun entry => keeps entry.2 (transformation entry.1 entry.2) then
        ⟨declarations, true⟩
      else
        ⟨⟨declarations.entries.filterMap (remaining transformation)⟩, false⟩ := by
  rw [filter, replace, ← List.map_prod_left_eq_zip, List.all_map, List.filterMap_map]
  rfl

theorem unchanged_filter_iff :
    (declarations.filter transformation).unchanged = true ↔ ∀ entry ∈ declarations.entries,
      ∃ kept, transformation entry.1 entry.2 = some kept ∧ kept.same entry.2 = true := by
  have keeps_iff (list : DependencyList) (replacement : Option DependencyList) :
      keeps list replacement = true ↔
        ∃ kept, replacement = some kept ∧ kept.same list = true := by
    simp [keeps, Option.any_eq_true]
  simp only [← keeps_iff, ← List.all_eq_true, filter_eq]
  split <;> simp_all

theorem value_filter_of_unchanged
    (unchanged : (declarations.filter transformation).unchanged = true) :
    (declarations.filter transformation).value = declarations := by
  rw [filter_eq] at unchanged ⊢
  split at unchanged
  · rw [if_pos (by assumption)]
  · contradiction

theorem value_filter_of_changed
    (changed : (declarations.filter transformation).unchanged = false) :
    (declarations.filter transformation).value =
      ⟨declarations.entries.filterMap (remaining transformation)⟩ := by
  rw [filter_eq] at changed ⊢
  split at changed
  · contradiction
  · rw [if_neg (by assumption)]

end Declarations

end BundleDecl
