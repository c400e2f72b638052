import BundleDecl.Range
import Mathlib.Data.List.Basic

/-!
# Combined ranges

Unions and intersections are made in the same way. Ranges that are combined already contribute their
members, every other range contributes itself, and what is contributed forms a sorted set; the range
is made of that set unless it has fewer than two members. So the result depends on the set of the
ranges only, and a result that is combined again is dissolved, provided that nothing is left to
dissolve in the members that are contributed.
-/

namespace BundleDecl

namespace Range

/-- A way to combine ranges: what a range contributes, and the range that is made of members. -/
structure Combination where
  parts : Range → List Range
  make : List Range → Range
  parts_make : ∀ members, parts (make members) = members

namespace Combination

def unions : Combination := ⟨unionMembers, union, fun _ => rfl⟩

def intersections : Combination := ⟨intersectionMembers, intersection, fun _ => rfl⟩

variable (combination : Combination) {ranges : List Range}

/-- The combination of some ranges: `unionOf` or `intersectionOf` by definition. -/
def combine (ranges : List Range) : Range :=
  match SortedSet.ofList (ranges.flatMap combination.parts) with
  | [] => unsatisfiable
  | [member] => member
  | members => combination.make members

theorem two_le_length {Item : Type} {items : List Item} (notNil : items ≠ [])
    (notSingle : ∀ item, items ≠ [item]) : 2 ≤ items.length := by
  rcases items with _ | ⟨first, _ | ⟨second, rest⟩⟩
  · contradiction
  · exact absurd rfl (notSingle first)
  · simp

theorem ne_nil_of_two_le {Item : Type} {items : List Item} (several : 2 ≤ items.length) :
    items ≠ [] := by
  rintro rfl
  simp at several

/-- What a combination may be: nothing, what alone is contributed, or made of several members. -/
theorem combine_cases {motive : Range → Prop}
    (none : ranges.flatMap combination.parts = [] → motive unsatisfiable)
    (single : ∀ member, (∀ other, other ∈ ranges.flatMap combination.parts ↔ other = member) →
      motive member)
    (several : ∀ members, 2 ≤ members.length → members.Pairwise (· < ·) →
      (∀ member, member ∈ members ↔ member ∈ ranges.flatMap combination.parts) →
      motive (combination.make members)) :
    motive (combination.combine ranges) := by
  have sorted := SortedSet.pairwise_ofList (ranges.flatMap combination.parts)
  have same := fun member : Range => @SortedSet.mem_ofList _ _ _ _ member
    (ranges.flatMap combination.parts)
  rw [combine]
  generalize SortedSet.ofList (ranges.flatMap combination.parts) = collected at sorted same
  split
  · exact none (List.eq_nil_iff_forall_not_mem.2 fun member contributed =>
      List.not_mem_nil ((same member).2 contributed))
  · rename_i member
    exact single member fun other => by rw [← same, List.mem_singleton]
  · rename_i notNil notSingle
    exact several collected (two_le_length notNil notSingle) sorted same

/-- What holds of all members that are contributed holds of the combination if it holds of nothing
and of what is made of members that hold. -/
theorem combine_closed {motive : Range → Prop} (none : motive unsatisfiable)
    (several : ∀ {members : List Range}, 2 ≤ members.length → members.Pairwise (· < ·) →
      (∀ member ∈ members, combination.parts member = [member]) →
      (∀ member ∈ members, motive member) → motive (combination.make members))
    (contributed : ∀ range ∈ ranges, ∀ member ∈ combination.parts range,
      motive member ∧ combination.parts member = [member]) :
    motive (combination.combine ranges) := by
  have collected : ∀ member ∈ ranges.flatMap combination.parts,
      motive member ∧ combination.parts member = [member] := by
    intro member contained
    rcases List.mem_flatMap.1 contained with ⟨range, rangeMem, given⟩
    exact contributed range rangeMem member given
  apply combination.combine_cases
  · intro _
    exact none
  · intro member alone
    exact (collected member ((alone member).2 rfl)).1
  · intro members long sorted same
    exact several long sorted
      (fun member contained => (collected member ((same member).1 contained)).2)
      (fun member contained => (collected member ((same member).1 contained)).1)

/-- Only the set of the ranges matters, not their order or repetition. -/
theorem combine_eq_of_mem_iff {left right : List Range}
    (same : ∀ range, range ∈ left ↔ range ∈ right) :
    combination.combine left = combination.combine right := by
  have parts : SortedSet.ofList (left.flatMap combination.parts) =
      SortedSet.ofList (right.flatMap combination.parts) := by
    rw [SortedSet.ofList_eq_ofList_iff]
    intro member
    simp only [List.mem_flatMap, same]
  rw [combine, combine, parts]

/-- Several sorted members that are not combined themselves are kept as they are. -/
theorem combine_eq_make {members : List Range} (several : 2 ≤ members.length)
    (sorted : members.Pairwise (· < ·))
    (flat : ∀ member ∈ members, combination.parts member = [member]) :
    combination.combine members = combination.make members := by
  have alone : members.flatMap combination.parts = members := by
    rw [List.flatMap_congr flat, List.flatMap_singleton']
  rw [combine, alone, SortedSet.ofList_eq_self sorted]
  rcases members with _ | ⟨first, _ | ⟨second, rest⟩⟩
  · simp at several
  · simp at several
  · rfl

/-- A combination contributes what the ranges contribute that it is made of. -/
theorem mem_parts_combine (nonempty : ranges.flatMap combination.parts ≠ [])
    (flat : ∀ member ∈ ranges.flatMap combination.parts, combination.parts member = [member])
    {member : Range} :
    member ∈ combination.parts (combination.combine ranges) ↔
      member ∈ ranges.flatMap combination.parts := by
  apply combination.combine_cases
    (motive := fun range => member ∈ combination.parts range ↔
      member ∈ ranges.flatMap combination.parts)
  · intro none
    contradiction
  · intro alone contributed
    have self : combination.parts alone = [alone] := flat alone ((contributed alone).2 rfl)
    rw [self, contributed, List.mem_singleton]
  · intro members _ _ contributed
    rw [combination.parts_make, contributed]

/-- A combination that is combined with other ranges is dissolved. -/
theorem combine_append_combine {before middle after : List Range}
    (nonempty : middle.flatMap combination.parts ≠ [])
    (flat : ∀ member ∈ middle.flatMap combination.parts, combination.parts member = [member]) :
    combination.combine (before ++ [combination.combine middle] ++ after) =
      combination.combine (before ++ middle ++ after) := by
  have parts : SortedSet.ofList
      ((before ++ [combination.combine middle] ++ after).flatMap combination.parts) =
        SortedSet.ofList ((before ++ middle ++ after).flatMap combination.parts) := by
    rw [SortedSet.ofList_eq_ofList_iff]
    intro member
    simp only [List.flatMap_append, List.mem_append, List.flatMap_singleton,
      combination.mem_parts_combine nonempty flat]
  rw [combine, parts, ← combine]

end Combination

/-! ## Ranges that are made by combining -/

/-- The ranges with one or two bounds, which are valid. -/
inductive Simple : Range → Prop where
  | base {bound : Text} : Version.isValid bound = true → Simple (base bound)
  | exact {bound : Text} : Version.isValid bound = true → Simple (exact bound)
  | minimum {bound : Text} : Version.isValid bound = true → Simple (minimum bound)
  | maximum {bound : Text} : Version.isValid bound = true → Simple (maximum bound)
  | bounded {left right : Text} (leftIncluded rightIncluded : Bool) :
      Version.isValid left = true → Version.isValid right = true →
      Simple (bounded left right leftIncluded rightIncluded)

/-- The ranges that can be made of valid version numbers, whatever the order of two bounds. -/
inductive Composed : Range → Prop where
  | simple {range : Range} : Simple range → Composed range
  | unsatisfiable : Composed unsatisfiable
  | unionOf {ranges : List Range} :
      (∀ range ∈ ranges, Composed range) → Composed (unionOf ranges)
  | intersectionOf {ranges : List Range} :
      (∀ range ∈ ranges, Composed range) → Composed (intersectionOf ranges)

/-- The structure of these ranges. -/
inductive Arranged : Range → Prop where
  | simple {range : Range} : Simple range → Arranged range
  | unsatisfiable : Arranged unsatisfiable
  | union {members : List Range} (several : 2 ≤ members.length)
      (sorted : members.Pairwise (· < ·))
      (flat : ∀ member ∈ members, unionMembers member = [member])
      (arranged : ∀ member ∈ members, Arranged member) : Arranged (union members)
  | intersection {members : List Range} (several : 2 ≤ members.length)
      (sorted : members.Pairwise (· < ·))
      (flat : ∀ member ∈ members, intersectionMembers member = [member])
      (arranged : ∀ member ∈ members, Arranged member) : Arranged (intersection members)

theorem Simple.unionMembers_eq {range : Range} (simple : range.Simple) :
    unionMembers range = [range] := by
  cases simple <;> rfl

theorem Simple.intersectionMembers_eq {range : Range} (simple : range.Simple) :
    intersectionMembers range = [range] := by
  cases simple <;> rfl

/-- A union is none of its own members. -/
theorem unionMembers_ne_singleton (members : List Range) :
    unionMembers (union members) ≠ [union members] := by
  intro alone
  have smaller := congrArg sizeOf alone
  simp [unionMembers] at smaller
  omega

/-- An intersection is none of its own members. -/
theorem intersectionMembers_ne_singleton (members : List Range) :
    intersectionMembers (intersection members) ≠ [intersection members] := by
  intro alone
  have smaller := congrArg sizeOf alone
  simp [intersectionMembers] at smaller
  omega

namespace Arranged

variable {range member : Range} {ranges : List Range}

theorem mem_unionMembers (arranged : range.Arranged) (contributed : member ∈ unionMembers range) :
    member.Arranged ∧ unionMembers member = [member] := by
  cases arranged with
  | union _ _ flat arranged => exact ⟨arranged member contributed, flat member contributed⟩
  | simple simple =>
      rw [simple.unionMembers_eq, List.mem_singleton] at contributed
      rcases contributed with rfl
      exact ⟨.simple simple, simple.unionMembers_eq⟩
  | unsatisfiable =>
      rcases List.mem_singleton.1 contributed with rfl
      exact ⟨.unsatisfiable, rfl⟩
  | intersection several sorted flat arranged =>
      rcases List.mem_singleton.1 contributed with rfl
      exact ⟨.intersection several sorted flat arranged, rfl⟩

theorem mem_intersectionMembers (arranged : range.Arranged)
    (contributed : member ∈ intersectionMembers range) :
    member.Arranged ∧ intersectionMembers member = [member] := by
  cases arranged with
  | intersection _ _ flat arranged =>
      exact ⟨arranged member contributed, flat member contributed⟩
  | simple simple =>
      rw [simple.intersectionMembers_eq, List.mem_singleton] at contributed
      rcases contributed with rfl
      exact ⟨.simple simple, simple.intersectionMembers_eq⟩
  | unsatisfiable =>
      rcases List.mem_singleton.1 contributed with rfl
      exact ⟨.unsatisfiable, rfl⟩
  | union several sorted flat arranged =>
      rcases List.mem_singleton.1 contributed with rfl
      exact ⟨.union several sorted flat arranged, rfl⟩

theorem unionOf (arranged : ∀ range ∈ ranges, range.Arranged) : (unionOf ranges).Arranged := by
  apply Combination.unions.combine_closed .unsatisfiable .union
  intro range rangeMem member
  exact (arranged range rangeMem).mem_unionMembers

theorem intersectionOf (arranged : ∀ range ∈ ranges, range.Arranged) :
    (intersectionOf ranges).Arranged := by
  apply Combination.intersections.combine_closed .unsatisfiable .intersection
  intro range rangeMem member
  exact (arranged range rangeMem).mem_intersectionMembers

theorem unionMembers_ne_nil (arranged : range.Arranged) : unionMembers range ≠ [] := by
  cases arranged with
  | union several => exact Combination.ne_nil_of_two_le several
  | simple simple => simp [simple.unionMembers_eq]
  | _ => simp [unionMembers]

theorem intersectionMembers_ne_nil (arranged : range.Arranged) :
    intersectionMembers range ≠ [] := by
  cases arranged with
  | intersection several => exact Combination.ne_nil_of_two_le several
  | simple simple => simp [simple.intersectionMembers_eq]
  | _ => simp [intersectionMembers]

end Arranged

theorem Composed.arranged {range : Range} (composed : range.Composed) : range.Arranged := by
  induction composed with
  | simple simple => exact .simple simple
  | unsatisfiable => exact .unsatisfiable
  | unionOf _ ih => exact .unionOf ih
  | intersectionOf _ ih => exact .intersectionOf ih

end Range

end BundleDecl
