import BundleDecl.Proofs.Range.Combination
import BundleDecl.Proofs.Range.Derivation

/-!
# Well-formed ranges

A range is well-formed if its version numbers are valid, its bounds are in order, and its unions and
intersections were made from well-formed ranges. Such a range has a normal form: the members of a
union are sorted and none of them is a union itself, and likewise for intersections. Everything that
is read is well-formed.
-/

namespace BundleDecl

namespace Range

/-- The ranges that can be made from valid version numbers and bounds in order. -/
inductive WellFormed : Range → Prop where
  | base {version : Text} : Version.isValid version = true → WellFormed (base version)
  | exact {version : Text} : Version.isValid version = true → WellFormed (exact version)
  | minimum {version : Text} : Version.isValid version = true → WellFormed (minimum version)
  | maximum {version : Text} : Version.isValid version = true → WellFormed (maximum version)
  | bounded {left right : Text} (leftIncluded rightIncluded : Bool) :
      Version.isValid left = true → Version.isValid right = true →
      Version.isBelow left right = true →
      WellFormed (bounded left right leftIncluded rightIncluded)
  | unsatisfiable : WellFormed unsatisfiable
  | unionOf {ranges : List Range} :
      (∀ range ∈ ranges, WellFormed range) → WellFormed (unionOf ranges)
  | intersectionOf {ranges : List Range} :
      (∀ range ∈ ranges, WellFormed range) → WellFormed (intersectionOf ranges)

/-- The structure of well-formed ranges. -/
inductive Normal : Range → Prop where
  | base {version : Text} : Version.isValid version = true → Normal (base version)
  | exact {version : Text} : Version.isValid version = true → Normal (exact version)
  | minimum {version : Text} : Version.isValid version = true → Normal (minimum version)
  | maximum {version : Text} : Version.isValid version = true → Normal (maximum version)
  | bounded {left right : Text} (leftIncluded rightIncluded : Bool) :
      Version.isValid left = true → Version.isValid right = true →
      Version.isBelow left right = true →
      Normal (bounded left right leftIncluded rightIncluded)
  | unsatisfiable : Normal unsatisfiable
  | union {members : List Range} (several : 2 ≤ members.length)
      (sorted : members.Pairwise (· < ·))
      (flat : ∀ member ∈ members, unionMembers member = [member])
      (normal : ∀ member ∈ members, Normal member) : Normal (union members)
  | intersection {members : List Range} (several : 2 ≤ members.length)
      (sorted : members.Pairwise (· < ·))
      (flat : ∀ member ∈ members, intersectionMembers member = [member])
      (normal : ∀ member ∈ members, Normal member) : Normal (intersection members)

theorem Normal.mem_unionMembers {range member : Range} (normal : range.Normal)
    (contributed : member ∈ unionMembers range) :
    member.Normal ∧ unionMembers member = [member] := by
  cases normal with
  | union several sorted flat normal =>
      exact ⟨normal member contributed, flat member contributed⟩
  | _ =>
      rcases List.mem_singleton.1 contributed with rfl
      exact ⟨by constructor <;> assumption, rfl⟩

theorem Normal.mem_intersectionMembers {range member : Range} (normal : range.Normal)
    (contributed : member ∈ intersectionMembers range) :
    member.Normal ∧ intersectionMembers member = [member] := by
  cases normal with
  | intersection several sorted flat normal =>
      exact ⟨normal member contributed, flat member contributed⟩
  | _ =>
      rcases List.mem_singleton.1 contributed with rfl
      exact ⟨by constructor <;> assumption, rfl⟩

theorem Normal.unionOf {ranges : List Range} (normal : ∀ range ∈ ranges, range.Normal) :
    (unionOf ranges).Normal := by
  apply Combination.unions.combine_closed .unsatisfiable .union
  intro range rangeMem member
  exact (normal range rangeMem).mem_unionMembers

theorem Normal.intersectionOf {ranges : List Range}
    (normal : ∀ range ∈ ranges, range.Normal) : (intersectionOf ranges).Normal := by
  apply Combination.intersections.combine_closed .unsatisfiable .intersection
  intro range rangeMem member
  exact (normal range rangeMem).mem_intersectionMembers

theorem Normal.arranged {range : Range} (normal : range.Normal) : range.Arranged := by
  induction normal with
  | base valid => exact .simple (.base valid)
  | exact valid => exact .simple (.exact valid)
  | minimum valid => exact .simple (.minimum valid)
  | maximum valid => exact .simple (.maximum valid)
  | bounded leftIncluded rightIncluded leftValid rightValid _ =>
      exact .simple (.bounded leftIncluded rightIncluded leftValid rightValid)
  | unsatisfiable => exact .unsatisfiable
  | union several sorted flat _ ih => exact .union several sorted flat ih
  | intersection several sorted flat _ ih => exact .intersection several sorted flat ih

/-- A well-formed range has the normal form. -/
theorem WellFormed.normal {range : Range} (wellFormed : range.WellFormed) : range.Normal := by
  induction wellFormed with
  | base valid => exact .base valid
  | exact valid => exact .exact valid
  | minimum valid => exact .minimum valid
  | maximum valid => exact .maximum valid
  | bounded leftIncluded rightIncluded leftValid rightValid below =>
      exact .bounded leftIncluded rightIncluded leftValid rightValid below
  | unsatisfiable => exact .unsatisfiable
  | unionOf _ ih => exact .unionOf ih
  | intersectionOf _ ih => exact .intersectionOf ih

theorem intersectionOf_singleton {range : Range} (flat : intersectionMembers range = [range]) :
    intersectionOf [range] = range := by
  simp [Range.intersectionOf, flat, SortedSet.ofList, SortedSet.insert]

theorem Braced.wellFormed {opening : Char} {text rest : Text} {range : Range}
    (braced : Braced opening text range rest) : range.WellFormed := by
  cases braced with
  | exact number _ => exact .exact number.2
  | minimum number _ => exact .minimum number.2
  | maximum number _ => exact .maximum number.2
  | bounded _ _ left _ right _ below => exact .bounded _ _ left.2 right.2 below

mutual

theorem Atom.wellFormed : ∀ {text : Text} {range : Range} {rest : Text},
    Atom text range rest → range.WellFormed
  | _, _, _, .base number => .base number.2
  | _, _, _, .braced _ braced => braced.wellFormed
  | _, _, _, .unsatisfiable _ _ => .unsatisfiable
  | _, _, _, .union _ alternatives => .unionOf alternatives.wellFormed

theorem Factors.wellFormed : ∀ {text : Text} {factors : List Range} {rest : Text},
    Factors text factors rest → ∀ factor ∈ factors, factor.WellFormed
  | _, _, _, .last atom _ => by
      simpa using atom.wellFormed
  | _, _, _, .more atom _ following => by
      have others := following.wellFormed
      simpa using ⟨atom.wellFormed, others⟩

theorem Alternatives.wellFormed : ∀ {text : Text} {members : List Range} {rest : Text},
    Alternatives text members rest → ∀ member ∈ members, member.WellFormed
  | _, _, _, .last factors _ => by
      have members := factors.wellFormed
      simpa using WellFormed.intersectionOf members
  | _, _, _, .more factors _ following => by
      have members := factors.wellFormed
      have others := following.wellFormed
      simpa using ⟨WellFormed.intersectionOf members, others⟩

end

/-- Everything that is read is well-formed. -/
theorem wellFormed_of_ofText {text : Text} {range : Range} (read : ofText text = .ok range) :
    range.WellFormed := by
  rcases ofText_eq_ok_iff.1 read with ⟨factors, rest, derivation, -, rfl⟩
  exact .intersectionOf derivation.wellFormed

end Range

end BundleDecl
