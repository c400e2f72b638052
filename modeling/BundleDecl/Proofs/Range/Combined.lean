import BundleDecl.Proofs.Range.Includes

/-!
# The meaning and the normal form of combined ranges

A union includes what some of its ranges include, an intersection what all of them do, and both are
determined by the set of their ranges. No union has a union as a member, no intersection an
intersection, and neither has fewer than two members, so that unions of unions and intersections of
intersections are the same as those of all ranges at once.
-/

namespace BundleDecl

namespace Range

/-- A range that is neither a union nor an intersection of fewer than two members or of members of
its own kind. -/
structure Reduced (range : Range) : Prop where
  union : ∀ members, range = union members →
    2 ≤ members.length ∧ members.Nodup ∧ ∀ inner, Range.union inner ∉ members
  intersection : ∀ members, range = intersection members →
    2 ≤ members.length ∧ members.Nodup ∧ ∀ inner, Range.intersection inner ∉ members

theorem nodup_of_pairwise_lt {members : List Range} (sorted : members.Pairwise (· < ·)) :
    members.Nodup := by
  refine sorted.imp ?_
  rintro member _ below rfl
  exact Std.Asymm.asymm _ _ below below

theorem Arranged.reduced {range : Range} (arranged : range.Arranged) : range.Reduced := by
  constructor
  · rintro members rfl
    cases arranged with
    | simple simple => cases simple
    | union several sorted flat _ =>
        refine ⟨several, nodup_of_pairwise_lt sorted, ?_⟩
        intro inner member
        exact unionMembers_ne_singleton inner (flat _ member)
  · rintro members rfl
    cases arranged with
    | simple simple => cases simple
    | intersection several sorted flat _ =>
        refine ⟨several, nodup_of_pairwise_lt sorted, ?_⟩
        intro inner member
        exact intersectionMembers_ne_singleton inner (flat _ member)

variable {ranges before middle after : List Range}

/-- A union among the ranges of a union is dissolved. -/
theorem unionOf_append_unionOf (nonempty : middle ≠ [])
    (arranged : ∀ range ∈ middle, range.Arranged) :
    unionOf (before ++ [unionOf middle] ++ after) = unionOf (before ++ middle ++ after) := by
  apply Combination.unions.combine_append_combine
  · rcases List.exists_mem_of_ne_nil middle nonempty with ⟨range, rangeMem⟩
    intro none
    exact absurd (List.flatMap_eq_nil_iff.1 none range rangeMem)
      (arranged range rangeMem).unionMembers_ne_nil
  · intro member contained
    rcases List.mem_flatMap.1 contained with ⟨range, rangeMem, contributed⟩
    exact ((arranged range rangeMem).mem_unionMembers contributed).2

/-- An intersection among the ranges of an intersection is dissolved. -/
theorem intersectionOf_append_intersectionOf (nonempty : middle ≠ [])
    (arranged : ∀ range ∈ middle, range.Arranged) :
    intersectionOf (before ++ [intersectionOf middle] ++ after) =
      intersectionOf (before ++ middle ++ after) := by
  apply Combination.intersections.combine_append_combine
  · rcases List.exists_mem_of_ne_nil middle nonempty with ⟨range, rangeMem⟩
    intro none
    exact absurd (List.flatMap_eq_nil_iff.1 none range rangeMem)
      (arranged range rangeMem).intersectionMembers_ne_nil
  · intro member contained
    rcases List.mem_flatMap.1 contained with ⟨range, rangeMem, contributed⟩
    exact ((arranged range rangeMem).mem_intersectionMembers contributed).2

/-- Combining ranges keeps their meaning and leads to one normal form. A union includes what some of
its ranges include and an intersection what all of them do. Order and repetition of the ranges leave
no trace, what is made is reduced, and combining what is combined already changes nothing. -/
theorem unionOf_intersectionOf_reduced (composed : ∀ range ∈ ranges, range.Composed) :
    (∀ version, Version.isValid version = true →
      Decides version (unionOf ranges) (∃ range ∈ ranges, includes version range = .ok true) ∧
        (ranges ≠ [] → Decides version (intersectionOf ranges)
          (∀ range ∈ ranges, includes version range = .ok true))) ∧
      (∀ others, (∀ range, range ∈ others ↔ range ∈ ranges) →
        unionOf others = unionOf ranges ∧ intersectionOf others = intersectionOf ranges) ∧
      ((unionOf ranges).Reduced ∧ (intersectionOf ranges).Reduced) ∧
      ∀ before middle after, before ++ middle ++ after = ranges → middle ≠ [] →
        unionOf (before ++ [unionOf middle] ++ after) = unionOf ranges ∧
          intersectionOf (before ++ [intersectionOf middle] ++ after) = intersectionOf ranges := by
  have arranged : ∀ range ∈ ranges, range.Arranged := by
    intro range member
    exact (composed range member).arranged
  refine ⟨?_, ?_, ⟨(Arranged.unionOf arranged).reduced, (Arranged.intersectionOf arranged).reduced⟩,
    ?_⟩
  · intro version valid
    have numeric := Version.isNumeric_of_isValid valid
    refine ⟨decides_unionOf arranged numeric, ?_⟩
    intro nonempty
    exact decides_intersectionOf nonempty arranged numeric
  · intro others same
    exact ⟨Combination.unions.combine_eq_of_mem_iff same,
      Combination.intersections.combine_eq_of_mem_iff same⟩
  · rintro before middle after rfl nonempty
    have inner : ∀ range ∈ middle, range.Arranged := by
      intro range member
      exact arranged range (by simp [member])
    exact ⟨unionOf_append_unionOf nonempty inner,
      intersectionOf_append_intersectionOf nonempty inner⟩

theorem unionOf_intersectionOf_reduced_nested :
    let reversed := bounded ['3'] ['1'] true true
    let inner := unionOf [base ['2'], exact ['4']]
    let ranges := [reversed, inner, minimum ['1']]
    includes "2.5".toList (unionOf ranges) = .ok true ∧
      includes "2.5".toList (intersectionOf ranges) = .ok false ∧
      unionOf [minimum ['1'], inner, reversed, inner] = unionOf ranges ∧
      unionOf ([reversed] ++ [unionOf [inner, minimum ['1']]] ++ []) = unionOf ranges ∧
      (unionOf ranges).Reduced := by
  intro reversed inner ranges
  have innerComposed : inner.Composed := by
    apply Composed.unionOf
    simpa using ⟨.simple (.base rfl), .simple (.exact rfl)⟩
  have composed : ∀ range ∈ ranges, range.Composed := by
    simpa [ranges] using
      ⟨.simple (.bounded true true rfl rfl), innerComposed, .simple (.minimum rfl)⟩
  rcases unionOf_intersectionOf_reduced composed with
    ⟨meaning, unordered, ⟨reduced, -⟩, dissolved⟩
  rcases meaning "2.5".toList rfl with ⟨union, intersection⟩
  refine ⟨?_, ?_, ?_, (dissolved [reversed] [inner, minimum ['1']] [] rfl (by simp)).1, reduced⟩
  · exact union.includes_iff.2 ⟨minimum ['1'], by simp [ranges], by decide⟩
  · rcases intersection (by simp [ranges]) with ⟨included, answer, all⟩
    have outside : ¬∀ range ∈ ranges, includes "2.5".toList range = .ok true := by
      intro all
      exact absurd (all reversed (by simp [ranges])) (by decide)
    rw [answer, Bool.eq_false_iff.2 (fun included => outside (all.1 included))]
  · exact (unordered _ fun range => by simp [ranges]; tauto).1

end Range

end BundleDecl
