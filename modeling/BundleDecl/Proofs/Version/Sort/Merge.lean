import BundleDecl.Proofs.Version.Sort.Search
import BundleDecl.Version.Sort.Merge
import Mathlib.Order.Defs.Unbundled

/-!
# Merged runs are sorted

Only an item of the right run is ever compared with one of the left run. So nothing needs to be
known about the comparison but what it tells about such a pair, and about two items of one run only
that the run is sorted. Merging keeps what the two runs need for the next item to be taken: all that
remains of them comes after what was taken, and the last item of all is known beforehand.

An order is given by a relation that is transitive. If it holds of all items, what remains is that
no item is lost or made up, whatever the comparison answers.
-/

namespace BundleDecl

open scoped List

namespace Version

variable {Error Item : Type} {fails : Error → Prop} {le : Item → Item → Prop}
  {compare : Comparison Error Item}

/-- The comparison of an item with an earlier one tells which of them comes first in an order, or it
fails in an admitted way. -/
def Decides (fails : Error → Prop) (le : Item → Item → Prop) (compare : Comparison Error Item)
    (earlier later : Item) : Prop :=
  Meets fails (fun isBelow => if isBelow then le later earlier else le earlier later)
    (precedes compare later earlier)

/-- The items of two runs in order. -/
structure Merged (le : Item → Item → Prop) (left right merged : List Item) : Prop where
  perm : merged.Perm (left ++ right)
  sorted : merged.Pairwise le

namespace Merged

variable {left right merged : List Item}

theorem symm (isMerged : Merged le left right merged) : Merged le right left merged :=
  ⟨isMerged.perm.trans List.perm_append_comm, isMerged.sorted⟩

/-- The merge of two runs in reverse order, reversed. -/
theorem of_reverse (isMerged : Merged (fun first second => le second first) left.reverse
    right.reverse merged) : Merged le left right merged.reverse where
  perm := merged.reverse_perm.trans
    (isMerged.perm.trans (left.reverse_perm.append right.reverse_perm))
  sorted := List.pairwise_reverse.2 isMerged.sorted

theorem mem_iff (isMerged : Merged le left right merged) {item : Item} :
    item ∈ merged ↔ item ∈ left ∨ item ∈ right := by
  rw [isMerged.perm.mem_iff, List.mem_append]

/-- Two runs of which one comes before the other. -/
theorem append (leftSorted : left.Pairwise le) (rightSorted : right.Pairwise le)
    (ordered : ∀ first ∈ left, ∀ second ∈ right, le first second) :
    Merged le left right (left ++ right) :=
  ⟨.refl _, List.pairwise_append.2 ⟨leftSorted, rightSorted, ordered⟩⟩

theorem nil_right (leftSorted : left.Pairwise le) : Merged le left [] left :=
  ⟨by rw [List.append_nil], leftSorted⟩

/-- The items of the left run that come before the first one of the right run are taken, then that
one, and then what remains. -/
theorem take [IsTrans Item le] {second : Item} {count : Nat}
    (leftSorted : left.Pairwise le) (rightSorted : (second :: right).Pairwise le)
    (cut : Cut (le · second) (le second ·) left count)
    (isMerged : Merged le (left.drop count) right merged) :
    Merged le left (second :: right) (left.take count ++ [second] ++ merged) where
  perm := by
    rw [List.append_assoc, List.singleton_append]
    calc
      left.take count ++ second :: merged ~
          left.take count ++ second :: (left.drop count ++ right) :=
        (isMerged.perm.cons second).append_left _
      _ ~ left.take count ++ (left.drop count ++ second :: right) :=
        List.perm_middle.symm.append_left _
      _ = left ++ second :: right := by
        rw [← List.append_assoc, List.take_append_drop]
  sorted := by
    have fromSecond : ∀ item ∈ merged, le second item := by
      intro item member
      rcases isMerged.mem_iff.1 member with inLeft | inRight
      · exact cut.behind item inLeft
      · exact List.rel_of_pairwise_cons rightSorted inRight
    rw [List.append_assoc, List.singleton_append]
    refine List.pairwise_append.2 ⟨leftSorted.sublist (List.take_sublist _ _), ?_, ?_⟩
    · exact List.pairwise_cons.2 ⟨fromSecond, isMerged.sorted⟩
    · intro item taken other member
      have toSecond := cut.before item taken
      rcases List.mem_cons.1 member with rfl | member
      · exact toSecond
      · exact trans_of le toSecond (fromSecond other member)

/-- What comes before both runs, and what comes behind the left one, stays in its place. -/
theorem surround {front behind : List Item} (leftSorted : (front ++ left).Pairwise le)
    (rightSorted : (right ++ behind).Pairwise le)
    (fromFront : ∀ item ∈ front, ∀ other ∈ right ++ behind, le item other)
    (toBehind : ∀ item ∈ left, ∀ other ∈ behind, le item other)
    (isMerged : Merged le left right merged) :
    Merged le (front ++ left) (right ++ behind) (front ++ merged ++ behind) where
  perm := by
    calc
      front ++ merged ++ behind ~ front ++ (left ++ right) ++ behind :=
        (isMerged.perm.append_left front).append_right behind
      _ = front ++ left ++ (right ++ behind) := by simp only [List.append_assoc]
  sorted := by
    rcases List.pairwise_append.1 leftSorted with ⟨frontSorted, -, frontLeft⟩
    rcases List.pairwise_append.1 rightSorted with ⟨-, behindSorted, rightBehind⟩
    rw [List.append_assoc]
    refine List.pairwise_append.2 ⟨frontSorted, List.pairwise_append.2
      ⟨isMerged.sorted, behindSorted, ?_⟩, ?_⟩
    · intro item member other behindMem
      rcases isMerged.mem_iff.1 member with inLeft | inRight
      · exact toBehind item inLeft other behindMem
      · exact rightBehind item inRight other behindMem
    · intro item frontMem other member
      rcases List.mem_append.1 member with merged | behindMem
      · rcases isMerged.mem_iff.1 merged with inLeft | inRight
        · exact frontLeft item frontMem other inLeft
        · exact fromFront item frontMem other (List.mem_append_left _ inRight)
      · exact fromFront item frontMem other (List.mem_append_right _ behindMem)

/-- The first item of the right run is taken. -/
theorem cons [IsTrans Item le] {second : Item} (leftSorted : left.Pairwise le)
    (rightSorted : (second :: right).Pairwise le) (least : ∀ item ∈ left, le second item)
    (isMerged : Merged le left right merged) :
    Merged le left (second :: right) (second :: merged) := by
  have cut : Cut (le · second) (le second ·) left 0 := ⟨by simp, least⟩
  exact isMerged.take leftSorted rightSorted cut

/-- The first item of the right run is taken, if there is one. -/
theorem take_one [IsTrans Item le] (leftSorted : left.Pairwise le) (rightSorted : right.Pairwise le)
    (least : ∀ first ∈ right.head?, ∀ item ∈ left, le first item)
    (isMerged : Merged le left (right.drop 1) merged) :
    Merged le left right (right.take 1 ++ merged) := by
  rcases right with _ | ⟨first, right⟩
  · exact isMerged
  · exact isMerged.cons leftSorted rightSorted (least first rfl)

end Merged

/-- What comes before the first one of some sorted items comes before all of them. -/
theorem least_of_sorted [IsTrans Item le] {item first : Item} {items : List Item}
    (sorted : (first :: items).Pairwise le) (before : le item first) :
    ∀ other ∈ first :: items, le item other := by
  intro other member
  rcases List.mem_cons.1 member with rfl | member
  · exact before
  · exact trans_of le before (List.rel_of_pairwise_cons sorted member)

/-- All of some sorted items come before what comes behind the last one. -/
theorem greatest_of_sorted [IsTrans Item le] {last other : Item} {items : List Item}
    (sorted : items.Pairwise le) (isLast : items.getLast? = some last) (behind : le last other) :
    ∀ item ∈ items, le item other := by
  intro item member
  rcases List.getLast?_eq_some_iff.1 isLast with ⟨front, rfl⟩
  rcases List.mem_append.1 member with inFront | isLast
  · have toLast := (List.pairwise_append.1 sorted).2.2 item inFront last List.mem_cons_self
    exact trans_of le toLast behind
  · rwa [List.mem_singleton.1 isLast]

/-- Items in order that are asked on which side of one item they come. -/
theorem divides_of_sorted [IsTrans Item le] {pivot : Item} {items : List Item}
    {test : Test Error Item} (sorted : items.Pairwise le)
    (answers : ∀ item ∈ items,
      Meets fails (fun answer => if answer then le item pivot else le pivot item) (test item)) :
    DividingTest fails (le · pivot) (le pivot ·) test items where
  answers := answers
  passing_before := sorted.imp fun before behind => trans_of le before behind
  failing_behind := sorted.imp fun before behind => trans_of le behind before

namespace Side

/-- The order in which items are taken from a side. -/
def order (side : Side) (le : Item → Item → Prop) : Item → Item → Prop :=
  match side with
  | start => le
  | finish => fun first second => le second first

instance [IsTrans Item le] (side : Side) : IsTrans Item (side.order le) where
  trans := by
    intro first second third before behind
    cases side with
    | start => exact trans_of le before behind
    | finish => exact trans_of le behind before

theorem takesLeft_meets (side : Side) {left right : Item}
    (decides : Decides fails le compare left right) :
    Meets fails (fun answer => if answer then side.order le left right
      else side.order le right left) (side.takesLeft compare left right) := by
  refine Meets.bind decides ?_
  cases side
  all_goals rintro (_ | _) answer
  all_goals exact answer

theorem takesRight_meets (side : Side) {left right : Item}
    (decides : Decides fails le compare left right) :
    Meets fails (fun answer => if answer then side.order le right left
      else side.order le left right) (side.takesRight compare left right) := by
  refine (side.takesLeft_meets decides).bind ?_
  rintro (_ | _) answer
  · exact answer
  · exact answer

end Side

/-- The negated comparison tells whether the later item comes last. -/
theorem Decides.negated {earlier later : Item} (decides : Decides fails le compare earlier later) :
    Meets fails (fun answer => if answer then le earlier later else le later earlier)
      (do return !(← precedes compare later earlier)) :=
  Side.start.takesLeft_meets decides

theorem DividingTest.countTaken_meets {passing failing : Item → Prop} {test : Test Error Item}
    {items : List Item} (divides : DividingTest fails passing failing test items) (side : Side) :
    Meets fails (Cut passing failing items) (side.countTaken test items) := by
  cases side with
  | start => exact divides.gallop_meets .start
  | finish =>
      refine (divides.reverse.gallop_meets .finish).bind ?_
      intro count cut
      exact cut.of_reverse

theorem mem_getLast?_of_length_le_one {items : List Item} (short : items.length ≤ 1) {item : Item}
    (member : item ∈ items) : item ∈ items.getLast? := by
  rcases items with _ | ⟨only, _ | ⟨second, items⟩⟩
  · contradiction
  · rw [List.mem_singleton.1 member]
    rfl
  · simp at short

/-- Nothing needs to be compared any more if one of the runs is empty. -/
theorem Side.exists_settled (side : Side) {left right : List Item}
    (oneEmpty : ∀ first leftRest second rightRest, left = first :: leftRest →
      right = second :: rightRest → False) :
    ∃ items, side.settled? left right = some items := by
  have empty : left = [] ∨ right = [] := by
    rcases left with _ | ⟨first, leftRest⟩
    · exact Or.inl rfl
    · rcases right with _ | ⟨second, rightRest⟩
      · exact Or.inr rfl
      · exact (oneEmpty first leftRest second rightRest rfl rfl).elim
  rcases empty with rfl | rfl
  all_goals cases side
  all_goals simp [Side.settled?]

/-- The run that reaches beyond the other one, which is the left one from the start and the right
one from the finish, ends with the last item of all. -/
def Side.Closes (side : Side) (le : Item → Item → Prop) (left right : List Item) : Prop :=
  match side with
  | start => ∀ last ∈ left.getLast?, ∀ item ∈ right, side.order le item last
  | finish => ∀ last ∈ right.getLast?, ∀ item ∈ left, side.order le item last

/-- Two runs that are to be merged from a side, in the order in which their items are taken. -/
structure Mergeable (fails : Error → Prop) (le : Item → Item → Prop)
    (compare : Comparison Error Item) (side : Side) (left right : List Item) : Prop where
  leftSorted : left.Pairwise (side.order le)
  rightSorted : right.Pairwise (side.order le)
  decides : ∀ first ∈ left, ∀ second ∈ right, Decides fails le compare first second
  closes : side.Closes le left right

namespace Mergeable

variable {side : Side} {left right : List Item}

theorem of_suffix {leftRest rightRest : List Item}
    (mergeable : Mergeable fails le compare side left right) (leftSuffix : leftRest <:+ left)
    (rightSuffix : rightRest <:+ right) :
    Mergeable fails le compare side leftRest rightRest where
  leftSorted := mergeable.leftSorted.sublist leftSuffix.sublist
  rightSorted := mergeable.rightSorted.sublist rightSuffix.sublist
  decides first firstMem second secondMem :=
    mergeable.decides first (leftSuffix.subset firstMem) second (rightSuffix.subset secondMem)
  closes := by
    have closes := mergeable.closes
    rcases leftSuffix with ⟨leftTaken, rfl⟩
    rcases rightSuffix with ⟨rightTaken, rfl⟩
    cases side
    all_goals
      intro last isLast item member
      exact closes last (List.mem_getLast?_append_of_mem_getLast? isLast) item
        (List.mem_append_right _ member)

/-- If nothing needs to be compared any more, one of the runs has at most one item, which is then
the last one of all. -/
theorem merged_of_settled (mergeable : Mergeable fails le compare side left right)
    {items : List Item} (settled : side.settled? left right = some items) :
    Merged (side.order le) left right items := by
  have closes := mergeable.closes
  cases side with
  | start =>
      simp only [Side.settled?, Option.ite_none_right_eq_some, Option.some.injEq] at settled
      rcases settled with ⟨short, rfl⟩
      refine (Merged.append mergeable.rightSorted mergeable.leftSorted ?_).symm
      intro first firstMem last lastMem
      rcases short with short | rfl
      · exact closes last (mem_getLast?_of_length_le_one short lastMem) first firstMem
      · contradiction
  | finish =>
      simp only [Side.settled?, Option.ite_none_right_eq_some, Option.some.injEq] at settled
      rcases settled with ⟨short, rfl⟩
      refine Merged.append mergeable.leftSorted mergeable.rightSorted ?_
      intro first firstMem last lastMem
      rcases short with rfl | short
      · contradiction
      · exact closes last (mem_getLast?_of_length_le_one short lastMem) first firstMem

end Mergeable

/-- One step takes items of one run up to the first one of the other run, and that one. -/
theorem mergeRest_meets [IsTrans Item le] {side : Side} {left right : List Item}
    (mergeable : Mergeable fails le compare side left right) (threshold : Nat) (pace : Pace) :
    Meets fails (fun result => Merged (side.order le) left right result.1)
      (mergeRest compare side threshold pace left right) := by
  induction threshold, pace, left, right using mergeRest.induct side with
  | case1 threshold pace first left second right items settled =>
      rw [mergeRest, settled]
      exact mergeable.merged_of_settled settled
  | case2 threshold pace first left second right settled reached leftStreak rightStreak phase ihLeft
      ihRight =>
      have leftSorted := mergeable.leftSorted
      have rightSorted := mergeable.rightSorted
      have decides := mergeable.decides first List.mem_cons_self second List.mem_cons_self
      simp only [mergeRest, settled, phase]
      refine (side.takesLeft_meets decides).bind ?_
      rintro (_ | _) answer
      · refine (ihRight (mergeable.of_suffix List.suffix_rfl (List.suffix_cons _ _))).mono ?_ |>.map
        intro result isMerged
        exact isMerged.cons leftSorted rightSorted (least_of_sorted leftSorted answer)
      · refine (ihLeft (mergeable.of_suffix (List.suffix_cons _ _) List.suffix_rfl)).mono ?_ |>.map
        intro result isMerged
        exact (isMerged.symm.cons rightSorted leftSorted (least_of_sorted rightSorted answer)).symm
  | case3 threshold pace first left second right settled reached phase ih =>
      have divides := divides_of_sorted mergeable.leftSorted fun item member =>
        side.takesLeft_meets (mergeable.decides item member second List.mem_cons_self)
      simp only [mergeRest, settled, phase]
      refine (divides.countTaken_meets side).bind ?_
      intro count cut
      refine (ih count (mergeable.of_suffix (List.drop_suffix _ _) (List.suffix_cons _ _))).mono ?_
        |>.map
      intro result isMerged
      exact isMerged.take mergeable.leftSorted mergeable.rightSorted cut
  | case4 threshold pace first left second right settled reached leftCount phase ih =>
      have divides := divides_of_sorted mergeable.rightSorted fun item member =>
        side.takesRight_meets (mergeable.decides first List.mem_cons_self item member)
      simp only [mergeRest, settled, phase]
      refine (divides.countTaken_meets side).bind ?_
      intro count cut
      refine (ih count (mergeable.of_suffix (List.suffix_cons _ _) (List.drop_suffix _ _))).mono ?_
        |>.map
      intro result isMerged
      exact (isMerged.symm.take mergeable.rightSorted mergeable.leftSorted cut).symm
  | case5 threshold pace left right oneEmpty =>
      rcases side.exists_settled oneEmpty with ⟨items, settled⟩
      rw [mergeRest, settled, Option.getD_some]
      · exact mergeable.merged_of_settled settled
      · exact oneEmpty

/-- Two sorted runs that overlap entirely: the first item of the right one is the least of all, and
the last item of the left one is the greatest. -/
structure Overlap (fails : Error → Prop) (le : Item → Item → Prop)
    (compare : Comparison Error Item) (left right : List Item) : Prop where
  leftSorted : left.Pairwise le
  rightSorted : right.Pairwise le
  decides : ∀ first ∈ left, ∀ second ∈ right, Decides fails le compare first second
  least : ∀ first ∈ right.head?, ∀ item ∈ left, le first item
  greatest : ∀ last ∈ left.getLast?, ∀ item ∈ right, le item last

namespace Overlap

variable {left right : List Item}

/-- What is left of two runs without what comes before the first item of the right one, and without
what comes behind the last item of the left one. -/
theorem of_cut {before count : Nat} {first last : Item} (leftSorted : left.Pairwise le)
    (rightSorted : (first :: right).Pairwise le)
    (decides : ∀ item ∈ left, ∀ other ∈ first :: right, Decides fails le compare item other)
    (cutLeft : Cut (le · first) (le first ·) left before)
    (isLast : (left.drop before).getLast? = some last)
    (cutRight : Cut (le · last) (le last ·) (first :: right) count) (positive : count ≠ 0) :
    Overlap fails le compare (left.drop before) ((first :: right).take count) where
  leftSorted := leftSorted.sublist (List.drop_sublist _ _)
  rightSorted := rightSorted.sublist (List.take_sublist _ _)
  decides item itemMem other otherMem :=
    decides item (List.mem_of_mem_drop itemMem) other (List.mem_of_mem_take otherMem)
  least := by
    intro least isFirst
    rw [List.head?_take, if_neg positive, List.head?_cons, Option.mem_some] at isFirst
    exact isFirst ▸ cutLeft.behind
  greatest := by
    intro greatest isGreatest
    rw [isLast, Option.mem_some] at isGreatest
    exact isGreatest ▸ cutRight.before

theorem mergeable_start (overlap : Overlap fails le compare left right) :
    Mergeable fails le compare .start left right :=
  ⟨overlap.leftSorted, overlap.rightSorted, overlap.decides, overlap.greatest⟩

theorem mergeable_finish (overlap : Overlap fails le compare left right) :
    Mergeable fails le compare .finish left.reverse right.reverse where
  leftSorted := List.pairwise_reverse.2 overlap.leftSorted
  rightSorted := List.pairwise_reverse.2 overlap.rightSorted
  decides first firstMem second secondMem :=
    overlap.decides first (List.mem_reverse.1 firstMem) second (List.mem_reverse.1 secondMem)
  closes := by
    intro last isLast item member
    rw [List.getLast?_reverse] at isLast
    exact overlap.least last isLast item (List.mem_reverse.1 member)

theorem mergeOverlap_meets [IsTrans Item le] (overlap : Overlap fails le compare left right)
    (threshold : Nat) :
    Meets fails (fun result => Merged le left right result.1)
      (mergeOverlap compare threshold left right) := by
  rw [mergeOverlap]
  split
  · have rest := overlap.mergeable_start.of_suffix List.suffix_rfl (List.drop_suffix 1 right)
    refine ((mergeRest_meets rest threshold (.initial threshold)).mono ?_).map
    intro result isMerged
    exact isMerged.take_one overlap.leftSorted overlap.rightSorted overlap.least
  · have whole := overlap.mergeable_finish
    have rest := whole.of_suffix (List.drop_suffix 1 left.reverse) List.suffix_rfl
    refine (mergeRest_meets rest threshold (.initial threshold)).bind ?_
    intro result isMerged
    have greatest : ∀ last ∈ left.reverse.head?, ∀ item ∈ right.reverse, le item last := by
      intro last isLast item member
      rw [List.head?_reverse] at isLast
      exact overlap.greatest last isLast item (List.mem_reverse.1 member)
    have all := (isMerged.symm.take_one whole.rightSorted whole.leftSorted greatest).symm.of_reverse
    have last : (left.reverse.take 1).reverse = left.reverse.take 1 := by
      rcases left.reverse with _ | ⟨last, others⟩
      · rfl
      · rfl
    rwa [List.reverse_append, last] at all

end Overlap

/-- The items of the left run that come before the right one, and those of the right run that come
behind the left one, stay where they are; what is between them overlaps. -/
theorem mergeRuns_meets [IsTrans Item le] {left right : List Item} (leftSorted : left.Pairwise le)
    (rightSorted : right.Pairwise le)
    (decides : ∀ first ∈ left, ∀ second ∈ right, Decides fails le compare first second)
    (threshold : Nat) :
    Meets fails (fun result => Merged le left right result.1)
      (mergeRuns compare threshold left right) := by
  rw [mergeRuns]
  rcases right with _ | ⟨first, right⟩
  · exact Merged.nil_right leftSorted
  · have dividesLeft := divides_of_sorted leftSorted fun item member =>
      (decides item member first List.mem_cons_self).negated
    refine (dividesLeft.gallop_meets .start).bind ?_
    intro before cutLeft
    have fromFront : ∀ item ∈ left.take before, ∀ other ∈ first :: right, le item other := by
      intro item member
      exact least_of_sorted rightSorted (cutLeft.before item member)
    split
    next last isLast =>
      have lastMem : last ∈ left := List.mem_of_mem_drop (List.mem_of_getLast? isLast)
      have dividesRight := divides_of_sorted rightSorted fun item member =>
        decides last lastMem item member
      refine (dividesRight.gallop_meets .finish).bind ?_
      intro count cutRight
      have toBehind : ∀ item ∈ left.drop before, ∀ other ∈ (first :: right).drop count,
          le item other := by
        intro item member other behind
        exact greatest_of_sorted (leftSorted.sublist (List.drop_sublist _ _)) isLast
          (cutRight.behind other behind) item member
      have within : ∀ merged, Merged le (left.drop before) ((first :: right).take count) merged →
          Merged le left (first :: right)
            (left.take before ++ merged ++ (first :: right).drop count) := by
        intro merged isMerged
        rw [← List.take_append_drop before left] at leftSorted
        rw [← List.take_append_drop count (first :: right)] at rightSorted fromFront
        have surrounded := isMerged.surround leftSorted rightSorted fromFront toBehind
        rwa [List.take_append_drop, List.take_append_drop] at surrounded
      split
      next zero =>
        subst zero
        have unchanged := within _ (.nil_right (leftSorted.sublist (List.drop_sublist _ _)))
        rwa [List.take_append_drop] at unchanged
      next positive =>
        have overlap := Overlap.of_cut leftSorted rightSorted decides cutLeft isLast cutRight
          positive
        refine (overlap.mergeOverlap_meets threshold).bind ?_
        intro result isMerged
        exact within result.1 isMerged
    next noLast =>
      have all : left.take before = left := by
        rcases dropped : left.drop before with _ | ⟨item, items⟩
        · simpa [dropped] using List.take_append_drop before left
        · exact (noLast _ (by rw [dropped]; exact List.getLast?_cons)).elim
      rw [all] at fromFront
      exact Merged.append leftSorted rightSorted fromFront

end Version

end BundleDecl
