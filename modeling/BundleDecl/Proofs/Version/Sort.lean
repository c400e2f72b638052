import BundleDecl.Proofs.Version.Sort.Merge
import BundleDecl.Proofs.Version.Successor
import BundleDecl.Version.Sort

/-!
# Sorting versions

Whatever a comparison answers, and whenever it fails, sorting loses no version and makes none up,
and it fails only as some comparison of a version with an earlier one does. If each of these
comparisons tells which of the two comes first in a transitive order, the versions come out in that
order. Valid version numbers are therefore always sorted, and into the same list whatever order they
come in.

The runs that are to be merged stand for the versions before the remaining ones. Each version is
compared with earlier ones only, so the runs are kept in the order of the versions.
-/

namespace BundleDecl

open scoped List

namespace Version

variable {Error Item : Type} {fails : Error → Prop} {le : Item → Item → Prop}
  {compare : Comparison Error Item}

/-- The side from which a run is in order. -/
def Side.ofRun (falling : Bool) : Side :=
  if falling then finish else start

/-- The comparison with an earlier version tells the order of a run that is continued. -/
theorem Decides.continues {earlier later : Item}
    (decides : Decides fails le compare earlier later) :
    Meets fails (fun isBelow => (Side.ofRun isBelow).order le earlier later)
      (precedes compare later earlier) := by
  refine Meets.mono decides ?_
  rintro (_ | _) answer
  · exact answer
  · exact answer

/-- The versions that continue a run are in its order. -/
theorem continuation_meets [IsTrans Item le] {falling : Bool} {last : Item} {versions : List Item}
    (decided : (last :: versions).Pairwise (Decides fails le compare)) :
    Meets fails
      (fun count => (last :: versions.take count).Pairwise ((Side.ofRun falling).order le))
      (continuation compare falling last versions) := by
  induction versions generalizing last with
  | nil => exact List.pairwise_singleton _ _
  | cons next rest ih =>
      rcases List.pairwise_cons.1 decided with ⟨fromLast, restDecided⟩
      rw [continuation]
      refine (fromLast next List.mem_cons_self).continues.bind ?_
      intro isBelow answer
      split
      next continued =>
        subst continued
        refine (ih restDecided).bind ?_
        intro count sorted
        exact List.pairwise_cons.2 ⟨least_of_sorted sorted answer, sorted⟩
      next ended => exact List.pairwise_singleton _ _

/-- A first version and those that continue its run are in order, or in reverse order. -/
theorem runAfter_meets [IsTrans Item le] {first : Item} {versions : List Item}
    (decided : (first :: versions).Pairwise (Decides fails le compare)) :
    Meets fails (fun run => (first :: versions.take run.1).Pairwise ((Side.ofRun run.2).order le))
      (runAfter compare first versions) := by
  rcases versions with _ | ⟨second, rest⟩
  · exact List.pairwise_singleton _ _
  · rcases List.pairwise_cons.1 decided with ⟨fromFirst, restDecided⟩
    rw [runAfter]
    refine (fromFirst second List.mem_cons_self).continues.bind ?_
    intro falling answer
    refine (continuation_meets restDecided).bind ?_
    intro count sorted
    exact List.pairwise_cons.2 ⟨least_of_sorted sorted answer, sorted⟩

theorem insertSorted_meets [IsTrans Item le] {sorted : List Item} {version : Item}
    (isSorted : sorted.Pairwise le)
    (decides : ∀ item ∈ sorted, Decides fails le compare item version) :
    Meets fails (Merged le sorted [version]) (insertSorted compare sorted version) := by
  have divides := divides_of_sorted isSorted fun item member => (decides item member).negated
  rw [insertSorted]
  refine (divides.bisect_meets ⟨?_, fun position => failedAt_of_length_le _⟩).bind ?_
  · intro position below
    contradiction
  · intro place cut
    have rest := Merged.nil_right (isSorted.sublist (List.drop_sublist place sorted))
    have inserted := rest.take isSorted (List.pairwise_singleton _ version) cut
    rwa [List.append_assoc, List.singleton_append] at inserted

/-- Each of the added versions is put into its place among the ones before it. -/
theorem foldlM_insertSorted_meets [IsTrans Item le] {sorted added : List Item}
    (isSorted : sorted.Pairwise le)
    (decides : ∀ item ∈ sorted, ∀ other ∈ added, Decides fails le compare item other)
    (decided : added.Pairwise (Decides fails le compare)) :
    Meets fails (Merged le sorted added) (added.foldlM (insertSorted compare) sorted) := by
  induction added generalizing sorted with
  | nil => exact Merged.nil_right isSorted
  | cons version rest ih =>
      rcases List.pairwise_cons.1 decided with ⟨fromVersion, restDecided⟩
      have first : ∀ item ∈ sorted, Decides fails le compare item version := by
        intro item member
        exact decides item member version List.mem_cons_self
      refine (insertSorted_meets isSorted first).bind ?_
      intro inserted isInserted
      have following : ∀ item ∈ inserted, ∀ other ∈ rest, Decides fails le compare item other := by
        intro item member other otherMem
        rcases isInserted.mem_iff.1 member with old | new
        · exact decides item old other (List.mem_cons_of_mem _ otherMem)
        · rw [List.mem_singleton.1 new]
          exact fromVersion other otherMem
      refine (ih isInserted.sorted following restDecided).mono ?_
      intro result isMerged
      refine ⟨isMerged.perm.trans ?_, isMerged.sorted⟩
      calc
        inserted ++ rest ~ sorted ++ [version] ++ rest := isInserted.perm.append_right rest
        _ = sorted ++ version :: rest := List.append_assoc _ _ _

/-- A falling run is turned round. -/
theorem perm_sorted_of_run {falling : Bool} {run : List Item}
    (sorted : run.Pairwise ((Side.ofRun falling).order le)) :
    (if falling then run.reverse else run) ~ run ∧
      (if falling then run.reverse else run).Pairwise le := by
  cases falling with
  | false => exact ⟨.refl _, sorted⟩
  | true => exact ⟨run.reverse_perm, List.pairwise_reverse.2 sorted⟩

/-- Sorted runs that stand for some versions, the last one first; each run can be compared with the
ones before it. -/
structure Stands (fails : Error → Prop) (le : Item → Item → Prop) (compare : Comparison Error Item)
    (runs : List (List Item)) (versions : List Item) : Prop where
  sorted : ∀ run ∈ runs, run.Pairwise le
  decided : runs.Pairwise fun later earlier =>
    ∀ item ∈ earlier, ∀ other ∈ later, Decides fails le compare item other
  content : runs.flatten ~ versions

namespace Stands

variable {runs : List (List Item)} {versions : List Item}

theorem of_perm (stands : Stands fails le compare runs versions) {others : List Item}
    (perm : versions ~ others) : Stands fails le compare runs others :=
  ⟨stands.sorted, stands.decided, stands.content.trans perm⟩

theorem push (stands : Stands fails le compare runs versions) {items : List Item}
    (itemsSorted : items.Pairwise le)
    (decides : ∀ item ∈ versions, ∀ other ∈ items, Decides fails le compare item other) :
    Stands fails le compare (items :: runs) (versions ++ items) where
  sorted := List.forall_mem_cons.2 ⟨itemsSorted, stands.sorted⟩
  decided := by
    refine List.pairwise_cons.2 ⟨?_, stands.decided⟩
    intro run runMem item itemMem
    exact decides item (stands.content.mem_iff.1 (List.mem_flatten_of_mem runMem itemMem))
  content := (stands.content.append_left items).trans List.perm_append_comm

/-- Two neighbouring runs are replaced by one with their items. -/
theorem mergeRuns_meets [IsTrans Item le] (front : List (List Item)) {rest : List (List Item)}
    {last previous : List Item}
    (stands : Stands fails le compare (front ++ last :: previous :: rest) versions)
    (threshold : Nat) :
    Meets fails (fun result => Stands fails le compare (front ++ result.1 :: rest) versions)
      (mergeRuns compare threshold previous last) := by
  rcases stands with ⟨sorted, decided, content⟩
  rcases List.pairwise_append.1 decided with ⟨frontDecided, restDecided, fromFront⟩
  simp only [List.pairwise_cons, List.forall_mem_cons] at restDecided fromFront
  simp only [List.forall_mem_append, List.forall_mem_cons] at sorted
  rcases sorted with ⟨frontSorted, lastSorted, previousSorted, restSorted⟩
  refine (Version.mergeRuns_meets previousSorted lastSorted restDecided.1.1 threshold).mono ?_
  intro result isMerged
  refine ⟨?_, ?_, ?_⟩
  · simp only [List.forall_mem_append, List.forall_mem_cons]
    exact ⟨frontSorted, isMerged.sorted, restSorted⟩
  · refine List.pairwise_append.2 ⟨frontDecided, List.pairwise_cons.2 ⟨?_, restDecided.2.2⟩, ?_⟩
    · intro run runMem item itemMem other otherMem
      rcases isMerged.mem_iff.1 otherMem with inPrevious | inLast
      · exact restDecided.2.1 run runMem item itemMem other inPrevious
      · exact restDecided.1.2 run runMem item itemMem other inLast
    · intro later laterMem
      rcases fromFront later laterMem with ⟨toLast, toPrevious, toRest⟩
      refine List.forall_mem_cons.2 ⟨?_, toRest⟩
      intro item itemMem
      rcases isMerged.mem_iff.1 itemMem with inPrevious | inLast
      · exact toPrevious item inPrevious
      · exact toLast item inLast
  · calc
      (front ++ result.1 :: rest).flatten = front.flatten ++ (result.1 ++ rest.flatten) := by simp
      _ ~ front.flatten ++ (last ++ previous ++ rest.flatten) :=
        ((isMerged.symm.perm).append_right rest.flatten).append_left front.flatten
      _ = (front ++ last :: previous :: rest).flatten := by simp
      _ ~ versions := content

theorem single {run : List Item} (stands : Stands fails le compare [run] versions) :
    run ~ versions ∧ run.Pairwise le := by
  have content := stands.content
  rw [List.flatten_singleton] at content
  exact ⟨content, stands.sorted run List.mem_cons_self⟩

theorem mergeDeeper_meets [IsTrans Item le] {runs : List (Run Item)} {depth : Nat}
    (stands : Stands fails le compare (runs.map Run.items) versions) (threshold : Nat) :
    Meets fails (fun pending => Stands fails le compare (pending.runs.map Run.items) versions)
      (Pending.mergeDeeper compare depth threshold runs) := by
  induction threshold, runs using Pending.mergeDeeper.induct depth with
  | case1 threshold last previous rest deeper ih =>
      rw [Pending.mergeDeeper, if_pos deeper]
      refine (stands.mergeRuns_meets [] threshold).bind ?_
      rintro ⟨items, reached⟩ merged
      exact ih items reached merged
  | case2 threshold last previous rest notDeeper =>
      rw [Pending.mergeDeeper, if_neg notDeeper]
      exact stands
  | case3 threshold runs single =>
      rw [Pending.mergeDeeper]
      · exact stands
      · exact single

theorem mergeAll_meets [IsTrans Item le] {runs : List (Run Item)}
    (stands : Stands fails le compare (runs.map Run.items) versions) (threshold : Nat) :
    Meets fails (fun sorted => sorted ~ versions ∧ sorted.Pairwise le)
      (Pending.mergeAll compare threshold runs) := by
  induction threshold, runs using Pending.mergeAll.induct with
  | case1 threshold last second third rest shorter ih =>
      rw [Pending.mergeAll, if_pos shorter]
      refine (stands.mergeRuns_meets [last.items] threshold).bind ?_
      rintro ⟨items, reached⟩ merged
      exact ih items reached merged
  | case2 threshold last second third rest notShorter ih =>
      rw [Pending.mergeAll, if_neg notShorter]
      refine (stands.mergeRuns_meets [] threshold).bind ?_
      rintro ⟨items, reached⟩ merged
      exact ih items reached merged
  | case3 threshold last second =>
      rw [Pending.mergeAll]
      refine ((stands.mergeRuns_meets [] threshold).mono ?_).map
      intro result merged
      exact merged.single
  | case4 threshold run =>
      rw [Pending.mergeAll]
      exact stands.single
  | case5 threshold =>
      rw [Pending.mergeAll]
      exact ⟨stands.content, .nil⟩

theorem push_meets [IsTrans Item le] {pending : Pending Item}
    (stands : Stands fails le compare (pending.runs.map Run.items) versions) {items : List Item}
    (itemsSorted : items.Pairwise le)
    (decides : ∀ item ∈ versions, ∀ other ∈ items, Decides fails le compare item other)
    (total : Nat) :
    Meets fails (fun pushed =>
        Stands fails le compare (pushed.runs.map Run.items) (versions ++ items))
      (pending.push compare total items) := by
  rw [Pending.push]
  split
  next empty =>
    rw [empty] at stands
    exact stands.push itemsSorted decides
  next last others nonempty =>
    rw [nonempty] at stands
    refine (stands.mergeDeeper_meets pending.threshold).bind ?_
    intro merged mergedStands
    have pushed := mergedStands.push itemsSorted decides
    split
    next empty =>
      rw [empty] at pushed
      exact pushed
    next nonempty =>
      rw [nonempty] at pushed
      exact pushed

/-- The runs stand for the versions of a new run as well, once that is filled up with further
ones. -/
theorem extend_meets [IsTrans Item le] {pending : Pending Item} {run start added : List Item}
    (stands : Stands fails le compare (pending.runs.map Run.items) versions)
    (startPerm : start ~ run) (startSorted : start.Pairwise le)
    (decided : (versions ++ (run ++ added)).Pairwise (Decides fails le compare)) (total : Nat) :
    Meets fails (fun pushed =>
        Stands fails le compare (pushed.runs.map Run.items) (versions ++ (run ++ added)))
      (added.foldlM (insertSorted compare) start >>= (pending.push compare total ·)) := by
  rcases List.pairwise_append.1 decided with ⟨-, newDecided, fromVersions⟩
  rcases List.pairwise_append.1 newDecided with ⟨-, addedDecided, fromRun⟩
  have fromStart : ∀ item ∈ start, ∀ other ∈ added, Decides fails le compare item other := by
    intro item member
    exact fromRun item (startPerm.mem_iff.1 member)
  refine (foldlM_insertSorted_meets startSorted fromStart addedDecided).bind ?_
  intro items isMerged
  have perm : items ~ run ++ added := isMerged.perm.trans (startPerm.append_right added)
  have toItems : ∀ item ∈ versions, ∀ other ∈ items, Decides fails le compare item other := by
    intro item member other otherMem
    exact fromVersions item member other (perm.mem_iff.1 otherMem)
  refine (stands.push_meets isMerged.sorted toItems total).mono ?_
  intro pushed pushedStands
  exact pushedStands.of_perm (perm.append_left versions)

end Stands

/-- Run after run, all versions come to stand in the runs, and these are merged at last. -/
theorem sortRest_meets [IsTrans Item le] {total : Nat} {pending : Pending Item}
    {before versions : List Item}
    (stands : Stands fails le compare (pending.runs.map Run.items) before)
    (decided : (before ++ versions).Pairwise (Decides fails le compare)) :
    Meets fails (fun sorted => sorted ~ before ++ versions ∧ sorted.Pairwise le)
      (sortRest compare total pending versions) := by
  induction pending, versions using sortRest.induct total generalizing before with
  | case1 pending =>
      rw [sortRest, List.append_nil]
      exact stands.mergeAll_meets pending.threshold
  | case2 pending first rest ih =>
      rw [sortRest]
      refine (runAfter_meets (List.pairwise_append.1 decided).2.1).bind ?_
      rintro ⟨count, falling⟩ runSorted
      rcases perm_sorted_of_run runSorted with ⟨startPerm, startSorted⟩
      have following := ih count falling
      simp only [dite_eq_ite] at following ⊢
      generalize leastRun total - _ = missing at following ⊢
      have parts : before ++ first :: rest = before ++ (first :: rest.take count ++
          (rest.drop count).take missing) ++ (rest.drop count).drop missing := by
        simp
      rw [parts] at decided ⊢
      rw [← bind_assoc]
      refine (stands.extend_meets startPerm startSorted (List.pairwise_append.1 decided).1
        total).bind ?_
      intro pushed pushedStands
      exact following pushed pushedStands decided

/-- The versions come out in any transitive order that the comparisons of versions with earlier ones
tell of, or sorting fails like one of these comparisons. -/
theorem sort_meets [IsTrans Item le] {versions : List Item}
    (decided : versions.Pairwise (Decides fails le compare)) :
    Meets fails (fun sorted => sorted ~ versions ∧ sorted.Pairwise le) (sort compare versions) := by
  have stands : Stands fails le compare [] ([] : List Item) := ⟨by simp, .nil, .refl _⟩
  have all : ([] ++ versions).Pairwise (Decides fails le compare) := decided
  exact sortRest_meets stands all

/-- The error of the comparison of one of some versions with an earlier one. -/
def IsComparisonError (compare : Comparison Error Item) (versions : List Item) (error : Error) :
    Prop :=
  ∃ earlier later, [earlier, later] <+ versions ∧ compare later earlier = .error error

/-- Every comparison tells what holds of all versions anyway. -/
theorem pairwise_decides (compare : Comparison Error Item) (versions : List Item) :
    versions.Pairwise
      (Decides (IsComparisonError compare versions) (fun _ _ => True) compare) := by
  refine List.pairwise_iff_forall_sublist.2 ?_
  intro earlier later sublist
  rw [Decides, precedes]
  cases compared : compare later earlier with
  | error error => exact ⟨earlier, later, sublist, compared⟩
  | ok order => simp [Meets, bind, Except.bind, pure, Except.pure]

/-- Whatever a comparison answers, no version is lost, and sorting fails only as the comparison of a
version with an earlier one does. -/
theorem sort_meets_perm (compare : Comparison Error Item) (versions : List Item) :
    Meets (IsComparisonError compare versions) (· ~ versions) (sort compare versions) := by
  have : IsTrans Item fun _ _ => True := ⟨fun _ _ _ _ _ => trivial⟩
  exact (sort_meets (pairwise_decides compare versions)).mono fun sorted meets => meets.1

theorem perm_of_sort_eq_ok {versions sorted : List Item}
    (isSorted : sort compare versions = .ok sorted) : sorted ~ versions := by
  have meets := sort_meets_perm compare versions
  rwa [isSorted] at meets

theorem isComparisonError_of_sort_eq_error {versions : List Item} {error : Error}
    (refused : sort compare versions = .error error) :
    IsComparisonError compare versions error := by
  have meets := sort_meets_perm compare versions
  rwa [refused] at meets

/-- The order of versions by their numbers. -/
def NumbersLe (left right : Text) : Prop :=
  numbers left ≤ numbers right

instance : IsTrans Text NumbersLe where
  trans := by
    intro first second third before behind
    exact le_trans (show numbers first ≤ numbers second from before) behind

theorem decides_of_isNumeric {earlier later : Text} (earlierNumeric : IsNumeric earlier)
    (laterNumeric : IsNumeric later) :
    Decides (fun _ => False) NumbersLe compareNumbers earlier later := by
  have below : precedes compareNumbers later earlier =
      .ok (Ord.compare (numbers later) (numbers earlier) == .lt) := by
    rw [precedes, laterNumeric.compareNumbers earlierNumeric]
    rfl
  rw [Decides, below, Meets]
  split
  next isBelow => exact le_of_lt (compare_eq_lt_iff.1 (beq_iff_eq.1 isBelow))
  next notBelow =>
    rw [beq_iff_eq, compare_eq_lt_iff] at notBelow
    exact not_lt.1 notBelow

/-- Versions that consist of numbers are sorted by these. -/
theorem exists_sort_eq_ok {versions : List Text}
    (numeric : ∀ version ∈ versions, IsNumeric version) :
    ∃ sorted, sort compareNumbers versions = .ok sorted ∧ sorted ~ versions ∧
      sorted.Pairwise AtMost := by
  have decided : versions.Pairwise (Decides (fun _ => False) NumbersLe compareNumbers) := by
    refine List.pairwise_of_forall_mem_list ?_
    intro earlier earlierMem later laterMem
    exact decides_of_isNumeric (numeric earlier earlierMem) (numeric later laterMem)
  have meets := sort_meets decided
  cases result : sort compareNumbers versions with
  | error error =>
      rw [result] at meets
      contradiction
  | ok sorted =>
      rw [result] at meets
      rcases meets with ⟨perm, isSorted⟩
      refine ⟨sorted, rfl, perm, isSorted.imp_of_mem ?_⟩
      intro left right leftMem rightMem atMost
      exact ((numeric left (perm.mem_iff.1 leftMem)).atMost_iff
        (numeric right (perm.mem_iff.1 rightMem))).2 atMost

/-- Valid version numbers are sorted into the same list, whatever order they come in. -/
theorem sort_compareNumbers_eq_of_perm {versions others : List Text} (perm : versions ~ others)
    (valid : ∀ version ∈ versions, isValid version = true) :
    sort compareNumbers versions = sort compareNumbers others := by
  have othersValid : ∀ version ∈ others, isValid version = true := by
    intro version member
    exact valid version (perm.mem_iff.2 member)
  rcases exists_sort_eq_ok fun version member => isNumeric_of_isValid (valid version member) with
    ⟨sorted, result, sortedPerm, isSorted⟩
  rcases exists_sort_eq_ok fun version member =>
    isNumeric_of_isValid (othersValid version member) with
    ⟨othersSorted, othersResult, othersPerm, othersIsSorted⟩
  have same : sorted = othersSorted := by
    refine List.Perm.eq_of_pairwise ?_ isSorted othersIsSorted
      (sortedPerm.trans (perm.trans othersPerm.symm))
    intro left right leftMem rightMem leftLe rightLe
    have leftValid := valid left (sortedPerm.mem_iff.1 leftMem)
    have rightValid := othersValid right (othersPerm.mem_iff.1 rightMem)
    have leftNumeric := isNumeric_of_isValid leftValid
    have rightNumeric := isNumeric_of_isValid rightValid
    exact numbers_inj leftValid rightValid (le_antisymm
      ((leftNumeric.atMost_iff rightNumeric).1 leftLe)
      ((rightNumeric.atMost_iff leftNumeric).1 rightLe))
  rw [result, othersResult, same]

end Version

end BundleDecl
