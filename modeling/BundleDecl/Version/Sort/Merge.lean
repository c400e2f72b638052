import BundleDecl.Version.Sort.Search

/-!
# Merging sorted runs

Two neighbouring runs are merged into one. What lies before or behind the overlap of the runs stays
in its place; the rest is taken item by item, from the start if the left run is the shorter one and
else from the finish. Once a run has delivered many items in a row, as many items as possible are
taken at a time. How many are many depends on how well that paid off in earlier merges.

In the definitions the runs stand in the order in which their items are taken.
-/

namespace BundleDecl

namespace Version

variable {Error Item : Type}

/-- A comparison that may fail. -/
abbrev Comparison (Error Item : Type) := Item → Item → Except Error Ordering

/-- Whether one version comes strictly before another one. -/
def precedes (compare : Comparison Error Item) (left right : Item) : Except Error Bool := do
  return (← compare left right) == .lt

/-- How items are taken next. -/
inductive Phase where
  /-- One item, after so many items in a row from the left and from the right run. -/
  | single (leftStreak rightStreak : Nat)
  /-- Many items from the left run, and then one from the right run. -/
  | manyLeft
  /-- Many items from the right run, after so many from the left one, and then one from there. -/
  | manyRight (leftCount : Nat)
  deriving DecidableEq, Repr

/-- How items are taken next, and the number of items in a row that counts as many. -/
structure Pace where
  /-- How items are taken next. -/
  phase : Phase
  /-- The number of items in a row after which many are taken at a time. -/
  threshold : Nat
  deriving DecidableEq, Repr

namespace Pace

/-- The number of items in a row that counts as many at first, and that is worth the search. -/
def worthwhile : Nat := 7

/-- The pace at the beginning of a merge. -/
def initial (threshold : Nat) : Pace :=
  ⟨.single 0 0, threshold⟩

/-- The pace after one item was taken from the left run. -/
def afterLeft (threshold leftStreak : Nat) : Pace :=
  if threshold ≤ leftStreak + 1 then ⟨.manyLeft, threshold⟩
  else ⟨.single (leftStreak + 1) 0, threshold⟩

/-- The pace after one item was taken from the right run. -/
def afterRight (threshold rightStreak : Nat) : Pace :=
  if threshold ≤ rightStreak + 1 then ⟨.manyLeft, threshold⟩
  else ⟨.single 0 (rightStreak + 1), threshold⟩

/-- The pace after the given numbers of items were taken at a time. -/
def afterMany (threshold leftCount rightCount : Nat) : Pace :=
  if worthwhile ≤ leftCount ∨ worthwhile ≤ rightCount then
    ⟨.manyLeft, if 1 < threshold then threshold - 1 else threshold⟩
  else
    .initial (threshold + 1)

end Pace

namespace Side

/-- The number of items at the beginning of a run that pass a test; the others do not. -/
def countTaken (side : Side) (test : Test Error Item) (run : List Item) : Except Error Nat :=
  match side with
  | start => gallop start test run
  | finish => do
    return run.length - (← gallop finish (fun item => return !(← test item)) run.reverse)

/-- Whether an item of the left run is taken before one of the right run. -/
def takesLeft (side : Side) (compare : Comparison Error Item) (left right : Item) :
    Except Error Bool := do
  let isBelow ← precedes compare right left
  return match side with
    | start => !isBelow
    | finish => isBelow

/-- Whether an item of the right run is taken before one of the left run. -/
def takesRight (side : Side) (compare : Comparison Error Item) (left right : Item) :
    Except Error Bool := do
  return !(← side.takesLeft compare left right)

/--
What is left of two runs in order, if nothing needs to be compared any more: the last item of the
run that reaches beyond the other one is taken last.
-/
def settled? (side : Side) (left right : List Item) : Option (List Item) :=
  match side with
  | start => if left.length ≤ 1 ∨ right = [] then some (right ++ left) else none
  | finish => if left = [] ∨ right.length ≤ 1 then some (left ++ right) else none

end Side

/-- Puts items before those of a merge. -/
def putBefore (items : List Item) (merged : List Item × Nat) : List Item × Nat :=
  (items ++ merged.1, merged.2)

/--
The items of two runs in order, and the threshold of the last pace that was used, which is the given
one if nothing needs to be compared.
-/
def mergeRest (compare : Comparison Error Item) (side : Side) (threshold : Nat) (pace : Pace) :
    List Item → List Item → Except Error (List Item × Nat)
  | first :: left, second :: right =>
    match side.settled? (first :: left) (second :: right) with
    | some items => .ok (items, threshold)
    | none =>
      let reached := pace.threshold
      match pace.phase with
      | .single leftStreak rightStreak => do
        if ← side.takesLeft compare first second then
          putBefore [first] <$>
            mergeRest compare side reached (.afterLeft reached leftStreak) left (second :: right)
        else
          putBefore [second] <$>
            mergeRest compare side reached (.afterRight reached rightStreak) (first :: left) right
      | .manyLeft => do
        let count ← side.countTaken (side.takesLeft compare · second) (first :: left)
        putBefore ((first :: left).take count ++ [second]) <$>
          mergeRest compare side reached ⟨.manyRight count, reached⟩
            ((first :: left).drop count) right
      | .manyRight leftCount => do
        let count ← side.countTaken (side.takesRight compare first ·) (second :: right)
        putBefore ((second :: right).take count ++ [first]) <$>
          mergeRest compare side reached (.afterMany reached leftCount count)
            left ((second :: right).drop count)
  | left, right => .ok (((side.settled? left right).getD []), threshold)
termination_by left right => left.length + right.length
decreasing_by
  all_goals simp only [List.length_cons, List.length_drop]; omega

/--
The merged items of two runs that overlap entirely: the first item of the right run is the least
one, and the last item of the left run is the greatest one.
-/
def mergeOverlap (compare : Comparison Error Item) (threshold : Nat) (left right : List Item) :
    Except Error (List Item × Nat) :=
  if left.length ≤ right.length then
    putBefore (right.take 1) <$>
      mergeRest compare .start threshold (.initial threshold) left (right.drop 1)
  else do
    let (items, reached) ← mergeRest compare .finish threshold (.initial threshold)
      (left.reverse.drop 1) right.reverse
    return (items.reverse ++ left.reverse.take 1, reached)

/-- The merged items of two sorted runs that follow each other, and the threshold from then on. -/
def mergeRuns (compare : Comparison Error Item) (threshold : Nat) (left right : List Item) :
    Except Error (List Item × Nat) := do
  let some first := right.head? | return (left, threshold)
  let before ← gallop .start (fun item => return !(← precedes compare first item)) left
  let some last := (left.drop before).getLast? | return (left ++ right, threshold)
  let count ← gallop .finish (fun item => precedes compare item last) right
  if count = 0 then
    return (left ++ right, threshold)
  else
    let (items, reached) ←
      mergeOverlap compare threshold (left.drop before) (right.take count)
    return (left.take before ++ items ++ right.drop count, reached)

end Version

end BundleDecl
