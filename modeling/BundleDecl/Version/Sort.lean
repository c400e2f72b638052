import BundleDecl.Version.Sort.Merge

/-!
# Sorting versions

Versions are sorted stably by a comparison that may fail. The versions are cut into runs that are
already in order, or strictly in reverse order; a short run is filled up with the versions that
follow it, each put into its place by halving. Neighbouring runs are merged as soon as their common
middle lies deeper than that of the next ones when the whole is halved again and again.

If several versions are malformed, the one that is reported depends on which versions are compared
first. So the order of comparisons is part of what is defined here, and no other way of sorting
would do in its place.
-/

namespace BundleDecl

namespace Version

variable {Error Item : Type}

/-- The number of versions that continue a run of rising, or of strictly falling, versions. -/
def continuation (compare : Comparison Error Item) (falling : Bool) (last : Item) :
    List Item → Except Error Nat
  | [] => .ok 0
  | next :: rest => do
    if (← precedes compare next last) = falling then
      return (← continuation compare falling next rest) + 1
    else
      return 0

/-- The number of versions that continue the run of a first one, and whether they are falling. -/
def runAfter (compare : Comparison Error Item) (first : Item) :
    List Item → Except Error (Nat × Bool)
  | [] => .ok (0, false)
  | second :: rest => do
    let falling ← precedes compare second first
    return ((← continuation compare falling second rest) + 1, falling)

/-- Puts a version into its place among sorted ones, after those that it equals. -/
def insertSorted (compare : Comparison Error Item) (sorted : List Item) (version : Item) :
    Except Error (List Item) := do
  let isBefore (item : Item) : Except Error Bool := return !(← precedes compare version item)
  let place ← bisect (testAt isBefore sorted) 0 sorted.length
  return sorted.take place ++ version :: sorted.drop place

/-- The least length of the runs of so many versions, unless the last one falls short. -/
def leastRun (count : Nat) : Nat :=
  if count < 64 then
    count
  else
    let shift := Nat.log2 count - 5
    let quotient := count / Nat.pow 2 shift
    if count % Nat.pow 2 shift = 0 then quotient else quotient + 1

/-- A sorted run. -/
structure Run (Item : Type) where
  /-- The versions in order. -/
  items : List Item
  /-- How deep the middle between this run and the one after it lies. -/
  depth : Nat

/-- The runs that are to be merged, the last one first, and what merging has led to. -/
structure Pending (Item : Type) where
  runs : List (Run Item)
  /-- The number of items in a row after which a merge takes many at a time. -/
  threshold : Nat

namespace Pending

/-- The depth of the middle between two runs of the given lengths, the left of which has a start. -/
def depthBetween (total start left right : Nat) : Nat :=
  let middle := 2 * start + left
  let next := middle + left + right
  ((List.range (Nat.log2 total + 2)).find? fun depth =>
    middle * Nat.pow 2 depth / total < next * Nat.pow 2 depth / total).getD 0

/-- Merges the last runs as long as the middle between them lies deeper than a new one. -/
def mergeDeeper (compare : Comparison Error Item) (depth : Nat) (threshold : Nat) :
    List (Run Item) → Except Error (Pending Item)
  | last :: previous :: rest =>
    if depth < previous.depth then do
      let (items, reached) ← mergeRuns compare threshold previous.items last.items
      mergeDeeper compare depth reached (⟨items, previous.depth⟩ :: rest)
    else
      .ok ⟨last :: previous :: rest, threshold⟩
  | runs => .ok ⟨runs, threshold⟩
termination_by runs => runs.length

/-- The runs with one more of them, in a whole of so many versions. -/
def push (compare : Comparison Error Item) (total : Nat) (items : List Item)
    (pending : Pending Item) : Except Error (Pending Item) := do
  match pending.runs with
  | [] => return ⟨[⟨items, 0⟩], pending.threshold⟩
  | last :: others =>
    let start := others.foldl (fun start run => start + run.items.length) 0
    let depth := depthBetween total start last.items.length items.length
    let merged ← mergeDeeper compare depth pending.threshold (last :: others)
    match merged.runs with
    | [] => return ⟨[⟨items, 0⟩], merged.threshold⟩
    | last :: others =>
      return ⟨⟨items, 0⟩ :: ⟨last.items, depth⟩ :: others, merged.threshold⟩

/-- The versions of all runs in order. -/
def mergeAll (compare : Comparison Error Item) (threshold : Nat) :
    List (Run Item) → Except Error (List Item)
  | last :: second :: third :: rest =>
    if third.items.length < last.items.length then do
      let (items, reached) ← mergeRuns compare threshold third.items second.items
      mergeAll compare reached (last :: ⟨items, third.depth⟩ :: rest)
    else do
      let (items, reached) ← mergeRuns compare threshold second.items last.items
      mergeAll compare reached (⟨items, second.depth⟩ :: third :: rest)
  | [last, second] => Prod.fst <$> mergeRuns compare threshold second.items last.items
  | [run] => .ok run.items
  | [] => .ok []
termination_by runs => runs.length

end Pending

/-- The versions of some runs and of the remaining ones, out of so many, in order. -/
def sortRest (compare : Comparison Error Item) (total : Nat) (pending : Pending Item) :
    List Item → Except Error (List Item)
  | [] => Pending.mergeAll compare pending.threshold pending.runs
  | first :: rest => do
    let (count, falling) ← runAfter compare first rest
    let run := first :: rest.take count
    let start := if falling then run.reverse else run
    let missing := leastRun total - start.length
    let items ← ((rest.drop count).take missing).foldlM (insertSorted compare) start
    sortRest compare total (← pending.push compare total items) ((rest.drop count).drop missing)
termination_by versions => versions.length
decreasing_by simp only [List.length_drop, List.length_cons]; omega

/-- The versions in increasing order. -/
def sort (compare : Comparison Error Item) (versions : List Item) : Except Error (List Item) :=
  sortRest compare versions.length ⟨[], Pace.worthwhile⟩ versions

end Version

end BundleDecl
