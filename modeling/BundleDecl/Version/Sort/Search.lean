/-!
# Searching among sorted items

The items before the place of an item pass a test, and those after it do not. The place is found by
halving the distance in which it must lie. If it is likely to be near one end, that distance is
found first, by asking farther and farther away from the end.
-/

namespace BundleDecl

namespace Version

variable {Error Item : Type}

/-- A test that may fail. -/
abbrev Test (Error Item : Type) := Item → Except Error Bool

/-- The test of the item at a position; past the last item it is not passed. -/
def testAt (test : Test Error Item) (items : List Item) (position : Nat) : Except Error Bool :=
  match items[position]? with
  | some item => test item
  | none => .ok false

/-- The first position between two ones that does not pass a test. -/
def bisect (test : Test Error Nat) (low high : Nat) : Except Error Nat :=
  if low < high then do
    let middle := low + (high - low) / 2
    if ← test middle then bisect test (middle + 1) high else bisect test low middle
  else
    .ok low
termination_by high - low

/--
The last distance that passed a test, and the first one that did not or else the limit. Every
distance is one more than twice the distance before it.
-/
def stride (test : Test Error Nat) (limit passed next : Nat) : Except Error (Nat × Nat) :=
  if next < limit then do
    if ← test next then stride test limit next (2 * next + 1) else return (passed, next)
  else
    .ok (passed, limit)
termination_by limit - next

/-- An end of a sequence. -/
inductive Side where
  /-- The end where it starts. -/
  | start
  /-- The end where it stops. -/
  | finish
  deriving DecidableEq, Repr

/-- The number of the items that pass a test, looked for from one end. -/
def gallop (side : Side) (test : Test Error Item) (items : List Item) : Except Error Nat := do
  let passes := testAt test items
  let last := items.length - 1
  match side with
  | .start =>
    if ← passes 0 then
      let (near, far) ← stride passes items.length 0 1
      bisect passes (near + 1) far
    else
      return 0
  | .finish =>
    if ← passes last then
      return items.length
    else
      let (near, far) ← stride (fun distance => return !(← passes (last - distance)))
        items.length 0 1
      bisect passes (items.length - far) (last - near)

end Version

end BundleDecl
