import BundleDecl.Version.Sort.Search
import Mathlib.Data.List.Basic

/-!
# What a search among sorted items finds

A search asks a test that may fail. It either fails as the test does, or it finds a place such that
all items before it have the property of the items that pass the test, and all items from it on the
property of those that do not. Each search narrows the distance in which the place lies; what it
knows on both sides of that distance is the invariant.
-/

namespace BundleDecl

/-- A result that has a property, or one of the admitted failures. -/
def Meets {Error Value : Type} (fails : Error → Prop) (property : Value → Prop) :
    Except Error Value → Prop
  | .ok value => property value
  | .error error => fails error

namespace Meets

variable {Error Value Other : Type} {fails : Error → Prop} {property more : Value → Prop}
  {result : Except Error Value}

theorem mono (meets : Meets fails property result)
    (implies : ∀ value, property value → more value) :
    Meets fails more result := by
  cases result with
  | error error => exact meets
  | ok value => exact implies value meets

theorem bind {following : Other → Prop} {next : Value → Except Error Other}
    (meets : Meets fails property result)
    (continues : ∀ value, property value → Meets fails following (next value)) :
    Meets fails following (result >>= next) := by
  cases result with
  | error error => exact meets
  | ok value => exact continues value meets

theorem map {following : Other → Prop} {transform : Value → Other}
    (meets : Meets fails (fun value => following (transform value)) result) :
    Meets fails following (transform <$> result) := by
  cases result with
  | error error => exact meets
  | ok value => exact meets

end Meets

namespace Version

variable {Error Item : Type} {fails : Error → Prop}

/-- The positions before one position have one property, and those from another one on a second
property. -/
structure Bounds (passed failed : Nat → Prop) (low high : Nat) : Prop where
  before : ∀ position < low, passed position
  behind : ∀ position, high ≤ position → failed position

/-- A test of positions: what is known where it is passed holds at all positions before as well, and
what is known where it is not passed holds at all positions behind as well. -/
structure MonotoneTest (fails : Error → Prop) (passed failed : Nat → Prop) (test : Test Error Nat) :
    Prop where
  answers : ∀ position,
    Meets fails (fun answer => if answer then passed position else failed position) (test position)
  passed_of_le : ∀ {low high}, low ≤ high → passed high → passed low
  failed_of_le : ∀ {low high}, low ≤ high → failed low → failed high

namespace MonotoneTest

variable {passed failed : Nat → Prop} {test : Test Error Nat}

/-- Halving keeps the bounds until they meet. -/
theorem bisect_meets (monotone : MonotoneTest fails passed failed test) {low high : Nat}
    (bounds : Bounds passed failed low high) :
    Meets fails (fun place => Bounds passed failed place place) (bisect test low high) := by
  induction low, high using bisect.induct with
  | case1 low high below middle ihAbove ihBelow =>
      rw [bisect, if_pos below]
      refine (monotone.answers middle).bind ?_
      rintro (_ | _) answer
      · refine ihBelow ⟨bounds.before, ?_⟩
        intro position atLeast
        exact monotone.failed_of_le atLeast answer
      · refine ihAbove ⟨?_, bounds.behind⟩
        intro position isBelow
        exact monotone.passed_of_le (Nat.le_of_lt_succ isBelow) answer
  | case2 low high notBelow =>
      rw [bisect, if_neg notBelow]
      refine ⟨bounds.before, ?_⟩
      intro position atLeast
      exact bounds.behind position (by omega)

theorem stride_meets (monotone : MonotoneTest fails passed failed test) {limit near next : Nat}
    (nearPassed : passed near) (limitFailed : failed limit) :
    Meets fails (fun reached => passed reached.1 ∧ failed reached.2)
      (stride test limit near next) := by
  induction near, next using stride.induct limit with
  | case1 near next below ih =>
      rw [stride, if_pos below]
      refine (monotone.answers next).bind ?_
      rintro (_ | _) answer
      · exact ⟨nearPassed, answer⟩
      · exact ih answer
  | case2 near next notBelow =>
      rw [stride, if_neg notBelow]
      exact ⟨nearPassed, limitFailed⟩

/-- The test of the distances from the last of some positions, which are passed where the positions
are not. -/
theorem fromEnd (monotone : MonotoneTest fails passed failed test) (count : Nat) :
    MonotoneTest fails (fun distance => failed (count - 1 - distance))
      (fun distance => ∀ position, position + distance < count → passed position)
      (fun distance => return !(← test (count - 1 - distance))) where
  answers := by
    intro distance
    refine (monotone.answers (count - 1 - distance)).bind ?_
    rintro (_ | _) answer
    · exact answer
    · intro position inside
      exact monotone.passed_of_le (by omega) answer
  passed_of_le := by
    intro low high atMost failedHigh
    exact monotone.failed_of_le (by omega) failedHigh
  failed_of_le := by
    intro low high atMost passedLow position inside
    exact passedLow position (by omega)

end MonotoneTest

/-- There is an item at a position, and it has the property of those that pass a test. -/
def PassedAt (passing : Item → Prop) (items : List Item) (position : Nat) : Prop :=
  ∃ item, items[position]? = some item ∧ passing item

/-- If there is an item at a position, it has the property of those that do not pass a test. -/
def FailedAt (failing : Item → Prop) (items : List Item) (position : Nat) : Prop :=
  ∀ item, items[position]? = some item → failing item

theorem failedAt_of_length_le (failing : Item → Prop) {items : List Item} {position : Nat}
    (atLeast : items.length ≤ position) : FailedAt failing items position := by
  intro item found
  rw [List.getElem?_eq_none atLeast] at found
  contradiction

/-- The items before a place have one property, and those from it on another one. -/
structure Cut (passing failing : Item → Prop) (items : List Item) (place : Nat) : Prop where
  before : ∀ item ∈ items.take place, passing item
  behind : ∀ item ∈ items.drop place, failing item

/-- A cut of items in reverse order, seen from the other end. -/
theorem Cut.of_reverse {passing failing : Item → Prop} {items : List Item} {place : Nat}
    (cut : Cut failing passing items.reverse place) :
    Cut passing failing items (items.length - place) := by
  rcases cut with ⟨before, behind⟩
  rw [List.take_reverse] at before
  rw [List.drop_reverse] at behind
  simp only [List.mem_reverse] at before behind
  exact ⟨behind, before⟩

/-- A test of items in order: what is known of an item that passes it holds of all items before that
one as well, and what is known of an item that does not pass it of all items behind. -/
structure DividingTest (fails : Error → Prop) (passing failing : Item → Prop)
    (test : Test Error Item) (items : List Item) : Prop where
  answers : ∀ item ∈ items,
    Meets fails (fun answer => if answer then passing item else failing item) (test item)
  passing_before : items.Pairwise fun left right => passing right → passing left
  failing_behind : items.Pairwise fun left right => failing left → failing right

namespace DividingTest

variable {passing failing : Item → Prop} {test : Test Error Item} {items : List Item}

theorem reverse (divides : DividingTest fails passing failing test items) :
    DividingTest fails failing passing (fun item => return !(← test item)) items.reverse where
  answers := by
    intro item member
    refine (divides.answers item (List.mem_reverse.1 member)).bind ?_
    rintro (_ | _) answer
    · exact answer
    · exact answer
  passing_before := List.pairwise_reverse.2 divides.failing_behind
  failing_behind := List.pairwise_reverse.2 divides.passing_before

/-- Past the last item a test is not passed, and nothing needs to be known. -/
theorem monotone (divides : DividingTest fails passing failing test items) :
    MonotoneTest fails (PassedAt passing items) (FailedAt failing items) (testAt test items) where
  answers := by
    intro position
    rw [testAt]
    split
    next item found =>
      refine (divides.answers item (List.mem_of_getElem? found)).mono ?_
      rintro (_ | _) answer
      · simpa [FailedAt, found] using answer
      · exact ⟨item, found, answer⟩
    next missing => simp [Meets, FailedAt, missing]
  passed_of_le := by
    rintro low high atMost ⟨item, found, passed⟩
    rcases Nat.lt_or_eq_of_le atMost with below | rfl
    · rcases List.getElem?_eq_some_iff.1 found with ⟨inside, rfl⟩
      have order := List.pairwise_iff_getElem.1 divides.passing_before low high (by omega) inside
      exact ⟨_, List.getElem?_eq_getElem (by omega), order below passed⟩
    · exact ⟨item, found, passed⟩
  failed_of_le := by
    intro low high atMost failed item found
    rcases Nat.lt_or_eq_of_le atMost with below | rfl
    · rcases List.getElem?_eq_some_iff.1 found with ⟨inside, rfl⟩
      have order := List.pairwise_iff_getElem.1 divides.failing_behind low high (by omega) inside
      exact order below (failed _ (List.getElem?_eq_getElem (by omega)))
    · exact failed item found

end DividingTest

theorem Bounds.cut {passing failing : Item → Prop} {items : List Item} {place : Nat}
    (bounds : Bounds (PassedAt passing items) (FailedAt failing items) place place) :
    Cut passing failing items place where
  before := by
    intro item member
    rcases List.mem_take_iff_getElem.1 member with ⟨position, inside, rfl⟩
    rcases bounds.before position (by omega) with ⟨item, found, passed⟩
    rw [List.getElem?_eq_getElem (by omega), Option.some.injEq] at found
    rwa [found]
  behind := by
    intro item member
    rcases List.getElem?_of_mem member with ⟨position, found⟩
    rw [List.getElem?_drop] at found
    exact bounds.behind (place + position) (by omega) item found

namespace DividingTest

variable {passing failing : Item → Prop} {test : Test Error Item} {items : List Item}

theorem bisect_meets (divides : DividingTest fails passing failing test items) {low high : Nat}
    (bounds : Bounds (PassedAt passing items) (FailedAt failing items) low high) :
    Meets fails (Cut passing failing items) (bisect (testAt test items) low high) :=
  (divides.monotone.bisect_meets bounds).mono fun _ => Bounds.cut

/-- The search from the finish asks for the distances from the last item, and a distance that is not
passed bounds the place from below. -/
theorem gallop_meets (divides : DividingTest fails passing failing test items) (side : Side) :
    Meets fails (Cut passing failing items) (gallop side test items) := by
  have monotone := divides.monotone
  cases side with
  | start =>
      refine (monotone.answers 0).bind ?_
      rintro (_ | _) answer
      · refine Bounds.cut ⟨?_, fun position _ => monotone.failed_of_le position.zero_le answer⟩
        intro position below
        contradiction
      · have limit := failedAt_of_length_le failing (Nat.le_refl items.length)
        refine (monotone.stride_meets answer limit).bind ?_
        rintro ⟨near, far⟩ ⟨nearPassed, farFailed⟩
        refine divides.bisect_meets ⟨?_, fun position atLeast =>
          monotone.failed_of_le atLeast farFailed⟩
        intro position below
        exact monotone.passed_of_le (Nat.le_of_lt_succ below) nearPassed
  | finish =>
      refine (monotone.answers (items.length - 1)).bind ?_
      rintro (_ | _) answer
      · have lastFailed : FailedAt failing items (items.length - 1 - 0) := answer
        have limit : ∀ position, position + items.length < items.length →
            PassedAt passing items position := by
          intro position beyond
          omega
        refine ((monotone.fromEnd items.length).stride_meets lastFailed limit).bind ?_
        rintro ⟨near, far⟩ ⟨nearFailed, farPassed⟩
        refine divides.bisect_meets ⟨?_, fun position atLeast =>
          monotone.failed_of_le atLeast nearFailed⟩
        intro position below
        exact farPassed position (by omega)
      · refine Bounds.cut ⟨?_, fun position => failedAt_of_length_le failing⟩
        intro position below
        exact monotone.passed_of_le (Nat.le_sub_one_of_lt below) answer

end DividingTest

end Version

end BundleDecl
