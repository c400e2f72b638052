import BundleDecl.SortedSet
import BundleDecl.Text.Quoted
import BundleDecl.Version

/-!
# Version ranges

A range says which versions are acceptable. Simple ranges have one or two bounds; a union includes
what some member includes, an intersection what all members include. The members of a union or an
intersection form a set: they are listed in the order of their texts, each once, so that equal sets
of members make equal ranges.
-/

namespace BundleDecl

/-- A version range. -/
inductive Range where
  /-- A version and every version that continues it. -/
  | base (version : Text)
  /-- One version. -/
  | exact (version : Text)
  /-- All versions from a version on. -/
  | minimum (version : Text)
  /-- All versions up to a version. -/
  | maximum (version : Text)
  /-- The versions between two versions, each bound included or not. -/
  | bounded (left right : Text) (leftIncluded rightIncluded : Bool)
  /-- No version at all. -/
  | unsatisfiable
  /-- The versions that some member includes. -/
  | union (members : List Range)
  /-- The versions that all members include. -/
  | intersection (members : List Range)
  deriving Repr

namespace Range

mutual

def toText : Range → Text
  | base version => version
  | exact version => "[" ++ version ++ "]"
  | minimum version => "[" ++ version ++ ")"
  | maximum version => "(" ++ version ++ "]"
  | bounded left right leftIncluded rightIncluded =>
    (if leftIncluded then "[" else "(") ++ left ++ ", " ++ right ++
      (if rightIncluded then "]" else ")")
  | unsatisfiable => "\x7b\x7d"
  | union members => "\x7b" ++ Text.joinWith " | " (memberTexts members) ++ "\x7d"
  | intersection members => Text.joinWith " & " (memberTexts members)

def memberTexts : List Range → List Text
  | [] => []
  | member :: members => toText member :: memberTexts members

end

mutual

/--
A code of a range as a sequence of numbers. No code is the beginning of another one, so that a code
and whatever follows it determine the range.
-/
def code : Range → List Nat
  | base version => 0 :: textCode version
  | exact version => 1 :: textCode version
  | minimum version => 2 :: textCode version
  | maximum version => 3 :: textCode version
  | bounded left right leftIncluded rightIncluded =>
    4 :: leftIncluded.toNat :: rightIncluded.toNat :: (textCode left ++ textCode right)
  | unsatisfiable => [5]
  | union members => 6 :: members.length :: memberCodes members
  | intersection members => 7 :: members.length :: memberCodes members

/-- The code of a text: its length and its code points. -/
def textCode (text : Text) : List Nat :=
  text.length :: text.map Char.toNat

/-- The codes of the members of a range one after the other. -/
def memberCodes : List Range → List Nat
  | [] => []
  | member :: members => code member ++ memberCodes members

end

/-- What ranges are sorted by: their text first, and their code among equal texts. -/
def sortKey (range : Range) : List (List Nat) :=
  [range.toText.map Char.toNat, range.code]

instance : LT Range := ⟨fun left right => left.sortKey < right.sortKey⟩

instance : DecidableLT Range := fun left right =>
  inferInstanceAs (Decidable (left.sortKey < right.sortKey))

theorem textCode_append_inj {left right : Text} {leftRest rightRest : List Nat}
    (same : textCode left ++ leftRest = textCode right ++ rightRest) :
    left = right ∧ leftRest = rightRest := by
  simp only [textCode, List.cons_append, List.cons.injEq] at same
  obtain ⟨texts, rests⟩ := List.append_inj same.2 (by simpa using same.1)
  exact ⟨(List.map_inj_right fun _ _ => Char.toNat_inj.1).1 texts, rests⟩

mutual

/-- A code and what follows it determine the range and what follows. -/
theorem code_append_inj (left right : Range) {leftRest rightRest : List Nat}
    (same : left.code ++ leftRest = right.code ++ rightRest) :
    left = right ∧ leftRest = rightRest := by
  cases left <;> cases right <;>
    simp only [code, List.cons_append, List.cons.injEq, List.nil_append, List.append_assoc] at same
  all_goals try exact absurd same.1 (by decide)
  case base.base =>
    have := textCode_append_inj same.2
    simp_all
  case exact.exact =>
    have := textCode_append_inj same.2
    simp_all
  case minimum.minimum =>
    have := textCode_append_inj same.2
    simp_all
  case maximum.maximum =>
    have := textCode_append_inj same.2
    simp_all
  case bounded.bounded _ _ leftIncluded rightIncluded _ _ leftIncluded' rightIncluded' =>
    obtain ⟨-, leftSame, rightSame, texts⟩ := same
    obtain ⟨lefts, texts⟩ := textCode_append_inj texts
    obtain ⟨rights, rests⟩ := textCode_append_inj texts
    have : leftIncluded = leftIncluded' := by
      cases leftIncluded <;> cases leftIncluded' <;> simp_all
    have : rightIncluded = rightIncluded' := by
      cases rightIncluded <;> cases rightIncluded' <;> simp_all
    simp_all
  case unsatisfiable.unsatisfiable =>
    simp_all
  case union.union left right =>
    have := memberCodes_append_inj left right same.2.1 same.2.2
    simp_all
  case intersection.intersection left right =>
    have := memberCodes_append_inj left right same.2.1 same.2.2
    simp_all

/-- The codes of as many members and what follows them determine the members and what follows. -/
theorem memberCodes_append_inj (left right : List Range) {leftRest rightRest : List Nat}
    (length : left.length = right.length)
    (same : memberCodes left ++ leftRest = memberCodes right ++ rightRest) :
    left = right ∧ leftRest = rightRest := by
  match left, right with
  | [], [] => simpa [memberCodes] using same
  | first :: lefts, second :: rights =>
    simp only [memberCodes, List.append_assoc] at same
    obtain ⟨rfl, rest⟩ := code_append_inj first second same
    obtain ⟨rfl, rests⟩ := memberCodes_append_inj lefts rights (by simpa using length) rest
    exact ⟨rfl, rests⟩
  | [], _ :: _ => simp at length
  | _ :: _, [] => simp at length

end

theorem code_inj {left right : Range} : left.code = right.code ↔ left = right :=
  ⟨fun same => (code_append_inj left right (congrArg (· ++ []) same)).1, congrArg code⟩

instance : DecidableEq Range := fun left right =>
  decidable_of_iff (left.code = right.code) code_inj

theorem sortKey_inj {left right : Range} : left.sortKey = right.sortKey ↔ left = right := by
  simp only [sortKey, List.cons.injEq, code_inj, and_true]
  exact ⟨fun same => same.2, fun same => same ▸ ⟨rfl, rfl⟩⟩

instance : @Std.Trichotomous Range (· < ·) where
  trichotomous left right notBelow notAbove := sortKey_inj.1 <|
    Std.Trichotomous.trichotomous (r := (· < ·)) left.sortKey right.sortKey notBelow notAbove

instance : @Std.Asymm Range (· < ·) where
  asymm left right := Std.Asymm.asymm (r := (· < ·)) left.sortKey right.sortKey

instance : @Trans Range Range Range (· < ·) (· < ·) (· < ·) where
  trans {left middle _} below above :=
    List.lt_trans (show left.sortKey < middle.sortKey from below) above

/-- The members that a range contributes to a union. -/
def unionMembers : Range → List Range
  | union members => members
  | other => [other]

/-- The members that a range contributes to an intersection. -/
def intersectionMembers : Range → List Range
  | intersection members => members
  | other => [other]

/-- The union of some ranges. Nested unions are dissolved, and a single member stands for itself. -/
def unionOf (ranges : List Range) : Range :=
  match SortedSet.ofList (ranges.flatMap unionMembers) with
  | [] => unsatisfiable
  | [member] => member
  | members => union members

/--
The intersection of some ranges. Nested intersections are dissolved, and a single member stands for
itself.
-/
def intersectionOf (ranges : List Range) : Range :=
  match SortedSet.ofList (ranges.flatMap intersectionMembers) with
  | [] => unsatisfiable
  | [member] => member
  | members => intersection members

/-- Whether a version continues another one, by its text. -/
def continues (base version : Text) : Bool :=
  (base ++ ".").isPrefixOf version

/-- Whether a version that compares as given to a bound lies on the right side of that bound. -/
def atLeast (included : Bool) (boundToVersion : Ordering) : Bool :=
  boundToVersion == .lt || included && boundToVersion == .eq

/-- Whether a version that compares as given to a bound lies on the left side of that bound. -/
def atMost (included : Bool) (boundToVersion : Ordering) : Bool :=
  boundToVersion == .gt || included && boundToVersion == .eq

mutual

/-- Whether a range includes a version. -/
def includes (version : Text) : Range → Except Failure Bool
  | base bound => do
    let order ← Version.compareNumbers bound version
    return order == .eq || order == .lt && continues bound version
  | exact bound => .ok (bound == version)
  | minimum bound => do
    return atLeast true (← Version.compareNumbers bound version)
  | maximum bound => do
    return atMost true (← Version.compareNumbers bound version)
  | bounded left right leftIncluded rightIncluded => do
    let leftOrder ← Version.compareNumbers left version
    let rightOrder ← Version.compareNumbers right version
    return atLeast leftIncluded leftOrder && atMost rightIncluded rightOrder
  | unsatisfiable => .ok false
  | union members => someIncludes version members
  | intersection members => allInclude version members

/-- Whether some range includes a version; the ranges after the first that does are not asked. -/
def someIncludes (version : Text) : List Range → Except Failure Bool
  | [] => .ok false
  | range :: ranges => do
    if ← includes version range then return true else someIncludes version ranges

/-- Whether all ranges include a version; the ranges after the first that does not are not asked. -/
def allInclude (version : Text) : List Range → Except Failure Bool
  | [] => .ok true
  | range :: ranges => do
    if ← includes version range then allInclude version ranges else return false

end

end Range

end BundleDecl
