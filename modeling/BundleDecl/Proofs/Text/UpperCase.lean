import BundleDecl.Proofs.Text
import BundleDecl.Text.UpperCase
import Mathlib.Data.Nat.Bitwise

/-!
# Laws of upper case

A text in upper case is its own upper-case form, and no white space is made of other characters.

Both are facts about the tables: what comes out of them does not go into them, and is no white
space. Sets of code points are compared at once by packing each into the bits of a number.
-/

namespace BundleDecl

namespace Text

/-! ## Sets of code points -/

/-- The number whose bits say which code points belong to a set. -/
def packed : List Nat → Nat
  | [] => 0
  | codePoint :: rest => 2 ^ codePoint ||| packed rest

theorem testBit_packed (codePoints : List Nat) (codePoint : Nat) :
    (packed codePoints).testBit codePoint = decide (codePoint ∈ codePoints) := by
  induction codePoints with
  | nil => simp [packed]
  | cons first rest ih =>
      rw [packed, Nat.testBit_or, ih, Nat.testBit_two_pow]
      simp [eq_comm]

/-- Sets that have no bit in common have no member in common. -/
theorem disjoint_of_packed {left right : List Nat} (apart : packed left &&& packed right = 0) :
    left.Disjoint right := by
  intro codePoint inLeft inRight
  have bits := congrArg (Nat.testBit · codePoint) apart
  simp [testBit_packed, inLeft, inRight] at bits

namespace UpperCaseRun

/-- The code points of the letters of a run. -/
def letters (run : UpperCaseRun) : List Nat :=
  List.range' run.first ((run.last - run.first) / run.step + 1) run.step

/-- The code points of their upper-case letters. -/
def images (run : UpperCaseRun) : List Nat :=
  run.letters.map fun codePoint : Nat => ((codePoint : Int) + run.offset).toNat

theorem mem_letters {run : UpperCaseRun} {codePoint : Nat} (least : run.first ≤ codePoint)
    (most : codePoint ≤ run.last) (step : (codePoint - run.first) % run.step = 0) :
    codePoint ∈ run.letters := by
  rw [letters, List.mem_range']
  refine ⟨(codePoint - run.first) / run.step, ?_, ?_⟩
  · exact Nat.lt_succ_of_le (Nat.div_le_div_right (by omega))
  · have parts := Nat.div_add_mod (codePoint - run.first) run.step
    omega

end UpperCaseRun

/-- The code points that have an upper-case form of their own. -/
def casedCodePoints : List Nat :=
  upperCaseExpansions.map Prod.fst ++ upperCaseRuns.flatMap UpperCaseRun.letters

/-- The code points of these forms. -/
def upperCodePoints : List Nat :=
  upperCaseExpansions.flatMap Prod.snd ++ upperCaseRuns.flatMap UpperCaseRun.images

def whiteSpaceCodePoints : List Nat :=
  whiteSpaceRanges.flatMap fun (first, last) => List.range' first (last - first + 1)

theorem upperCodePoints_disjoint :
    upperCodePoints.Disjoint (casedCodePoints ++ whiteSpaceCodePoints) :=
  disjoint_of_packed (by decide +kernel)

theorem isValidChar_of_mem_upperCodePoints :
    ∀ codePoint ∈ upperCodePoints, codePoint.isValidChar := by
  decide +kernel

/-! ## Characters -/

/-- A character that no table holds stands for itself. -/
theorem upperCharacter_of_notMem {character : Char} (absent : character.toNat ∉ casedCodePoints) :
    upperCharacter character = [character] := by
  rw [casedCodePoints, List.mem_append, not_or] at absent
  have noExpansion : upperCaseExpansions.lookup character.toNat = none := by
    rw [List.lookup_eq_none_iff]
    intro expansion member
    have different : character.toNat ≠ expansion.1 := by
      intro same
      exact absent.1 (same ▸ List.mem_map_of_mem member)
    simpa using different
  have noLetter : upperLetter? character.toNat = none := by
    rw [upperLetter?, Option.map_eq_none_iff, List.find?_eq_none]
    intro run member holds
    simp only [Bool.and_eq_true, decide_eq_true_eq] at holds
    exact absent.2 (List.mem_flatMap.2
      ⟨run, member, UpperCaseRun.mem_letters holds.1.1 holds.1.2 holds.2⟩)
  rw [upperCharacter, noExpansion, noLetter]

theorem mem_upperCodePoints_of_lookup {codePoint : Nat} {images : List Nat}
    (found : upperCaseExpansions.lookup codePoint = some images) {image : Nat}
    (member : image ∈ images) : image ∈ upperCodePoints := by
  rcases List.lookup_eq_some_iff.1 found with ⟨before, after, split, -⟩
  apply List.mem_append_left
  rw [List.mem_flatMap]
  exact ⟨(codePoint, images), by simp [split], member⟩

theorem mem_upperCodePoints_of_upperLetter? {codePoint image : Nat}
    (found : upperLetter? codePoint = some image) : image ∈ upperCodePoints := by
  rw [upperLetter?, Option.map_eq_some_iff] at found
  rcases found with ⟨run, found, rfl⟩
  have holds := List.find?_some found
  simp only [Bool.and_eq_true, decide_eq_true_eq] at holds
  apply List.mem_append_right
  rw [List.mem_flatMap]
  exact ⟨run, List.mem_of_find?_eq_some found,
    List.mem_map_of_mem (UpperCaseRun.mem_letters holds.1.1 holds.1.2 holds.2)⟩

/-- The upper-case form of a character is the character itself or comes from a table. -/
theorem upperCharacter_eq_self_or (character : Char) :
    upperCharacter character = [character] ∨
      ∀ image ∈ upperCharacter character, image.toNat ∈ upperCodePoints := by
  have fromTable {codePoint : Nat} (member : codePoint ∈ upperCodePoints) :
      (Char.ofNat codePoint).toNat ∈ upperCodePoints := by
    rwa [toNat_ofNat (isValidChar_of_mem_upperCodePoints _ member)]
  rw [upperCharacter]
  split
  · rename_i images found
    right
    intro image member
    rcases List.mem_map.1 member with ⟨codePoint, codePointMem, rfl⟩
    exact fromTable (mem_upperCodePoints_of_lookup found codePointMem)
  · split
    · rename_i codePoint found
      right
      rw [List.forall_mem_singleton]
      exact fromTable (mem_upperCodePoints_of_upperLetter? found)
    · exact .inl rfl

/-- Upper-case characters are their own upper-case forms. -/
theorem upperCharacter_of_mem {character image : Char}
    (member : image ∈ upperCharacter character) : upperCharacter image = [image] := by
  rcases upperCharacter_eq_self_or character with same | fromTable
  · rw [same, List.mem_singleton] at member
    rw [member, same]
  · have apart := upperCodePoints_disjoint (fromTable image member)
    exact upperCharacter_of_notMem fun cased => apart (List.mem_append_left _ cased)

theorem isWhiteSpace_iff {character : Char} :
    isWhiteSpace character = true ↔ character.toNat ∈ whiteSpaceCodePoints := by
  simp only [isWhiteSpace, whiteSpaceCodePoints, List.any_eq_true, List.mem_flatMap,
    Bool.and_eq_true, decide_eq_true_eq, List.mem_range'_1]
  apply exists_congr
  rintro ⟨first, last⟩
  apply and_congr_right
  intro member
  have ordered : ∀ range ∈ whiteSpaceRanges, range.1 ≤ range.2 := by decide
  have := ordered _ member
  omega

/-- White space is made of white space only. -/
theorem isWhiteSpace_of_mem_upperCharacter {character image : Char}
    (visible : isWhiteSpace character = false) (member : image ∈ upperCharacter character) :
    isWhiteSpace image = false := by
  rcases upperCharacter_eq_self_or character with same | fromTable
  · rw [same, List.mem_singleton] at member
    rwa [member]
  · have apart := upperCodePoints_disjoint (fromTable image member)
    rw [← Bool.not_eq_true, isWhiteSpace_iff]
    exact fun space => apart (List.mem_append_right _ space)

theorem upperCharacter_ne_nil (character : Char) : upperCharacter character ≠ [] := by
  have nonempty : ∀ expansion ∈ upperCaseExpansions, expansion.2 ≠ [] := by decide +kernel
  rw [upperCharacter]
  split
  · rename_i images found
    rcases List.lookup_eq_some_iff.1 found with ⟨before, after, split, -⟩
    have := nonempty (character.toNat, images) (by simp [split])
    simpa using this
  · split <;> simp

/-! ## Texts -/

theorem upper_upper (text : Text) : upper (upper text) = upper text := by
  rw [upper, upper, List.flatMap_assoc]
  apply List.flatMap_congr
  intro character _
  exact (List.flatMap_congr fun image member => upperCharacter_of_mem member).trans
    (List.flatMap_singleton' _)

/-- A text that starts and ends with visible characters does so in upper case, too. -/
theorem Trims.upper {text kept : Text} (trims : Trims text kept) :
    Trims (Text.upper kept) (Text.upper kept) where
  parts := ⟨[], [], (List.append_nil _).symm, rfl, rfl⟩
  starts := by
    rcases trims.starts with ⟨first, rest, rfl, visible⟩
    rcases List.exists_cons_of_ne_nil (upperCharacter_ne_nil first) with ⟨image, others, images⟩
    refine ⟨image, others ++ Text.upper rest, ?_, ?_⟩
    · rw [Text.upper, List.flatMap_cons, images, List.cons_append]
      rfl
    · exact isWhiteSpace_of_mem_upperCharacter visible (by rw [images]; exact List.mem_cons_self)
  ends := by
    rcases trims.ends with ⟨front, last, rfl, visible⟩
    have nonempty := upperCharacter_ne_nil last
    refine ⟨Text.upper front ++ (upperCharacter last).dropLast, _, ?_,
      isWhiteSpace_of_mem_upperCharacter visible (List.getLast_mem nonempty)⟩
    rw [List.append_assoc, List.dropLast_append_getLast, Text.upper, List.flatMap_append,
      List.flatMap_singleton]
    rfl

end Text

end BundleDecl
