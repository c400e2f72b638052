import BundleDecl.Dependency
import BundleDecl.Proofs.Failure
import BundleDecl.Proofs.Range.Normal
import BundleDecl.Text.Lines

/-!
# Laws of dependencies

Kinds and metadata names are words. A dependency in canonical form is one that can be built and
whose range is in normal form.
-/

namespace BundleDecl

namespace Dependency

theorem isWhiteSpace_eq_false_of_isWordCharacter {character : Char}
    (word : isWordCharacter character = true) : Text.isWhiteSpace character = false := by
  simp only [isWordCharacter, Bool.or_eq_true, Text.isAlphanum_iff, decide_eq_true_eq,
    ← Char.toNat_inj] at word
  simp only [Text.isWhiteSpace, Text.whiteSpaceRanges, List.any_eq_false, List.forall_mem_cons]
  simp at word ⊢
  omega

theorem ne_nil_of_isWord {word : Text} (isWord : isWord word = true) : word ≠ [] := by
  rintro rfl
  exact absurd isWord (by decide)

theorem isWordCharacter_of_mem {word : Text} (isWord : isWord word = true) {character : Char}
    (member : character ∈ word) : isWordCharacter character = true := by
  rw [Dependency.isWord, Bool.and_eq_true, List.all_eq_true] at isWord
  exact isWord.2 character member

theorem notMem_of_isWord {word : Text} (isWord : isWord word = true) {character : Char}
    (other : isWordCharacter character = false) : character ∉ word := by
  intro member
  rw [isWordCharacter_of_mem isWord member] at other
  contradiction

theorem strip_of_isWord {word : Text} (isWord : isWord word = true) : Text.strip word = word := by
  apply Text.strip_eq_self
  intro character member
  exact isWhiteSpace_eq_false_of_isWordCharacter (isWordCharacter_of_mem isWord member)

/-- A word is not indented. -/
theorem indentation_append_of_isWord {word : Text} (isWord : isWord word = true) (rest : Text) :
    Text.indentation (word ++ rest) = [] := by
  cases word with
  | nil => exact absurd rfl (ne_nil_of_isWord isWord)
  | cons first word =>
      apply List.takeWhile_cons_of_neg
      intro indent
      have space := Text.isWhiteSpace_of_isIndentCharacter indent
      rw [isWhiteSpace_eq_false_of_isWordCharacter
        (isWordCharacter_of_mem isWord List.mem_cons_self)] at space
      contradiction

theorem checkKind_eq_ok_iff {kind : Text} :
    checkKind kind = .ok () ↔ isKind kind = true ∧ isReserved kind = false := by
  simp only [checkKind]
  split
  · rename_i noKind
    simp only [Bool.not_eq_true'] at noKind
    simp [noKind]
  · rename_i isKind
    simp only [Bool.not_eq_true', Bool.not_eq_false] at isKind
    split
    · rename_i reserved
      simp [reserved]
    · rename_i notReserved
      simp [isKind, notReserved]

/-- A kind is refused without a line, as malformed text or because it is reserved. -/
theorem refused_of_checkKind {kind : Text} {failure : Failure}
    (refused : checkKind kind = .error failure) :
    failure.line = none ∧ failure.cause.failureClass ∈ [.format, .structural] := by
  simp only [checkKind] at refused
  split at refused
  · rcases fail_eq_error_iff.1 refused with rfl
    exact ⟨rfl, by simp [Cause.failureClass]⟩
  · split at refused
    · rcases fail_eq_error_iff.1 refused with rfl
      exact ⟨rfl, by simp [Cause.failureClass]⟩
    · contradiction

theorem checkMetadataName_eq_ok_iff {name : Text} :
    checkMetadataName name = .ok () ↔ isMetadataName name = true ∧ isReserved name = false := by
  simp only [checkMetadataName]
  split
  · rename_i noName
    simp only [Bool.not_eq_true'] at noName
    simp [noName]
  · rename_i isName
    simp only [Bool.not_eq_true', Bool.not_eq_false] at isName
    split
    · rename_i reserved
      simp [reserved]
    · rename_i notReserved
      simp [isName, notReserved]

/-- Kinds and metadata that a dependency may have. -/
structure Parts (kinds : List Text) (metadata : List (Text × Text)) : Prop where
  sorted : kinds.Pairwise (· < ·)
  isKind : ∀ kind ∈ kinds, isKind kind = true
  kindNotReserved : ∀ kind ∈ kinds, isReserved kind = false
  isMetadataName : ∀ name ∈ metadata.map Prod.fst, isMetadataName name = true
  nameNotReserved : ∀ name ∈ metadata.map Prod.fst, isReserved name = false
  distinct : (metadata.map Prod.fst).Nodup

namespace Parts

variable {kinds : List Text} {metadata : List (Text × Text)}

theorem kindsChecked (parts : Parts kinds metadata) :
    ∀ kind ∈ kinds, checkKind kind = .ok () := by
  intro kind member
  exact checkKind_eq_ok_iff.2 ⟨parts.isKind kind member, parts.kindNotReserved kind member⟩

theorem namesChecked (parts : Parts kinds metadata) :
    ∀ name ∈ metadata.map Prod.fst, checkMetadataName name = .ok () := by
  intro name member
  exact checkMetadataName_eq_ok_iff.2
    ⟨parts.isMetadataName name member, parts.nameNotReserved name member⟩

end Parts

/-- The form of dependencies that can be built and whose range is in normal form. -/
structure Canonical (dependency : Dependency) : Prop where
  parts : Parts dependency.kinds dependency.metadata
  nonempty : dependency.kinds ≠ []
  normal : dependency.range.Normal

/-- The dependency with line feeds as the line breaks of its metadata values. -/
def withLineFeeds (dependency : Dependency) : Dependency :=
  { dependency with
    metadata := dependency.metadata.map fun (name, value) => (name, Text.withLineFeeds value) }

end Dependency

end BundleDecl
