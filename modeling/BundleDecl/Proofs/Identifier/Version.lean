import BundleDecl.Proofs.Identifier.Parts

/-!
# The version among qualifiers

Whether a text is a version qualifier does not depend on its letter case. So an identifier has a
version if and only if one of the qualifiers that it is made of is a version qualifier, and it is
that one in lower case. An identifier keeps a version once, however often it is given; the search
among qualifiers goes by occurrences and finds a version qualifier only if it is given once.
-/

namespace BundleDecl

namespace Identifier

/-! ## Letter case -/

/-- Nothing but a valid version number becomes one in lower case. -/
theorem isValid_lower (version : Text) :
    Version.isValid (Text.lower version) = Version.isValid version := by
  rw [Bool.eq_iff_iff]
  constructor
  -- The lower-case form consists of digits and dots, which only come from themselves.
  · intro valid
    have same : Text.lower version = version := by
      refine (List.map_congr_left ?_).trans (List.map_id version)
      intro character member
      have bounds := toNat_of_isValid valid (List.mem_map_of_mem member)
      exact ((Text.lowerCharacter_eq_iff (by omega)).1 rfl).symm
    rwa [same] at valid
  · intro valid
    rwa [lower_eq_self_of_isValid valid]

theorem isMark_lowerCharacter (character : Char) :
    Version.isMark (Text.lowerCharacter character) = Version.isMark character := by
  have mark : Text.lowerCharacter character = 'v' ↔ character ∈ ['v', 'V'] :=
    Text.lowerCharacter_eq_letter_iff 'v' 'V' (by decide) rfl
  simp [Version.isMark, mark, lowerCharacter_ne_upper]

theorem isVersion_lower_iff {qualifier : Text} :
    IsVersion (Text.lower qualifier) ↔ Version.isQualifier qualifier = true := by
  rw [← isQualifier_lower_iff]
  rcases qualifier with _ | ⟨mark, number⟩
  · rfl
  · have valid := isValid_lower number
    rw [Text.lower] at valid
    rw [Text.lower, List.map_cons, Version.isQualifier, Version.isQualifier, valid,
      isMark_lowerCharacter]

/-! ## The version of an identifier -/

variable {name : Text} {qualifiers : List Text} {identifier : Identifier}

theorem Denotes.versionQualifier_eq_some_iff (denotes : Denotes name qualifiers identifier)
    {version : Text} :
    identifier.versionQualifier = some version ↔
      ∃ qualifier ∈ qualifiers, Version.isQualifier qualifier = true ∧
        Text.lower qualifier = version := by
  have mem : identifier.versionQualifier = some version ↔ version ∈ identifier.metaQualifiers := by
    rw [metaQualifiers, versionQualifier, Option.mem_toList]
  rw [mem, denotes.mem_metaQualifiers, List.mem_map]
  constructor
  · rintro ⟨⟨qualifier, member, rfl⟩, version⟩
    exact ⟨qualifier, member, isVersion_lower_iff.1 version, rfl⟩
  · rintro ⟨qualifier, member, versioned, rfl⟩
    exact ⟨⟨qualifier, member, rfl⟩, isVersion_lower_iff.2 versioned⟩

theorem Denotes.isSome_versionQualifier (denotes : Denotes name qualifiers identifier) :
    identifier.versionQualifier.isSome = qualifiers.any Version.isQualifier := by
  rw [Bool.eq_iff_iff, Option.isSome_iff_exists, List.any_eq_true]
  simp only [denotes.versionQualifier_eq_some_iff]
  constructor
  · rintro ⟨_, qualifier, member, versioned, -⟩
    exact ⟨qualifier, member, versioned⟩
  · rintro ⟨qualifier, member, versioned⟩
    exact ⟨_, qualifier, member, versioned, rfl⟩

/-! ## The search -/

theorem findQualifier_eq_some_iff {qualifier : Text} :
    Version.findQualifier qualifiers = some qualifier ↔
      qualifiers.filter Version.isQualifier = [qualifier] := by
  rw [Version.findQualifier]
  split
  · rename_i found
    rw [found, Option.some.injEq, List.singleton_inj]
  · rename_i several
    exact iff_of_false (Option.some_ne_none qualifier).symm (several qualifier)

theorem findQualifier_eq_none_iff :
    Version.findQualifier qualifiers = none ↔ qualifiers.countP Version.isQualifier ≠ 1 := by
  simp only [Option.eq_none_iff_forall_ne_some, Ne, findQualifier_eq_some_iff,
    List.countP_eq_length_filter, List.length_eq_one_iff, not_exists]

theorem any_isQualifier_eq_false_iff :
    qualifiers.any Version.isQualifier = false ↔ qualifiers.countP Version.isQualifier = 0 := by
  rw [List.any_eq_false, List.countP_eq_zero]

/-- A version qualifier that is given at most once is found. -/
theorem Denotes.map_lower_findQualifier (denotes : Denotes name qualifiers identifier)
    (once : qualifiers.countP Version.isQualifier ≤ 1) :
    (Version.findQualifier qualifiers).map Text.lower = identifier.versionQualifier := by
  rcases found : Version.findQualifier qualifiers with _ | qualifier
  · have notOnce := findQualifier_eq_none_iff.1 found
    have absent : identifier.versionQualifier.isSome = false := by
      rw [denotes.isSome_versionQualifier, any_isQualifier_eq_false_iff]
      omega
    rw [Option.isSome_eq_false_iff, Option.isNone_iff_eq_none] at absent
    rw [absent, Option.map_none]
  · have member : qualifier ∈ qualifiers.filter Version.isQualifier := by
      rw [findQualifier_eq_some_iff.1 found]
      exact List.mem_cons_self
    rcases List.mem_filter.1 member with ⟨member, versioned⟩
    rw [Option.map_some, eq_comm, denotes.versionQualifier_eq_some_iff]
    exact ⟨qualifier, member, versioned, rfl⟩

theorem findQualifierGiven_map_some (qualifiers : List Text) :
    Version.findQualifierGiven (some (qualifiers.map some)) = Version.findQualifier qualifiers := by
  simp [Version.findQualifierGiven]

theorem hasQualifierGiven_map_some (qualifiers : List Text) :
    Version.hasQualifierGiven (some (qualifiers.map some)) =
      qualifiers.any Version.isQualifier := by
  simp [Version.hasQualifierGiven]

/-- An identifier has a version qualifier if and only if it is made of one, and every one that it is
made of becomes it in lower case. The search finds it if it is given once, and finds none if several
are given, whether or not they are the same. -/
theorem findQualifier_of_makes :
    ∀ name qualifiers identifier, Makes name qualifiers [] identifier →
      identifier.versionQualifier.isSome =
        Version.hasQualifierGiven (some (qualifiers.map some)) ∧
      (∀ qualifier ∈ qualifiers, Version.isQualifier qualifier = true →
        identifier.versionQualifier = some (Text.lower qualifier)) ∧
      (qualifiers.countP Version.isQualifier ≤ 1 →
        (Version.findQualifierGiven (some (qualifiers.map some))).map Text.lower =
          identifier.versionQualifier ∧
        (Version.findQualifierGiven (some (qualifiers.map some)) = none ↔
          Version.hasQualifierGiven (some (qualifiers.map some)) = false)) ∧
      (1 < qualifiers.countP Version.isQualifier →
        Version.findQualifierGiven (some (qualifiers.map some)) = none ∧
        Version.hasQualifierGiven (some (qualifiers.map some)) = true) := by
  intro name qualifiers identifier makes
  rw [makes_iff, List.append_nil] at makes
  have denotes := denotes_of_ofParts makes
  rw [findQualifierGiven_map_some, hasQualifierGiven_map_some]
  refine ⟨denotes.isSome_versionQualifier, ?_, ?_, ?_⟩
  · intro qualifier member versioned
    exact denotes.versionQualifier_eq_some_iff.2 ⟨qualifier, member, versioned, rfl⟩
  · intro once
    refine ⟨denotes.map_lower_findQualifier once, ?_⟩
    rw [findQualifier_eq_none_iff, any_isQualifier_eq_false_iff]
    omega
  · intro several
    rw [findQualifier_eq_none_iff, ← Bool.not_eq_false, Ne, any_isQualifier_eq_false_iff]
    omega

theorem findQualifier_of_makes_folded :
    let qualifiers : List Text := ["V1.0".toList, "v01".toList]
    let repeated : List Text := ["V1.0".toList, "v01".toList, "v1.0".toList]
    let identifier : Identifier := ⟨['a'], ["v01".toList], some "1.0".toList⟩
    (Version.findQualifierGiven (some (qualifiers.map some))).map Text.lower =
        identifier.versionQualifier ∧
      Version.findQualifierGiven (some (repeated.map some)) = none ∧
      identifier.versionQualifier = some (Text.lower "V1.0".toList) := by
  intro qualifiers repeated identifier
  rcases findQualifier_of_makes ['A'] qualifiers identifier rfl with ⟨-, -, once, -⟩
  rcases findQualifier_of_makes ['A'] repeated identifier rfl with ⟨-, version, -, several⟩
  exact ⟨(once (by decide)).1, (several (by decide)).1, version _ (by decide) (by decide)⟩

/-- A version that is given twice is not found, although the identifier has it. -/
theorem findQualifier_repeated :
    let qualifiers : List Text := ["v1".toList, "v1".toList]
    let identifier : Identifier := ⟨['a'], [], some ['1']⟩
    Makes ['a'] qualifiers [] identifier ∧
      (Version.findQualifierGiven (some (qualifiers.map some))).map Text.lower ≠
        identifier.versionQualifier ∧
      Version.findQualifierGiven (some (qualifiers.map some)) = none ∧
      Version.hasQualifierGiven (some (qualifiers.map some)) = true :=
  ⟨rfl, by decide, by decide, by decide⟩

end Identifier

end BundleDecl
