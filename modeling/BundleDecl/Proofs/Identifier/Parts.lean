import BundleDecl.Absent
import BundleDecl.Proofs.Identifier.Acceptance
import BundleDecl.Proofs.Interchange

/-!
# Identifiers and their parts

An identifier is made of a name and qualifiers of two kinds, or read from a text. Both ways lead to
the same identifiers, and whichever of its parts an identifier is made of again, in whatever order
and kind, they make the identifier that consists of these parts.
-/

namespace BundleDecl

namespace Identifier

/-- The name and the qualifiers of both kinds make the identifier. -/
def Makes (name : Text) (qualifiers metaQualifiers : List Text) (identifier : Identifier) : Prop :=
  ofPartsGiven (some name) (some (qualifiers.map some)) (some (metaQualifiers.map some)) =
    .ok identifier

/-- An identifier that some name and qualifiers make. -/
def Made (identifier : Identifier) : Prop :=
  ∃ name qualifiers metaQualifiers, Makes name qualifiers metaQualifiers identifier

/-- What an identifier, its text, its parts and its JSON form have to do with each other. -/
structure Coherent (identifier : Identifier) : Prop where
  read : ofText identifier.toText = .ok identifier
  again : Makes identifier.name identifier.allQualifiers [] identifier
  withoutVersion :
    Makes identifier.name identifier.qualifiers [] identifier.withoutVersion.value
  withoutQualifiers :
    Makes identifier.name [] identifier.metaQualifiers identifier.withoutQualifiers.value
  nameOnly : Makes identifier.name [] [] identifier.nameOnly.value
  commute : identifier.withoutVersion.value.withoutQualifiers.value = identifier.nameOnly.value ∧
    identifier.withoutQualifiers.value.withoutVersion.value = identifier.nameOnly.value
  idempotent :
    identifier.withoutVersion.value.withoutVersion = ⟨identifier.withoutVersion.value, true⟩ ∧
      identifier.withoutQualifiers.value.withoutQualifiers =
        ⟨identifier.withoutQualifiers.value, true⟩ ∧
      identifier.nameOnly.value.nameOnly = ⟨identifier.nameOnly.value, true⟩
  /-- The identifier itself is kept exactly if it is what remains of it. -/
  kept : (identifier.withoutVersion.unchanged = true ↔
      identifier.withoutVersion.value = identifier) ∧
    (identifier.withoutQualifiers.unchanged = true ↔
      identifier.withoutQualifiers.value = identifier) ∧
    (identifier.nameOnly.unchanged = true ↔ identifier.nameOnly.value = identifier)
  unversioned : identifier.withoutVersion.value = identifier ↔ identifier.metaQualifiers = []
  unqualified : identifier.withoutQualifiers.value = identifier ↔ identifier.qualifiers = []
  bare : identifier.nameOnly.value = identifier ↔
    identifier.qualifiers = [] ∧ identifier.metaQualifiers = []
  versionAdded : ∀ number, identifier.version = some number →
    Makes identifier.withoutVersion.value.name
      (identifier.withoutVersion.value.qualifiers ++ [Version.toQualifier number]) [] identifier
  json : ofJson identifier.toJson = .ok identifier

variable {name : Text} {qualifiers metaQualifiers segments : List Text} {identifier : Identifier}

/-! ## What remains of an identifier -/

theorem metaQualifiers_eq_nil_iff : identifier.metaQualifiers = [] ↔ identifier.version = none := by
  cases known : identifier.version <;> simp [metaQualifiers, known]

/-- The identifier itself is kept exactly if nothing is to be left out. -/
theorem reduceTo_eq {rest : Identifier} {nothingElse : Bool}
    (same : rest = identifier ↔ nothingElse = true) :
    identifier.reduceTo rest nothingElse = ⟨rest, nothingElse⟩ := by
  cases nothingElse with
  | false => rfl
  | true =>
      rw [same.2 rfl]
      rfl

theorem versionless_eq_self_iff :
    { identifier with version := none } = identifier ↔ identifier.metaQualifiers = [] := by
  rcases identifier with ⟨name, qualifiers, version⟩
  simp [metaQualifiers_eq_nil_iff, @eq_comm _ none]

theorem unqualified_eq_self_iff :
    { identifier with qualifiers := [] } = identifier ↔ identifier.qualifiers = [] := by
  rcases identifier with ⟨name, qualifiers, version⟩
  simp [@eq_comm _ []]

theorem bare_eq_self_iff :
    ⟨identifier.name, [], none⟩ = identifier ↔
      identifier.qualifiers = [] ∧ identifier.metaQualifiers = [] := by
  rcases identifier with ⟨name, qualifiers, version⟩
  simp [metaQualifiers_eq_nil_iff, @eq_comm _ none, @eq_comm _ []]

theorem withoutVersion_eq :
    identifier.withoutVersion =
      ⟨{ identifier with version := none }, identifier.metaQualifiers.isEmpty⟩ :=
  reduceTo_eq (by rw [versionless_eq_self_iff, List.isEmpty_iff])

theorem withoutQualifiers_eq :
    identifier.withoutQualifiers =
      ⟨{ identifier with qualifiers := [] }, identifier.qualifiers.isEmpty⟩ :=
  reduceTo_eq (by rw [unqualified_eq_self_iff, List.isEmpty_iff])

theorem nameOnly_eq :
    identifier.nameOnly = ⟨⟨identifier.name, [], none⟩,
      identifier.qualifiers.isEmpty && identifier.metaQualifiers.isEmpty⟩ :=
  reduceTo_eq (by
    rw [bare_eq_self_iff, Bool.and_eq_true, List.isEmpty_iff, List.isEmpty_iff])

/-! ## Two ways to make an identifier -/

theorem foldlM_addQualifierGiven :
    (segments.map some).foldlM addQualifierGiven identifier =
      segments.foldlM addQualifier identifier := by
  rw [List.foldlM_map]
  rfl

/-- The kind under which a qualifier is given does not matter. -/
theorem makes_iff :
    Makes name qualifiers metaQualifiers identifier ↔
      ofParts name (qualifiers ++ metaQualifiers) = .ok identifier := by
  rw [Makes, ofPartsGiven, ofParts, bind_eq_ok_iff, bind_eq_ok_iff]
  apply exists_congr
  intro start
  apply and_congr mapError_eq_ok_iff
  simp only [← List.map_append, foldlM_addQualifierGiven]
  exact mapError_eq_ok_iff

theorem isQualifier_of_foldlM {next : Identifier}
    (added : segments.foldlM addQualifier identifier = .ok next) :
    ∀ segment ∈ segments, isQualifier segment = true := by
  induction segments generalizing identifier with
  | nil => exact List.forall_mem_nil _
  | cons segment segments ih =>
      rw [List.foldlM_cons, bind_eq_ok_iff] at added
      rcases added with ⟨middle, first, others⟩
      refine List.forall_mem_cons.2 ⟨?_, ih others⟩
      rw [addQualifier] at first
      split at first
      · assumption
      · simp at first

theorem isName_of_ofParts (made : ofParts name segments = .ok identifier) :
    isName name = true ∧ ∀ segment ∈ segments, isQualifier segment = true := by
  rw [ofParts, bind_eq_ok_iff] at made
  rcases made with ⟨start, named, added⟩
  refine ⟨?_, isQualifier_of_foldlM added⟩
  rw [ofName] at named
  split at named
  · assumption
  · simp at named

/-- Parts without a hyphen make the identifier that their text denotes. -/
theorem ofText_joinWith_eq_ok_iff (unbroken : ∀ piece ∈ name :: segments, '-' ∉ piece) :
    ofText (Text.joinWith "-" (name :: segments)) = .ok identifier ↔
      ofParts name segments = .ok identifier := by
  have pieces : Text.splitOn '-' (Text.joinWith "-" (name :: segments)) = name :: segments :=
    Text.splitOn_joinWith (List.cons_ne_nil _ _) unbroken
  simp only [ofText, isIdentifier, pieces]
  split
  · rfl
  · rename_i malformed
    refine iff_of_false fail_ne_ok ?_
    intro made
    rcases isName_of_ofParts made with ⟨named, qualified⟩
    exact malformed (by simpa [named] using qualified)

/-! ## Making an identifier again -/

/-- The segments of an identifier make it, whatever others denote the same. -/
theorem Denotes.ofParts_eq_ok (named : isName name = true)
    (qualified : ∀ segment ∈ segments, isQualifier segment = true)
    (denotes : Denotes name segments identifier) : ofParts name segments = .ok identifier := by
  have gathers := gathers_ofParts named qualified
  generalize ofParts name segments = outcome at gathers
  cases gathers with
  | denotes other =>
      rw [(other.eq_iff denotes).2 ⟨rfl, fun _ => Iff.rfl⟩]
  | conflict conflict => exact absurd conflict (denotes.not_conflict _ _)

theorem denotes_of_ofParts (made : ofParts name segments = .ok identifier) :
    Denotes name segments identifier := by
  rcases isName_of_ofParts made with ⟨named, qualified⟩
  have gathers := gathers_ofParts named qualified
  rw [made] at gathers
  cases gathers with
  | denotes denotes => exact denotes

namespace Canonical

theorem lower_eq_self (canonical : identifier.Canonical) {qualifier : Text}
    (member : qualifier ∈ identifier.qualifiers ++ identifier.metaQualifiers) :
    Text.lower qualifier = qualifier := by
  rcases List.mem_append.1 member with member | member
  · exact canonical.qualifierFolded qualifier member
  · rcases canonical.mem_metaQualifiers member with ⟨version, -, valid, rfl⟩
    exact lower_toQualifier valid

theorem isVersion_iff_mem_metaQualifiers (canonical : identifier.Canonical) {qualifier : Text}
    (member : qualifier ∈ identifier.qualifiers ++ identifier.metaQualifiers) :
    IsVersion qualifier ↔ qualifier ∈ identifier.metaQualifiers := by
  rcases List.mem_append.1 member with plain | version
  · have notVersion : ¬IsVersion qualifier := by
      rw [← canonical.lower_eq_self member, ← isQualifier_lower_iff,
        canonical.lower_eq_self member, canonical.notVersion qualifier plain]
      exact Bool.false_ne_true
    refine iff_of_false notVersion ?_
    intro version
    rcases canonical.mem_metaQualifiers version with ⟨number, -, valid, rfl⟩
    exact notVersion ⟨number, rfl, Version.isValid_iff_separated.1 valid⟩
  · rcases canonical.mem_metaQualifiers version with ⟨number, -, valid, rfl⟩
    exact iff_of_true ⟨number, rfl, Version.isValid_iff_separated.1 valid⟩ version

theorem denotes (canonical : identifier.Canonical)
    (same : ∀ segment, segment ∈ segments ↔
      segment ∈ identifier.qualifiers ++ identifier.metaQualifiers) :
    Denotes identifier.name segments identifier := by
  have folded : segments.map Text.lower = segments := by
    refine (List.map_congr_left ?_).trans (List.map_id segments)
    intro segment member
    exact canonical.lower_eq_self ((same segment).1 member)
  refine ⟨canonical.nameFolded.symm, canonical.sorted, ?_, ?_⟩
  · intro qualifier
    rw [folded, same]
    constructor
    · intro plain
      have member := List.mem_append_left identifier.metaQualifiers plain
      refine ⟨member, ?_⟩
      rw [canonical.isVersion_iff_mem_metaQualifiers member]
      intro version
      rcases canonical.mem_metaQualifiers version with ⟨number, -, valid, rfl⟩
      have notVersion := canonical.notVersion _ plain
      simp [Version.isQualifier, Version.toQualifier, Version.isMark, valid] at notVersion
    · rintro ⟨member, notVersion⟩
      rw [canonical.isVersion_iff_mem_metaQualifiers member] at notVersion
      exact (List.mem_append.1 member).resolve_right notVersion
  · intro qualifier
    rw [folded, same]
    constructor
    · intro version
      have member := List.mem_append_right identifier.qualifiers version
      exact ⟨member, (canonical.isVersion_iff_mem_metaQualifiers member).2 version⟩
    · rintro ⟨member, version⟩
      exact (canonical.isVersion_iff_mem_metaQualifiers member).1 version

/-- An identifier is made of its name and its qualifiers, given in any order, any number of times
and as qualifiers of either kind. -/
theorem makes (canonical : identifier.Canonical)
    (same : ∀ segment, segment ∈ qualifiers ++ metaQualifiers ↔
      segment ∈ identifier.qualifiers ++ identifier.metaQualifiers) :
    Makes identifier.name qualifiers metaQualifiers identifier := by
  rw [makes_iff]
  refine (canonical.denotes same).ofParts_eq_ok canonical.isName ?_
  intro segment member
  exact canonical.isQualifier_of_mem ((same segment).1 member)

theorem versionless (canonical : identifier.Canonical) :
    Canonical { identifier with version := none } :=
  { canonical with isValid := nofun }

theorem unqualified (canonical : identifier.Canonical) :
    Canonical { identifier with qualifiers := [] } :=
  { canonical with
    sorted := .nil, isQualifier := nofun, qualifierFolded := nofun, notVersion := nofun }

theorem ofJson_toJson (canonical : identifier.Canonical) :
    ofJson identifier.toJson = .ok identifier := by
  have name : Schema.Conforms (.text true) (.string identifier.name) := by
    refine .text fun _ empty => ?_
    have named := canonical.isName
    rw [empty] at named
    exact absurd named (by decide)
  have qualifiers (texts : List Text) :
      Schema.Conforms (.list false (.text false)) (.ofTexts texts) :=
    Json.conforms_ofTexts (absurd · Bool.false_ne_true)
  have conforms : Schema.Conforms Interchange.identifierSchema identifier.toJson := by
    apply Schema.Conforms.of_forall₂ (by decide) (by decide)
    exact .cons ⟨rfl, name⟩ (.cons ⟨rfl, qualifiers _⟩ (.cons ⟨rfl, qualifiers _⟩ .nil))
  have plain : (identifier.toJson.member "qualifiers").asTexts = identifier.qualifiers :=
    Json.asTexts_ofTexts identifier.qualifiers
  have special : (identifier.toJson.member "meta_qualifiers").asTexts =
      identifier.metaQualifiers := Json.asTexts_ofTexts identifier.metaQualifiers
  have folded : SortedSet.ofList (identifier.metaQualifiers.map Text.lower) =
      identifier.metaQualifiers := by
    rw [List.map_congr_left fun qualifier member =>
      canonical.lower_eq_self (List.mem_append_right identifier.qualifiers member), List.map_id']
    apply SortedSet.ofList_eq_self
    rw [Identifier.metaQualifiers]
    cases identifier.version <;> simp
  rw [ofJson, bind_eq_ok_iff]
  refine ⟨(), Interchange.check_eq_ok_iff.2 conforms, ?_⟩
  rw [plain, special, bind_eq_ok_iff]
  refine ⟨identifier, Interchange.liftM_eq_ok_iff.2 canonical.ofText_eq_ok, ?_⟩
  rw [folded, if_pos rfl]
  rfl

theorem coherent (canonical : identifier.Canonical) : identifier.Coherent where
  read := canonical.ofText_eq_ok
  again := by
    apply canonical.makes
    simp [allQualifiers, SortedSet.mem_ofList]
  withoutVersion := by
    rw [withoutVersion_eq]
    apply canonical.versionless.makes
    simp [Identifier.metaQualifiers]
  withoutQualifiers := by
    rw [withoutQualifiers_eq]
    apply canonical.unqualified.makes
    simp [Identifier.metaQualifiers]
  nameOnly := by
    rw [nameOnly_eq]
    apply canonical.versionless.unqualified.makes
    simp [Identifier.metaQualifiers]
  commute := by simp only [withoutVersion_eq, withoutQualifiers_eq, nameOnly_eq, and_self]
  idempotent := by
    simp [withoutVersion_eq, withoutQualifiers_eq, nameOnly_eq, Identifier.metaQualifiers]
  kept := by
    simp only [withoutVersion_eq, withoutQualifiers_eq, nameOnly_eq, versionless_eq_self_iff,
      unqualified_eq_self_iff, bare_eq_self_iff, List.isEmpty_iff, Bool.and_eq_true, and_self]
  unversioned := by rw [withoutVersion_eq, versionless_eq_self_iff]
  unqualified := by rw [withoutQualifiers_eq, unqualified_eq_self_iff]
  bare := by rw [nameOnly_eq, bare_eq_self_iff]
  versionAdded := by
    intro number known
    rw [withoutVersion_eq]
    apply canonical.makes
    simp [Identifier.metaQualifiers, known]
  json := canonical.ofJson_toJson

end Canonical

theorem Made.canonical (made : identifier.Made) : identifier.Canonical := by
  rcases made with ⟨name, qualifiers, metaQualifiers, makes⟩
  exact canonical_of_ofParts (makes_iff.1 makes)

/-- Parts without a hyphen make an identifier if and only if the text of these parts denotes it. An
identifier that was made agrees with its text, with its parts and with its JSON form, and no other
one has the same text. -/
theorem makes_iff_ofText :
    (∀ name qualifiers metaQualifiers,
      (∀ piece ∈ name :: qualifiers ++ metaQualifiers, '-' ∉ piece) → ∀ identifier,
        (Makes name qualifiers metaQualifiers identifier ↔
          ofText (Text.joinWith "-" (name :: qualifiers ++ metaQualifiers)) = .ok identifier)) ∧
      (∀ identifier : Identifier, identifier.Made → identifier.Coherent) ∧
      ∀ identifier other : Identifier, identifier.Made → other.Made →
        identifier.toText = other.toText → identifier = other := by
  refine ⟨?_, fun identifier made => made.canonical.coherent, ?_⟩
  · intro name qualifiers metaQualifiers unbroken identifier
    rw [List.cons_append] at unbroken ⊢
    rw [makes_iff, ofText_joinWith_eq_ok_iff unbroken]
  · intro identifier other made otherMade texts
    have read := made.canonical.ofText_eq_ok
    rw [texts, otherMade.canonical.ofText_eq_ok] at read
    exact (Except.ok.inj read).symm

theorem makes_iff_ofText_mixed :
    let identifier : Identifier :=
      ⟨"my.bundle".toList, ["q1".toList, "q2".toList], some "1.0".toList⟩
    Makes "My.Bundle".toList ["V1.0".toList, "q2".toList] ["Q1".toList] identifier ∧
      ofText identifier.toText = .ok identifier ∧
      Makes "my.bundle".toList ["q1".toList, "q2".toList, "v1.0".toList] [] identifier ∧
      ofJson identifier.toJson = .ok identifier ∧
      ∀ other : Identifier, other.Made → other.toText = "my.bundle-q1-q2-v1.0".toList →
        other = identifier := by
  intro identifier
  rcases makes_iff_ofText with ⟨read, coherent, injective⟩
  have makes : Makes "My.Bundle".toList ["V1.0".toList, "q2".toList] ["Q1".toList] identifier :=
    (read _ _ _ (by decide) _).2 rfl
  have made : identifier.Made := ⟨_, _, _, makes⟩
  refine ⟨makes, (coherent identifier made).read, ?_, (coherent identifier made).json, ?_⟩
  · exact (coherent identifier made).versionAdded "1.0".toList rfl
  · intro other otherMade text
    exact injective other identifier otherMade made text

end Identifier

end BundleDecl
