import BundleDecl.Proofs.Identifier

/-!
# What the texts of identifiers denote

The texts of identifiers have a simple grammar: a name, and any number of segments after hyphens. A
segment that is a version in lower case is the version of the identifier, and every other one is a
qualifier. So of the segments only the set of their lower-case forms matters; there is no identifier
if two of these are different versions.
-/

namespace BundleDecl

namespace Identifier

/-! ## The grammar -/

/-- One or more characters that satisfy a test. -/
def Run (test : Char → Bool) (text : Text) : Prop :=
  text ≠ [] ∧ ∀ character ∈ text, test character = true

/-- The text is written as a name and segments. -/
structure Spells (text name : Text) (segments : List Text) : Prop where
  named : Text.Separated '.' (Run isNameCharacter) name
  qualified : ∀ segment ∈ segments, Run isQualifierCharacter segment
  written : text = name ++ segments.flatMap ('-' :: ·)

/-- A version qualifier in lower case. -/
def IsVersion (segment : Text) : Prop :=
  ∃ number, segment = Version.toQualifier number ∧ Text.Separated '.' Version.Decimal number

theorem isVersion_iff {segment : Text} :
    IsVersion segment ↔ segment.head? = some 'v' ∧ Version.isValid segment.tail = true := by
  rcases segment with _ | ⟨mark, number⟩
  · simp [IsVersion, Version.toQualifier]
  · simp [IsVersion, Version.toQualifier, Version.isValid_iff_separated]

instance : DecidablePred IsVersion := fun _ => decidable_of_iff' _ isVersion_iff

theorem isName_iff {name : Text} :
    isName name = true ↔ Text.Separated '.' (Run isNameCharacter) name := by
  rw [Text.separated_iff]
  · simp [isName, Run, List.isEmpty_eq_false_iff]
  · rintro word ⟨-, named⟩ dot
    exact absurd (named '.' dot) (by decide)

theorem isQualifier_iff {segment : Text} :
    isQualifier segment = true ↔ Run isQualifierCharacter segment := by
  simp [isQualifier, Run]

theorem joinWith_eq_append_flatMap (separator : Char) (first : Text) (pieces : List Text) :
    Text.joinWith [separator] (first :: pieces) =
      first ++ pieces.flatMap (separator :: ·) := by
  induction pieces generalizing first with
  | nil => simp [Text.joinWith]
  | cons piece pieces ih => simp [Text.joinWith, ih]

/-- The texts of the grammar are those that are taken apart into a name and qualifiers. -/
theorem spells_iff {text name : Text} {segments : List Text} :
    Spells text name segments ↔
      Text.splitOn '-' text = name :: segments ∧ isIdentifier text = true := by
  constructor
  · rintro ⟨named, qualified, rfl⟩
    rw [← isName_iff] at named
    simp only [← isQualifier_iff] at qualified
    have pieces : Text.splitOn '-' (name ++ segments.flatMap ('-' :: ·)) = name :: segments := by
      rw [← joinWith_eq_append_flatMap]
      apply Text.splitOn_joinWith (List.cons_ne_nil _ _)
      intro piece member
      rcases List.mem_cons.1 member with rfl | member
      · intro hyphen
        exact absurd (isQualifierCharacter_of_isName named hyphen) (by decide)
      · exact hyphen_notMem_of_isQualifier (qualified piece member)
    exact ⟨pieces, by simpa [isIdentifier, pieces, named] using qualified⟩
  · rintro ⟨pieces, whole⟩
    simp only [isIdentifier, pieces, Bool.and_eq_true, List.all_eq_true, isName_iff,
      isQualifier_iff] at whole
    refine ⟨whole.1, whole.2, ?_⟩
    rw [← Text.joinWith_splitOn '-' text, pieces, joinWith_eq_append_flatMap]

theorem lowerCharacter_ne_upper (character : Char) : Text.lowerCharacter character ≠ 'V' := by
  intro upper
  have code := congrArg Char.toNat upper
  rw [Text.lowerCharacter, Text.toNat_toLower] at code
  split at code <;> simp at code <;> omega

theorem isQualifier_lower_iff {segment : Text} :
    Version.isQualifier (Text.lower segment) = true ↔ IsVersion (Text.lower segment) := by
  rcases segment with _ | ⟨mark, number⟩
  · simp [Text.lower, Version.isQualifier, isVersion_iff]
  · have lowerCase := lowerCharacter_ne_upper mark
    simp [Text.lower, Version.isQualifier, Version.isMark, isVersion_iff, lowerCase]

/-! ## Gathering the segments -/

/-- The identifier has the name and the set of these segments, the version kept apart. -/
structure Denotes (name : Text) (segments : List Text) (identifier : Identifier) : Prop where
  name_eq : identifier.name = Text.lower name
  sorted : identifier.qualifiers.Pairwise (· < ·)
  mem_qualifiers : ∀ qualifier, qualifier ∈ identifier.qualifiers ↔
    qualifier ∈ segments.map Text.lower ∧ ¬IsVersion qualifier
  mem_metaQualifiers : ∀ qualifier, qualifier ∈ identifier.metaQualifiers ↔
    qualifier ∈ segments.map Text.lower ∧ IsVersion qualifier

/-- Two different versions among the segments. -/
def Conflict (segments : List Text) (first second : Text) : Prop :=
  first ∈ segments.map Text.lower ∧ second ∈ segments.map Text.lower ∧
    IsVersion first ∧ IsVersion second ∧ first ≠ second

/-- What gathering these segments comes to: the identifier, or a failure that names two different
versions. -/
inductive Gathers (name : Text) (segments : List Text) : Except Failure Identifier → Prop
  | denotes {identifier : Identifier} :
      Denotes name segments identifier → Gathers name segments (.ok identifier)
  | conflict {first second : Text} : Conflict segments first second →
      Gathers name segments (fail (.severalVersions (Text.lower name) first second))

theorem toQualifier_mem_metaQualifiers {identifier : Identifier} {version : Text} :
    Version.toQualifier version ∈ identifier.metaQualifiers ↔
      identifier.version = some version := by
  simp [metaQualifiers, Version.toQualifier, eq_comm]

theorem mem_map_lower_append {before : List Text} {segment : Text} (Kind : Text → Prop)
    (qualifier : Text) :
    qualifier ∈ (before ++ [segment]).map Text.lower ∧ Kind qualifier ↔
      (qualifier ∈ before.map Text.lower ∧ Kind qualifier) ∨
        qualifier = Text.lower segment ∧ Kind (Text.lower segment) := by
  simp only [List.map_append, List.map_cons, List.map_nil, List.mem_append, List.mem_singleton]
  constructor
  · rintro ⟨member | rfl, kind⟩
    · exact Or.inl ⟨member, kind⟩
    · exact Or.inr ⟨rfl, kind⟩
  · rintro (⟨member, kind⟩ | ⟨rfl, kind⟩)
    · exact ⟨Or.inl member, kind⟩
    · exact ⟨Or.inr rfl, kind⟩

theorem Conflict.mono {segments others : List Text} {first second : Text}
    (conflict : Conflict segments first second) (contained : segments ⊆ others) :
    Conflict others first second :=
  ⟨List.map_subset _ contained conflict.1, List.map_subset _ contained conflict.2.1,
    conflict.2.2⟩

namespace Denotes

variable {name number segment : Text} {before segments : List Text} {identifier : Identifier}

theorem not_conflict (denotes : Denotes name segments identifier) (first second : Text) :
    ¬Conflict segments first second := by
  rintro ⟨firstMem, secondMem, firstVersion, secondVersion, different⟩
  have one := (denotes.mem_metaQualifiers first).2 ⟨firstMem, firstVersion⟩
  have other := (denotes.mem_metaQualifiers second).2 ⟨secondMem, secondVersion⟩
  rcases firstVersion with ⟨number, rfl, -⟩
  rcases secondVersion with ⟨number', rfl, -⟩
  rw [toQualifier_mem_metaQualifiers] at one other
  rw [one, Option.some.injEq] at other
  exact different (congrArg Version.toQualifier other)

theorem addPlain (denotes : Denotes name before identifier)
    (plain : ¬IsVersion (Text.lower segment)) :
    Denotes name (before ++ [segment])
      { identifier with
        qualifiers := SortedSet.insert (Text.lower segment) identifier.qualifiers } := by
  refine ⟨denotes.name_eq, SortedSet.pairwise_insert _ denotes.sorted, ?_, ?_⟩
  · intro qualifier
    rw [mem_map_lower_append (¬IsVersion ·), ← denotes.mem_qualifiers, SortedSet.mem_insert,
      or_comm, and_iff_left plain]
  · intro qualifier
    rw [mem_map_lower_append IsVersion, ← denotes.mem_metaQualifiers]
    exact (or_iff_left fun version => plain version.2).symm

/-- One more version is gathered unless a different one is known. -/
theorem addVersion (denotes : Denotes name before identifier)
    (folded : Text.lower segment = Version.toQualifier number)
    (version : IsVersion (Text.lower segment)) :
    Gathers name (before ++ [segment]) (identifier.addVersion number) := by
  have plain : ∀ qualifier, qualifier ∈ identifier.qualifiers ↔
      qualifier ∈ (before ++ [segment]).map Text.lower ∧ ¬IsVersion qualifier := by
    intro qualifier
    rw [mem_map_lower_append (¬IsVersion ·), ← denotes.mem_qualifiers]
    exact (or_iff_left fun plain => plain.2 version).symm
  have versions : ∀ qualifier,
      qualifier ∈ (before ++ [segment]).map Text.lower ∧ IsVersion qualifier ↔
        qualifier ∈ identifier.metaQualifiers ∨ qualifier = Version.toQualifier number := by
    intro qualifier
    rw [mem_map_lower_append IsVersion, ← denotes.mem_metaQualifiers, and_iff_left version, folded]
  rw [Identifier.addVersion]
  rcases found : identifier.version with _ | known
  · refine .denotes ⟨denotes.name_eq, denotes.sorted, plain, ?_⟩
    intro qualifier
    rw [versions]
    simp [metaQualifiers, found]
  · by_cases same : known = number
    · simp only [same, if_true]
      refine .denotes ⟨denotes.name_eq, denotes.sorted, plain, ?_⟩
      intro qualifier
      rw [versions]
      simp [metaQualifiers, found, same]
    -- The version that is known came from an earlier segment, so both are among them.
    · have one := (versions (Version.toQualifier known)).2
        (Or.inl (toQualifier_mem_metaQualifiers.2 found))
      have other := (versions (Version.toQualifier number)).2 (Or.inr rfl)
      simp only [same, if_false, denotes.name_eq]
      refine .conflict ⟨one.1, other.1, one.2, other.2, ?_⟩
      simpa [Version.toQualifier] using same

theorem addQualifier (denotes : Denotes name before identifier)
    (qualified : isQualifier segment = true) :
    Gathers name (before ++ [segment]) (identifier.addQualifier segment) := by
  rw [Identifier.addQualifier, if_pos qualified]
  by_cases version : IsVersion (Text.lower segment)
  · rcases id version with ⟨number, folded, -⟩
    have tail : (Text.lower segment).tail = number := by
      rw [folded, Version.toQualifier, List.tail_cons]
    simp only [isQualifier_lower_iff.2 version, if_true, tail]
    exact denotes.addVersion folded version
  · simp only [mt isQualifier_lower_iff.1 version, Bool.false_eq_true, if_false]
    exact .denotes (denotes.addPlain version)

/-- All segments are gathered unless two of them are different versions. -/
theorem foldlM_addQualifier (denotes : Denotes name before identifier)
    (qualified : ∀ segment ∈ segments, isQualifier segment = true) :
    Gathers name (before ++ segments)
      (segments.foldlM Identifier.addQualifier identifier) := by
  induction segments generalizing before identifier with
  | nil =>
      rw [List.append_nil]
      exact .denotes denotes
  | cons segment segments ih =>
      rw [List.forall_mem_cons] at qualified
      rw [List.foldlM_cons, List.append_cons]
      have gathers := denotes.addQualifier qualified.1
      generalize identifier.addQualifier segment = outcome at gathers
      cases gathers with
      | denotes denotes => exact ih denotes qualified.2
      | conflict conflict => exact .conflict (conflict.mono (List.subset_append_left _ _))

theorem metaQualifiers_length_le (identifier : Identifier) :
    identifier.metaQualifiers.length ≤ 1 := by
  rw [metaQualifiers]
  cases identifier.version <;> simp

theorem version_eq_some_iff (denotes : Denotes name segments identifier) :
    identifier.version = some number ↔
      Version.toQualifier number ∈ segments.map Text.lower ∧ Version.isValid number = true := by
  rw [← toQualifier_mem_metaQualifiers, denotes.mem_metaQualifiers, Version.isValid_iff_separated]
  simp [IsVersion, Version.toQualifier]

theorem exists_version_iff (denotes : Denotes name segments identifier) :
    (∃ number, identifier.version = some number ∧ Version.isValid number = true) ↔
      ∃ segment ∈ segments.map Text.lower, IsVersion segment := by
  simp only [denotes.version_eq_some_iff, IsVersion, ← Version.isValid_iff_separated]
  constructor
  · rintro ⟨number, ⟨member, valid⟩, -⟩
    exact ⟨_, member, number, rfl, valid⟩
  · rintro ⟨_, member, number, rfl, valid⟩
    exact ⟨number, ⟨member, valid⟩, valid⟩

theorem version_eq_none_iff (denotes : Denotes name segments identifier) :
    identifier.version = none ↔ ¬∃ segment ∈ segments.map Text.lower, IsVersion segment := by
  rw [← denotes.exists_version_iff, Option.eq_none_iff_forall_ne_some]
  constructor
  · rintro absent ⟨number, known, -⟩
    exact absent number known
  · intro absent number known
    exact absent ⟨number, known, (denotes.version_eq_some_iff.1 known).2⟩

/-- The version qualifier is the one that is found among the qualifiers with a meaning. -/
theorem findQualifier_metaQualifiers (denotes : Denotes name segments identifier) :
    Version.findQualifier identifier.metaQualifiers = identifier.versionQualifier := by
  rw [metaQualifiers, versionQualifier]
  rcases known : identifier.version with _ | number
  · rfl
  · have valid := (denotes.version_eq_some_iff.1 known).2
    simp [Version.findQualifier, Version.toQualifier, Version.isQualifier, Version.isMark, valid]

theorem mem_map_lower_iff (denotes : Denotes name segments identifier) (qualifier : Text) :
    qualifier ∈ segments.map Text.lower ↔
      qualifier ∈ identifier.qualifiers ∨ qualifier ∈ identifier.metaQualifiers := by
  rw [denotes.mem_qualifiers, denotes.mem_metaQualifiers, ← and_or_left, or_comm]
  exact (and_iff_left (em _)).symm

/-- Identifiers are equal if and only if they have the same name and the same set of segments. -/
theorem eq_iff {otherName : Text} {otherSegments : List Text} {other : Identifier}
    (denotes : Denotes name segments identifier)
    (otherDenotes : Denotes otherName otherSegments other) :
    identifier = other ↔ Text.lower name = Text.lower otherName ∧
      ∀ qualifier, qualifier ∈ segments.map Text.lower ↔
        qualifier ∈ otherSegments.map Text.lower := by
  constructor
  · rintro rfl
    refine ⟨denotes.name_eq.symm.trans otherDenotes.name_eq, ?_⟩
    intro qualifier
    rw [denotes.mem_map_lower_iff, otherDenotes.mem_map_lower_iff]
  · rintro ⟨names, same⟩
    have qualifiers : identifier.qualifiers = other.qualifiers := by
      apply SortedSet.eq_of_mem_iff denotes.sorted otherDenotes.sorted
      intro qualifier
      rw [denotes.mem_qualifiers, otherDenotes.mem_qualifiers, same]
    have version : identifier.version = other.version := by
      apply Option.ext
      intro number
      rw [denotes.version_eq_some_iff, otherDenotes.version_eq_some_iff, same]
    rw [← denotes.name_eq, ← otherDenotes.name_eq] at names
    rcases identifier with ⟨_, _, _⟩
    rcases other with ⟨_, _, _⟩
    simp_all

end Denotes

/-! ## Reading texts -/

theorem ofText_eq_of_not_spells {text : Text}
    (malformed : ¬∃ name segments, Spells text name segments) :
    ofText text = fail (.identifierFormat text) := by
  rw [ofText]
  split
  · rename_i whole
    rcases pieces : Text.splitOn '-' text with _ | ⟨name, segments⟩
    · rfl
    · exact absurd ⟨name, segments, spells_iff.2 ⟨pieces, whole⟩⟩ malformed
  · rfl

/-- A name and qualifiers make an identifier unless two of them are different versions. -/
theorem gathers_ofParts {name : Text} {segments : List Text} (named : isName name = true)
    (qualified : ∀ segment ∈ segments, isQualifier segment = true) :
    Gathers name segments (ofParts name segments) := by
  have start : Denotes name [] ⟨Text.lower name, [], none⟩ := by
    refine ⟨rfl, List.Pairwise.nil, ?_, ?_⟩ <;> simp [metaQualifiers]
  rw [ofParts, ofName, if_pos named]
  exact start.foldlM_addQualifier qualified

/-- A text of the grammar denotes an identifier unless two segments are different versions. -/
theorem Spells.gathers {text name : Text} {segments : List Text}
    (spells : Spells text name segments) : Gathers name segments (ofText text) := by
  have qualified : ∀ segment ∈ segments, isQualifier segment = true := by
    intro segment member
    exact isQualifier_iff.2 (spells.qualified segment member)
  rcases spells_iff.1 spells with ⟨pieces, whole⟩
  rw [ofText, if_pos whole, pieces]
  exact gathers_ofParts (isName_iff.2 spells.named) qualified

theorem Spells.denotes {text name : Text} {segments : List Text} {identifier : Identifier}
    (spells : Spells text name segments) (read : ofText text = .ok identifier) :
    Denotes name segments identifier := by
  have gathers := spells.gathers
  rw [read] at gathers
  cases gathers with
  | denotes denotes => exact denotes

/-- A failure without a line, of malformed text or of several versions. -/
def Refuses (failure : Failure) : Prop :=
  failure.line = none ∧ failure.cause.failureClass ∈ [.format, .ambiguousVersion]

theorem refuses_of_ofText {text : Text} {failure : Failure}
    (refused : ofText text = .error failure) : Refuses failure := by
  by_cases spelled : ∃ name segments, Spells text name segments
  · rcases spelled with ⟨name, segments, spells⟩
    have gathers := spells.gathers
    rw [refused] at gathers
    cases gathers with
    | conflict _ => exact ⟨rfl, by simp [Cause.failureClass]⟩
  · rw [ofText_eq_of_not_spells spelled, fail_eq_error_iff] at refused
    rcases refused with rfl
    exact ⟨rfl, by simp [Cause.failureClass]⟩

/-- The text is refused with a failure of a class. -/
def Refused (text : Text) (failureClass : FailureClass) : Prop :=
  ∃ failure, ofText text = .error failure ∧
    failureClass ∈ failure.cause.failureClass.generalizations

theorem refused_iff_of_eq_fail {text : Text} {cause : Cause} {failureClass : FailureClass}
    (refused : ofText text = fail cause) :
    Refused text failureClass ↔ failureClass ∈ cause.failureClass.generalizations := by
  simp [Refused, refused]

theorem refused_format_iff {text : Text} :
    Refused text .format ↔ ¬∃ name segments, Spells text name segments := by
  constructor
  · rintro ⟨failure, refused, malformed⟩ ⟨name, segments, spells⟩
    have gathers := spells.gathers
    rw [refused] at gathers
    cases gathers with
    | conflict _ => simp [Cause.failureClass, FailureClass.generalizations] at malformed
  · intro malformed
    rw [refused_iff_of_eq_fail (ofText_eq_of_not_spells malformed)]
    simp [Cause.failureClass, FailureClass.generalizations]

theorem Spells.refused_ambiguousVersion_iff {text name : Text} {segments : List Text}
    (spells : Spells text name segments) :
    Refused text .ambiguousVersion ↔ ∃ first second, Conflict segments first second := by
  have gathers := spells.gathers
  generalize read : ofText text = outcome at gathers
  cases gathers with
  | denotes denotes =>
      refine iff_of_false (by simp [Refused, read]) ?_
      rintro ⟨first, second, conflict⟩
      exact denotes.not_conflict first second conflict
  | @conflict first second conflict =>
      rw [refused_iff_of_eq_fail read]
      refine iff_of_true ?_ ⟨first, second, conflict⟩
      simp [Cause.failureClass, FailureClass.generalizations]

/-- Exactly the texts of the grammar denote identifiers, except those with two different versions,
and the identifier is the set of the segments in lower case, taken apart into versions and other
qualifiers. -/
theorem ofText_denotes :
    (∀ text, Refused text .format ↔ ¬∃ name segments, Spells text name segments) ∧
      (∀ text name segments, Spells text name segments →
        (Refused text .ambiguousVersion ↔ ∃ first second, Conflict segments first second) ∧
        ((¬∃ first second, Conflict segments first second) →
          ∃ identifier, ofText text = .ok identifier ∧ Denotes name segments identifier ∧
            identifier.metaQualifiers.length ≤ 1 ∧
            Version.findQualifier identifier.metaQualifiers = identifier.versionQualifier ∧
            ((∃ number, identifier.version = some number ∧ Version.isValid number = true) ↔
              ∃ segment ∈ segments.map Text.lower, IsVersion segment) ∧
            (identifier.version = none ↔
              ¬∃ segment ∈ segments.map Text.lower, IsVersion segment))) ∧
      ∀ left right leftName rightName leftSegments rightSegments identifier other,
        Spells left leftName leftSegments → Spells right rightName rightSegments →
        ofText left = .ok identifier → ofText right = .ok other →
          (identifier = other ↔ Text.lower leftName = Text.lower rightName ∧
            ∀ segment, segment ∈ leftSegments.map Text.lower ↔
              segment ∈ rightSegments.map Text.lower) := by
  refine ⟨fun _ => refused_format_iff, ?_, ?_⟩
  · intro text name segments spells
    refine ⟨spells.refused_ambiguousVersion_iff, ?_⟩
    intro unambiguous
    have gathers := spells.gathers
    generalize ofText text = outcome at gathers
    cases gathers with
    | @denotes identifier denotes =>
        exact ⟨identifier, rfl, denotes, Denotes.metaQualifiers_length_le identifier,
          denotes.findQualifier_metaQualifiers, denotes.exists_version_iff,
          denotes.version_eq_none_iff⟩
    | @conflict first second conflict => exact absurd ⟨first, second, conflict⟩ unambiguous
  · intro left right leftName rightName leftSegments rightSegments identifier other leftSpells
      rightSpells leftRead rightRead
    exact (leftSpells.denotes leftRead).eq_iff (rightSpells.denotes rightRead)

theorem ofText_denotes_unordered :
    (∃ identifier, ofText "My.Bundle-V1.0-Q2-v01-q1".toList = .ok identifier ∧
      ofText "my.BUNDLE-q1-Q1-V01-v1.0-q2-V1.0".toList = .ok identifier ∧
      ∃ number, identifier.version = some number ∧ Version.isValid number = true) ∧
      Refused "a-v1-V2".toList .ambiguousVersion ∧ Refused "a..b".toList .format := by
  rcases ofText_denotes with ⟨format, accepted, equal⟩
  have leftSpells : Spells "My.Bundle-V1.0-Q2-v01-q1".toList "My.Bundle".toList
      (["V1.0", "Q2", "v01", "q1"].map String.toList) := spells_iff.2 (by decide)
  have rightSpells : Spells "my.BUNDLE-q1-Q1-V01-v1.0-q2-V1.0".toList "my.BUNDLE".toList
      (["q1", "Q1", "V01", "v1.0", "q2", "V1.0"].map String.toList) := spells_iff.2 (by decide)
  have unambiguous {segments : List Text} (version : ∀ segment ∈ segments.map Text.lower,
      IsVersion segment → segment = "v1.0".toList) :
      ¬∃ first second, Conflict segments first second := by
    rintro ⟨first, second, firstMem, secondMem, firstVersion, secondVersion, different⟩
    exact different ((version first firstMem firstVersion).trans
      (version second secondMem secondVersion).symm)
  rcases (accepted _ _ _ leftSpells).2 (unambiguous (by decide)) with
    ⟨identifier, leftRead, -, -, -, version, -⟩
  rcases (accepted _ _ _ rightSpells).2 (unambiguous (by decide)) with ⟨other, rightRead, -⟩
  have forward : (["V1.0", "Q2", "v01", "q1"].map String.toList).map Text.lower ⊆
      (["q1", "Q1", "V01", "v1.0", "q2", "V1.0"].map String.toList).map Text.lower := by decide
  have backward : (["q1", "Q1", "V01", "v1.0", "q2", "V1.0"].map String.toList).map Text.lower ⊆
      (["V1.0", "Q2", "v01", "q1"].map String.toList).map Text.lower := by decide
  have same := (equal _ _ _ _ _ _ _ _ leftSpells rightSpells leftRead rightRead).2
    ⟨by decide, fun segment => ⟨@forward segment, @backward segment⟩⟩
  refine ⟨⟨identifier, leftRead, same ▸ rightRead, version.2 (by decide)⟩, ?_, ?_⟩
  · have spells : Spells "a-v1-V2".toList ['a'] (["v1", "V2"].map String.toList) :=
      spells_iff.2 (by decide)
    exact (accepted _ _ _ spells).1.2 ⟨"v1".toList, "v2".toList, by decide, by decide, by decide,
      by decide, by decide⟩
  · rw [format]
    rintro ⟨name, segments, spells⟩
    exact absurd (spells_iff.1 spells).2 (by decide)

end Identifier

end BundleDecl
