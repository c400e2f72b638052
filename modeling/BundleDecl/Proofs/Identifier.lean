import BundleDecl.Identifier
import BundleDecl.Proofs.Failure
import BundleDecl.Proofs.Version

/-!
# The canonical text of identifiers

Every identifier that was made of a name and qualifiers has the canonical form: lower case, sorted
qualifiers none of which is a version, and a valid version. An identifier in canonical form is what
its text denotes.

Letter case is compared by code points: the upper-case letters are 65 to 90.
-/

namespace BundleDecl

namespace Text

theorem toNat_toLower (character : Char) :
    character.toLower.toNat =
      if 65 ≤ character.toNat ∧ character.toNat ≤ 90 then character.toNat + 32
      else character.toNat := by
  unfold Char.toLower
  split
  · rename_i upper
    simp only [ge_iff_le, UInt32.le_iff_toNat_le] at upper
    rw [if_pos (by simpa using upper), Char.toNat_mk, UInt32.toNat_add]
    simp at upper ⊢
    omega
  · rename_i upper
    simp only [ge_iff_le, UInt32.le_iff_toNat_le] at upper
    rw [if_neg (by simpa using upper)]

theorem lowerCharacter_lowerCharacter (character : Char) :
    lowerCharacter (lowerCharacter character) = lowerCharacter character := by
  apply Char.toNat_inj.1
  simp only [lowerCharacter, toNat_toLower]
  by_cases upper : 65 ≤ character.toNat ∧ character.toNat ≤ 90
  · rw [if_pos upper, if_neg (by omega)]
  · rw [if_neg upper, if_neg upper]

theorem lower_lower (text : Text) : lower (lower text) = lower text := by
  simp [lower, lowerCharacter_lowerCharacter]

theorem lowerCharacter_eq_self {character : Char}
    (notUpper : character.toNat < 65 ∨ 90 < character.toNat) :
    lowerCharacter character = character := by
  apply Char.toNat_inj.1
  simp only [lowerCharacter, toNat_toLower]
  split <;> omega

theorem lowerCharacter_eq_iff {character other : Char}
    (noLetter : other.toNat < 65 ∨ 122 < other.toNat ∨ 90 < other.toNat ∧ other.toNat < 97) :
    lowerCharacter character = other ↔ character = other := by
  simp only [← Char.toNat_inj, lowerCharacter, toNat_toLower]
  split <;> omega

/-- The characters that become a lower-case letter in lower case are that letter and its upper-case
form. -/
theorem lowerCharacter_eq_letter_iff {character : Char} (lower upper : Char)
    (letter : 97 ≤ lower.toNat ∧ lower.toNat ≤ 122) (cases : upper.toNat + 32 = lower.toNat) :
    lowerCharacter character = lower ↔ character ∈ [lower, upper] := by
  simp only [List.mem_cons, List.not_mem_nil, or_false, ← Char.toNat_inj, lowerCharacter,
    toNat_toLower]
  split <;> omega

end Text

namespace Identifier

@[simp]
theorem isNameCharacter_lowerCharacter (character : Char) :
    isNameCharacter (Text.lowerCharacter character) = isNameCharacter character := by
  have alphanum : (Text.lowerCharacter character).isAlphanum = character.isAlphanum := by
    rw [Bool.eq_iff_iff, Text.isAlphanum_iff, Text.isAlphanum_iff, Text.lowerCharacter,
      Text.toNat_toLower]
    split <;> omega
  have underscore : Text.lowerCharacter character = '_' ↔ character = '_' :=
    Text.lowerCharacter_eq_iff (by decide)
  simp [isNameCharacter, alphanum, underscore]

@[simp]
theorem isQualifierCharacter_lowerCharacter (character : Char) :
    isQualifierCharacter (Text.lowerCharacter character) = isQualifierCharacter character := by
  have dot : Text.lowerCharacter character = '.' ↔ character = '.' :=
    Text.lowerCharacter_eq_iff (by decide)
  simp [isQualifierCharacter, dot]

theorem splitOn_lower (text : Text) :
    Text.splitOn '.' (Text.lower text) = (Text.splitOn '.' text).map Text.lower := by
  apply Text.splitWhere_map
  intro character
  have dot : Text.lowerCharacter character = '.' ↔ character = '.' :=
    Text.lowerCharacter_eq_iff (by decide)
  simp [dot]

theorem isName_lower (name : Text) : isName (Text.lower name) = isName name := by
  simp only [isName, splitOn_lower, List.all_map]
  congr 1
  funext word
  simp [Function.comp_def, Text.lower]

theorem isQualifier_lower (qualifier : Text) :
    isQualifier (Text.lower qualifier) = isQualifier qualifier := by
  simp [isQualifier, Text.lower, Function.comp_def]

/-- The form that every identifier made of a name and qualifiers has. -/
structure Canonical (identifier : Identifier) : Prop where
  isName : isName identifier.name = true
  nameFolded : Text.lower identifier.name = identifier.name
  sorted : identifier.qualifiers.Pairwise (· < ·)
  isQualifier : ∀ qualifier ∈ identifier.qualifiers, isQualifier qualifier = true
  qualifierFolded : ∀ qualifier ∈ identifier.qualifiers, Text.lower qualifier = qualifier
  notVersion : ∀ qualifier ∈ identifier.qualifiers, Version.isQualifier qualifier = false
  isValid : ∀ version ∈ identifier.version, Version.isValid version = true

theorem canonical_of_ofName {name : Text} {identifier : Identifier}
    (made : ofName name = .ok identifier) : identifier.Canonical := by
  rw [ofName] at made
  split at made
  · rename_i isName
    rcases Except.ok.inj made with rfl
    constructor <;> simp [isName_lower, isName, Text.lower_lower]
  · simp [fail] at made

theorem addVersion_canonical {identifier next : Identifier} {version : Text}
    (canonical : identifier.Canonical) (valid : Version.isValid version = true)
    (added : identifier.addVersion version = .ok next) : next.Canonical := by
  rw [addVersion] at added
  split at added
  · rcases Except.ok.inj added with rfl
    exact { canonical with isValid := by simpa using valid }
  · split at added
    · rcases Except.ok.inj added with rfl
      exact canonical
    · simp [fail] at added

theorem addQualifier_canonical {identifier next : Identifier} {qualifier : Text}
    (canonical : identifier.Canonical) (added : identifier.addQualifier qualifier = .ok next) :
    next.Canonical := by
  rw [addQualifier] at added
  split at added
  · rename_i isQualifier
    simp only at added
    split at added
    · rename_i isVersion
      exact addVersion_canonical canonical (Version.isValid_tail isVersion) added
    · rename_i notVersion
      rcases Except.ok.inj added with rfl
      refine { canonical with
        sorted := SortedSet.pairwise_insert _ canonical.sorted
        isQualifier := ?_, qualifierFolded := ?_, notVersion := ?_ }
      · intro other member
        rcases SortedSet.mem_insert.1 member with rfl | member
        · rw [isQualifier_lower, isQualifier]
        · exact canonical.isQualifier other member
      · intro other member
        rcases SortedSet.mem_insert.1 member with rfl | member
        · exact Text.lower_lower qualifier
        · exact canonical.qualifierFolded other member
      · intro other member
        rcases SortedSet.mem_insert.1 member with rfl | member
        · simpa using notVersion
        · exact canonical.notVersion other member
  · simp [fail] at added

/-- An identifier made of a name and qualifiers is in canonical form. -/
theorem canonical_of_ofParts {name : Text} {qualifiers : List Text} {identifier : Identifier}
    (made : ofParts name qualifiers = .ok identifier) : identifier.Canonical := by
  rw [ofParts, bind_eq_ok_iff] at made
  rcases made with ⟨bare, start, added⟩
  refine invariant_of_foldlM_eq_ok Canonical ?_ (canonical_of_ofName start) added
  intro identifier qualifier next canonical
  exact addQualifier_canonical canonical

theorem canonical_of_ofText {text : Text} {identifier : Identifier}
    (made : ofText text = .ok identifier) : identifier.Canonical := by
  rw [ofText] at made
  split at made
  · split at made
    · exact canonical_of_ofParts made
    · simp [fail] at made
  · simp [fail] at made

theorem insert_eq_append_singleton {element : Text} {elements : List Text}
    (last : ∀ other ∈ elements, other < element) :
    SortedSet.insert element elements = elements ++ [element] := by
  induction elements with
  | nil => rfl
  | cons first rest ih =>
      have below := last first List.mem_cons_self
      rw [SortedSet.insert, if_neg (Std.Asymm.asymm _ _ below), if_pos below, List.cons_append,
        ih fun other member => last other (List.mem_cons_of_mem _ member)]

/-- Qualifiers of canonical form that are added in increasing order are kept as they are. -/
theorem foldlM_addQualifier (identifier : Identifier) {qualifiers : List Text}
    (sorted : (identifier.qualifiers ++ qualifiers).Pairwise (· < ·))
    (isQualifier : ∀ qualifier ∈ qualifiers, isQualifier qualifier = true)
    (folded : ∀ qualifier ∈ qualifiers, Text.lower qualifier = qualifier)
    (notVersion : ∀ qualifier ∈ qualifiers, Version.isQualifier qualifier = false) :
    qualifiers.foldlM addQualifier identifier =
      .ok { identifier with qualifiers := identifier.qualifiers ++ qualifiers } := by
  induction qualifiers generalizing identifier with
  | nil => simp [pure, Except.pure]
  | cons qualifier qualifiers ih =>
      simp only [List.mem_cons, forall_eq_or_imp] at isQualifier folded notVersion
      have last : ∀ other ∈ identifier.qualifiers, other < qualifier := by
        intro other member
        exact (List.pairwise_append.1 sorted).2.2 other member qualifier List.mem_cons_self
      have added : identifier.addQualifier qualifier =
          .ok { identifier with qualifiers := identifier.qualifiers ++ [qualifier] } := by
        simp [addQualifier, isQualifier.1, folded.1, notVersion.1,
          insert_eq_append_singleton last]
      rw [List.foldlM_cons, added]
      simp only [bind, Except.bind]
      rw [ih _ (by simpa using sorted) isQualifier.2 folded.2 notVersion.2]
      simp

theorem toNat_of_isValid {version : Text} (valid : Version.isValid version = true)
    {character : Char} (member : character ∈ version) :
    46 ≤ character.toNat ∧ character.toNat ≤ 57 := by
  rcases Version.isDigit_or_eq_dot_of_isValid valid member with digit | rfl
  · have bounds := Char.isDigit_iff_toNat.1 digit
    have zero : '0'.toNat = 48 := rfl
    have nine : '9'.toNat = 57 := rfl
    omega
  · decide

theorem lower_eq_self_of_isValid {version : Text} (valid : Version.isValid version = true) :
    Text.lower version = version := by
  refine (List.map_congr_left ?_).trans (List.map_id version)
  intro character member
  have bounds := toNat_of_isValid valid member
  exact Text.lowerCharacter_eq_self (by omega)

theorem lower_toQualifier {version : Text} (valid : Version.isValid version = true) :
    Text.lower (Version.toQualifier version) = Version.toQualifier version :=
  congrArg (List.cons 'v') (lower_eq_self_of_isValid valid)

theorem isQualifier_toQualifier {version : Text} (valid : Version.isValid version = true) :
    isQualifier (Version.toQualifier version) = true := by
  simp only [isQualifier, Version.toQualifier, List.isEmpty_cons, Bool.not_false,
    List.all_cons, List.all_eq_true, Bool.true_and, Bool.and_eq_true]
  refine ⟨by decide, ?_⟩
  intro character member
  rcases Version.isDigit_or_eq_dot_of_isValid valid member with digit | rfl
  · simp [isQualifierCharacter, isNameCharacter, Char.isAlphanum, digit]
  · decide

theorem hyphen_notMem_of_isQualifier {qualifier : Text}
    (qualified : isQualifier qualifier = true) : '-' ∉ qualifier := by
  intro member
  simp only [isQualifier, Bool.and_eq_true, List.all_eq_true] at qualified
  exact absurd (qualified.2 _ member) (by decide)

theorem isQualifierCharacter_of_isName {name : Text} (named : isName name = true)
    {character : Char} (member : character ∈ name) : isQualifierCharacter character = true := by
  simp only [isName, List.all_eq_true, Bool.and_eq_true] at named
  rcases Text.mem_splitOn '.' member with rfl | ⟨word, wordMem, charMem⟩
  · decide
  · simp [isQualifierCharacter, (named word wordMem).2 character charMem]

namespace Canonical

variable {identifier : Identifier}

theorem mem_metaQualifiers (canonical : identifier.Canonical) {qualifier : Text}
    (member : qualifier ∈ identifier.metaQualifiers) :
    ∃ version, identifier.version = some version ∧ Version.isValid version = true ∧
      qualifier = Version.toQualifier version := by
  rw [metaQualifiers] at member
  rcases found : identifier.version with _ | version
  · simp [found] at member
  · refine ⟨version, rfl, canonical.isValid version (by simp [found]), ?_⟩
    simpa [found] using member

theorem isQualifier_of_mem (canonical : identifier.Canonical) {qualifier : Text}
    (member : qualifier ∈ identifier.qualifiers ++ identifier.metaQualifiers) :
    Identifier.isQualifier qualifier = true := by
  rcases List.mem_append.1 member with member | member
  · exact canonical.isQualifier qualifier member
  · rcases canonical.mem_metaQualifiers member with ⟨version, -, valid, rfl⟩
    exact isQualifier_toQualifier valid

/-- The text of an identifier consists of letters, digits, underscores, dots and hyphens. -/
theorem mem_toText (canonical : identifier.Canonical) {character : Char}
    (member : character ∈ identifier.toText) :
    character = '-' ∨ isQualifierCharacter character = true := by
  rcases Text.mem_joinWith member with hyphen | ⟨piece, pieceMem, charMem⟩
  · exact Or.inl (by simpa using hyphen)
  · right
    rcases List.mem_cons.1 pieceMem with rfl | pieceMem
    · exact isQualifierCharacter_of_isName canonical.isName charMem
    · have qualified := canonical.isQualifier_of_mem pieceMem
      simp only [Identifier.isQualifier, Bool.and_eq_true, List.all_eq_true] at qualified
      exact qualified.2 character charMem

theorem splitOn_toText (canonical : identifier.Canonical) :
    Text.splitOn '-' identifier.toText =
      identifier.name :: (identifier.qualifiers ++ identifier.metaQualifiers) := by
  apply Text.splitOn_joinWith (List.cons_ne_nil _ _)
  intro piece member
  rcases List.mem_cons.1 member with rfl | member
  · intro hyphen
    exact absurd (isQualifierCharacter_of_isName canonical.isName hyphen) (by decide)
  · exact hyphen_notMem_of_isQualifier (canonical.isQualifier_of_mem member)

theorem ofParts_eq_ok (canonical : identifier.Canonical) :
    ofParts identifier.name (identifier.qualifiers ++ identifier.metaQualifiers) =
      .ok identifier := by
  rcases identifier with ⟨name, qualifiers, version⟩
  have start : ofName name = .ok ⟨name, [], none⟩ := by
    simpa [ofName, canonical.isName] using canonical.nameFolded
  have plain := foldlM_addQualifier ⟨name, [], none⟩
    (by simpa using canonical.sorted) canonical.isQualifier canonical.qualifierFolded
    canonical.notVersion
  rw [ofParts, start]
  simp only [bind, Except.bind, List.foldlM_append, plain, List.nil_append]
  rcases version with _ | version
  · rfl
  · have valid := canonical.isValid version rfl
    have isVersion : Version.isQualifier (Version.toQualifier version) = true := by
      simp [Version.isQualifier, Version.toQualifier, Version.isMark, valid]
    simp only [metaQualifiers, Option.map_some, Option.toList_some, List.foldlM_cons,
      addQualifier, isQualifier_toQualifier valid, lower_toQualifier valid, isVersion, if_true]
    rfl

/-- An identifier in canonical form is what its text denotes. -/
theorem ofText_eq_ok (canonical : identifier.Canonical) :
    ofText identifier.toText = .ok identifier := by
  have pieces := canonical.splitOn_toText
  have whole : isIdentifier identifier.toText = true := by
    rw [isIdentifier, pieces]
    simp only [canonical.isName, Bool.true_and, List.all_eq_true]
    intro qualifier member
    exact canonical.isQualifier_of_mem member
  rw [ofText, if_pos whole, pieces]
  exact canonical.ofParts_eq_ok

end Canonical

end Identifier

end BundleDecl
