import BundleDecl.Proofs.Identifier.Parts
import BundleDecl.Proofs.Interchange.Acceptance

/-!
# Decoding identifiers

An identifier is decoded from the text that its name and its qualifiers make with hyphens between
them. So a part that has a hyphen itself is taken apart, and whether a qualifier is a version is
said by the qualifier and not by the list that it stands in. Of the three parts only the
meta-qualifiers are compared with what was read. Main statement: what is decoded has the parts that
the value states, each in its place, exactly if neither the name nor a qualifier has a hyphen and no
qualifier is a version.
-/

namespace BundleDecl

namespace Interchange

open Identifier (IsVersion Spells)

/-- What a value states of an identifier. -/
structure IdentifierData where
  name : Text
  qualifiers : List Text
  metaQualifiers : List Text

/-- The text that is made of the parts. -/
def IdentifierData.joined (data : IdentifierData) : Text :=
  Text.joinWith "-" (data.name :: data.qualifiers ++ data.metaQualifiers)

/-- An object states a text under a name. -/
def StatesText (members : List (Text × Json)) (name text : Text) : Prop :=
  Entries.get? name members = some (.string text)

/-- An object states texts under a name; without the member there are none. -/
def StatesTexts (members : List (Text × Json)) (name : Text) (texts : List Text) : Prop :=
  Entries.get? name members = some (.ofTexts texts) ∨
    Entries.get? name members = none ∧ texts = []

/-- A value states an identifier. -/
structure StatesIdentifier (value : Json) (data : IdentifierData) : Prop where
  members : ∃ members, value = .object members ∧
    StatesText members "name" data.name ∧
    StatesTexts members "qualifiers" data.qualifiers ∧
    StatesTexts members "meta_qualifiers" data.metaQualifiers

/-- An identifier has the qualifiers with a meaning that are stated as such, in lower case. -/
def KeepsMeta (data : IdentifierData) (identifier : Identifier) : Prop :=
  ∀ qualifier, qualifier ∈ identifier.metaQualifiers ↔
    qualifier ∈ data.metaQualifiers.map Text.lower

/-- An identifier has the parts that are stated, in lower case and each in its place. -/
structure Keeps (data : IdentifierData) (identifier : Identifier) : Prop where
  name : identifier.name = Text.lower data.name
  qualifiers : ∀ qualifier, qualifier ∈ identifier.qualifiers ↔
    qualifier ∈ data.qualifiers.map Text.lower
  metaQualifiers : KeepsMeta data identifier

/-- No part is one that is taken apart or that belongs in another place. -/
structure Placed (data : IdentifierData) : Prop where
  name : '-' ∉ data.name
  unbroken : ∀ qualifier ∈ data.qualifiers, '-' ∉ qualifier
  plain : ∀ qualifier ∈ data.qualifiers, ¬IsVersion (Text.lower qualifier)

/-- The text of the parts denotes the identifier, and the meta-qualifiers are kept. -/
def Reads (data : IdentifierData) (identifier : Identifier) : Prop :=
  (∃ name segments, Spells data.joined name segments ∧
    Identifier.Denotes name segments identifier) ∧ KeepsMeta data identifier

/-! ## What a value states -/

theorem exists_statesTexts {required : List Text} {fields : List (Text × Schema)}
    {members : List (Text × Json)}
    (conforms : Schema.Conforms (.record required fields) (.object members)) (name : Text)
    (known : (name, .list false (.text false)) ∈ fields) :
    ∃ texts, StatesTexts members name texts := by
  rcases conforms with _ | _ | _ | ⟨-, conform, -⟩
  rcases found : Entries.get? name members with _ | part
  · exact ⟨[], .inr ⟨found, rfl⟩⟩
  · rcases exists_texts_of_conforms (conform _ known part found) with ⟨texts, rfl, -⟩
    exact ⟨texts, .inl found⟩

theorem exists_statesIdentifier {value : Json}
    (conforms : Schema.Conforms identifierSchema value) :
    ∃ data, StatesIdentifier value data := by
  have record := conforms
  rcases conforms with _ | _ | _ | ⟨-, -, -⟩
  rename_i members
  rcases exists_member_of_conforms record "name" (by simp) List.mem_cons_self with
    ⟨_, named, ⟨-⟩⟩
  rcases exists_statesTexts record "qualifiers" (by simp) with ⟨qualifiers, plain⟩
  rcases exists_statesTexts record "meta_qualifiers" (by simp) with
    ⟨metaQualifiers, special⟩
  exact ⟨⟨_, qualifiers, metaQualifiers⟩, members, rfl, named, plain, special⟩

theorem StatesTexts.asTexts_member {members : List (Text × Json)} {name : Text} {texts : List Text}
    (states : StatesTexts members name texts) :
    ((Json.object members).member name).asTexts = texts := by
  rcases states with found | ⟨missing, rfl⟩
  · rw [Json.member, Json.asMembers, found]
    exact Json.asTexts_ofTexts texts
  · rw [Json.member, Json.asMembers, missing]
    rfl

/-! ## What is decoded -/

theorem keepsMeta_iff {data : IdentifierData} {identifier : Identifier} :
    identifier.metaQualifiers = SortedSet.ofList (data.metaQualifiers.map Text.lower) ↔
      KeepsMeta data identifier := by
  have sorted : identifier.metaQualifiers.Pairwise (· < ·) := by
    rw [Identifier.metaQualifiers]
    cases identifier.version <;> simp
  constructor
  · intro same qualifier
    rw [same, SortedSet.mem_ofList]
  · intro keeps
    apply SortedSet.eq_of_mem_iff sorted (SortedSet.pairwise_ofList _)
    intro qualifier
    rw [keeps, SortedSet.mem_ofList]

/-- A text denotes the identifier of its name and its segments. -/
theorem ofText_eq_ok_iff_denotes {text : Text} {identifier : Identifier} :
    Identifier.ofText text = .ok identifier ↔
      ∃ name segments, Spells text name segments ∧ Identifier.Denotes name segments identifier := by
  constructor
  · intro read
    by_cases spelled : ∃ name segments, Spells text name segments
    · rcases spelled with ⟨name, segments, spells⟩
      exact ⟨name, segments, spells, spells.denotes read⟩
    · rw [Identifier.ofText_eq_of_not_spells spelled] at read
      contradiction
  · rintro ⟨name, segments, spells, denotes⟩
    have gathers := spells.gathers
    generalize Identifier.ofText text = outcome at gathers
    cases gathers with
    | denotes other => rw [(other.eq_iff denotes).2 ⟨rfl, fun _ => Iff.rfl⟩]
    | conflict conflict => exact absurd conflict (denotes.not_conflict _ _)

variable {value : Json} {data : IdentifierData} {identifier : Identifier}

/-- Reading a value of the right form is reading the text of its parts. -/
theorem StatesIdentifier.ofJson_eq (states : StatesIdentifier value data)
    (conforms : Schema.Conforms identifierSchema value) :
    Identifier.ofJson value = (do
      let identifier ← (liftM (Identifier.ofText data.joined) : Except Refusal Identifier)
      if identifier.metaQualifiers = SortedSet.ofList (data.metaQualifiers.map Text.lower) then
        return identifier
      else
        .error (.misplacedVersion identifier)) := by
  rcases states with ⟨members, rfl, named, plain, special⟩
  have name : ((Json.object members).member "name").asText = data.name := by
    rw [Json.member, Json.asMembers, named]
    rfl
  rw [Identifier.ofJson, check_eq_ok_iff.2 conforms, name, plain.asTexts_member,
    special.asTexts_member]
  rfl

theorem StatesIdentifier.ofJson_eq_ok_iff (states : StatesIdentifier value data)
    (conforms : Schema.Conforms identifierSchema value) :
    Identifier.ofJson value = .ok identifier ↔ Reads data identifier := by
  rw [states.ofJson_eq conforms, bind_eq_ok_iff]
  simp only [liftM_eq_ok_iff, ofText_eq_ok_iff_denotes]
  constructor
  · rintro ⟨read, denoted, kept⟩
    split at kept
    · rename_i keeps
      rcases pure_eq_ok_iff.1 kept with rfl
      exact ⟨denoted, keepsMeta_iff.1 keeps⟩
    · contradiction
  · rintro ⟨denoted, keeps⟩
    exact ⟨identifier, denoted, if_pos (keepsMeta_iff.2 keeps)⟩

/-- Letter case does not make a hyphen. -/
theorem hyphen_mem_lower_iff {text : Text} : '-' ∈ Text.lower text ↔ '-' ∈ text := by
  simp [Text.lower, Text.lowerCharacter_eq_iff]

namespace Reads

variable (reads : Reads data identifier)

include reads

/-- Without a hyphen in them, the parts are the pieces that the text is taken apart into. -/
theorem denotes (named : '-' ∉ data.name)
    (unbroken : ∀ qualifier ∈ data.qualifiers, '-' ∉ qualifier) :
    Identifier.Denotes data.name (data.qualifiers ++ data.metaQualifiers) identifier := by
  rcases reads with ⟨⟨name, segments, spells, denotes⟩, keeps⟩
  have special : ∀ qualifier ∈ data.metaQualifiers, '-' ∉ qualifier := by
    intro qualifier member
    rw [← hyphen_mem_lower_iff]
    have version := (keeps _).2 (List.mem_map_of_mem member)
    rcases ((denotes.mem_metaQualifiers _).1 version).2 with ⟨number, folded, separated⟩
    rw [folded]
    exact Identifier.hyphen_notMem_of_isQualifier (Identifier.isQualifier_toQualifier
      (Version.isValid_iff_separated.2 separated))
  have pieces : Text.splitOn '-' data.joined =
      data.name :: (data.qualifiers ++ data.metaQualifiers) := by
    apply Text.splitOn_joinWith (List.cons_ne_nil _ _)
    exact List.forall_mem_cons.2 ⟨named, List.forall_mem_append.2 ⟨unbroken, special⟩⟩
  rw [(Identifier.spells_iff.1 spells).1] at pieces
  rcases List.cons.inj pieces with ⟨rfl, rfl⟩
  exact denotes

/-- What is read has the parts that are stated exactly if all of them are in their places. -/
theorem keeps_iff : Keeps data identifier ↔ Placed data := by
  rcases id reads with ⟨⟨name, segments, spells, denotes⟩, keepsMeta⟩
  constructor
  · intro keeps
    have canonical := Identifier.canonical_of_ofText
      (ofText_eq_ok_iff_denotes.2 ⟨name, segments, spells, denotes⟩)
    refine ⟨?_, ?_, ?_⟩
    · rw [← hyphen_mem_lower_iff, ← keeps.name]
      intro hyphen
      exact absurd (Identifier.isQualifierCharacter_of_isName canonical.isName hyphen) (by decide)
    · intro qualifier member
      rw [← hyphen_mem_lower_iff]
      have kept := (keeps.qualifiers _).2 (List.mem_map_of_mem member)
      exact Identifier.hyphen_notMem_of_isQualifier (canonical.isQualifier _ kept)
    · intro qualifier member
      have kept := (keeps.qualifiers _).2 (List.mem_map_of_mem member)
      exact ((denotes.mem_qualifiers _).1 kept).2
  · rintro ⟨named, unbroken, plain⟩
    have denotes := reads.denotes named unbroken
    refine ⟨denotes.name_eq, ?_, keepsMeta⟩
    intro qualifier
    rw [denotes.mem_qualifiers, List.map_append, List.mem_append]
    constructor
    · rintro ⟨stated | special, notVersion⟩
      · exact stated
      · exact absurd ((denotes.mem_metaQualifiers _).1 ((keepsMeta _).2 special)).2 notVersion
    · intro stated
      refine ⟨.inl stated, ?_⟩
      rcases List.mem_map.1 stated with ⟨given, member, rfl⟩
      exact plain given member

end Reads

end Interchange

namespace Identifier

open Interchange

/-- A value that does not have the form of the schema is refused for that. A value that has it
states an identifier, and it is decoded or refused for one of its parts or for its version. It is
decoded exactly if the text of its parts denotes an identifier that keeps the meta-qualifiers, and
then the identifier keeps the other parts, too, exactly if all of them are in their places. -/
theorem ofJson_keeps_iff (value : Json) :
    (¬Schema.Conforms identifierSchema value →
      ∃ violation, ofJson value = .error (.schema violation)) ∧
    (Schema.Conforms identifierSchema value → (∃ data, StatesIdentifier value data) ∧
      ((∃ identifier, ofJson value = .ok identifier) ∨
        (∃ identifier, ofJson value = .error (.misplacedVersion identifier)) ∨
        ∃ failure, ofJson value = .error (.failure failure)) ∧
      ∀ data, StatesIdentifier value data → ∀ identifier,
        (ofJson value = .ok identifier ↔ Reads data identifier) ∧
        (ofJson value = .ok identifier → (Keeps data identifier ↔ Placed data))) := by
  constructor
  · intro fails
    rcases checked : check identifierSchema value with refusal | ⟨⟩
    · rcases exists_violation_of_check checked with ⟨violation, rfl⟩
      exact ⟨violation, by rw [ofJson, checked]; rfl⟩
    · exact absurd (check_eq_ok_iff.1 checked) fails
  · intro conforms
    refine ⟨exists_statesIdentifier conforms, ?_, ?_⟩
    · rcases exists_statesIdentifier conforms with ⟨data, states⟩
      rw [states.ofJson_eq conforms]
      rcases ofText data.joined with failure | identifier
      · exact .inr (.inr ⟨failure, rfl⟩)
      · by_cases kept : identifier.metaQualifiers =
          SortedSet.ofList (data.metaQualifiers.map Text.lower)
        · exact .inl ⟨identifier, if_pos kept⟩
        · exact .inr (.inl ⟨identifier, if_neg kept⟩)
    · intro data states identifier
      have decoded : ofJson value = .ok identifier ↔ Reads data identifier :=
        states.ofJson_eq_ok_iff conforms
      exact ⟨decoded, fun read => (decoded.1 read).keeps_iff⟩

theorem ofJson_keeps_iff_mixed :
    let value : Json := .object [
      ("qualifiers", .ofTexts ["Q2".toList, "q1".toList, "q2".toList]),
      ("name", .string "My.Bundle".toList),
      ("meta_qualifiers", .ofTexts ["V1.0".toList])]
    let data : IdentifierData :=
      ⟨"My.Bundle".toList, ["Q2".toList, "q1".toList, "q2".toList], ["V1.0".toList]⟩
    let identifier : Identifier :=
      ⟨"my.bundle".toList, ["q1".toList, "q2".toList], some "1.0".toList⟩
    Schema.Conforms identifierSchema value ∧ StatesIdentifier value data ∧ Placed data ∧
      ofJson value = .ok identifier ∧ Keeps data identifier := by
  intro value data identifier
  have conforms : Schema.Conforms identifierSchema value := check_eq_ok_iff.1 rfl
  have states : StatesIdentifier value data := ⟨_, rfl, rfl, .inl rfl, .inl rfl⟩
  have placed : Placed data := ⟨by decide, by decide, by decide⟩
  have decoded : ofJson value = .ok identifier := rfl
  rcases (ofJson_keeps_iff value).2 conforms with ⟨-, -, outcome⟩
  exact ⟨conforms, states, placed, decoded, ((outcome data states identifier).2 decoded).2 placed⟩

/-- A name with a hyphen is decoded as a shorter name and a qualifier. -/
theorem ofJson_hyphenated_name :
    let value : Json := .object [("name", .string "a-b".toList)]
    let data : IdentifierData := ⟨"a-b".toList, [], []⟩
    let identifier : Identifier := ⟨['a'], [['b']], none⟩
    Schema.Conforms identifierSchema value ∧ StatesIdentifier value data ∧
      ofJson value = .ok identifier ∧ ¬Keeps data identifier := by
  intro value data identifier
  refine ⟨check_eq_ok_iff.1 rfl, ⟨_, rfl, rfl, .inr ⟨rfl, rfl⟩, .inr ⟨rfl, rfl⟩⟩, rfl, ?_⟩
  intro keeps
  exact absurd keeps.name (by decide)

end Identifier

end BundleDecl
