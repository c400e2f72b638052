import BundleDecl.Proofs.Interchange
import BundleDecl.Proofs.Schema.Violation

/-!
# What a value states

A value that has the form of declarations states targets with dependencies: every part that is
looked up in it is there. Reading it makes entries of what is stated, target by target, and fails
unless all texts are accepted and no identifier comes up twice.
-/

namespace BundleDecl

/-- The members of an object are found whatever their order is. -/
theorem Json.member_of_perm {members fields : List (Text × Json)} (perm : members.Perm fields)
    (distinct : (fields.map Prod.fst).Nodup) (name : Text) :
    (object members).member name = (object fields).member name := by
  have found := Entries.get?_eq_of_perm ((perm.map Prod.fst).nodup_iff.2 distinct) perm name
  exact congrArg (Option.getD · null) found

namespace Interchange

/-! ## What a value states -/

/-- What a value states of a dependency. -/
structure DependencyData where
  kinds : List Text
  range : Text
  metadata : List (Text × Text)

/-- What a value states of a target. -/
structure TargetData where
  bundle : Text
  dependencies : List DependencyData

namespace DependencyData

/-- The members that a dependency must have. -/
def requiredMembers (data : DependencyData) : List (Text × Json) :=
  [("kinds", .ofTexts data.kinds), ("range", .string data.range)]

def metadataMember (data : DependencyData) : Text × Json :=
  ("metadata", .object (data.metadata.map fun entry => (entry.1, .string entry.2)))

def toJson (data : DependencyData) : Json :=
  .object (data.requiredMembers ++ [data.metadataMember])

theorem distinct_members (data : DependencyData) :
    ((data.requiredMembers ++ [data.metadataMember]).map Prod.fst).Nodup := by
  have names : (data.requiredMembers ++ [data.metadataMember]).map Prod.fst =
      ["kinds".toList, "range".toList, "metadata".toList] := rfl
  rw [names]
  decide

end DependencyData

/-- A value states a dependency. Its members may stand in any order, and without metadata there are
none. -/
structure StatesDependency (value : Json) (data : DependencyData) : Prop where
  kinds : data.kinds ≠ []
  range : data.range ≠ []
  distinct : (data.metadata.map Prod.fst).Nodup
  members : ∃ members, value = .object members ∧
    (members.Perm (data.requiredMembers ++ [data.metadataMember]) ∨
      members.Perm data.requiredMembers ∧ data.metadata = [])

/-- A value states a target. -/
structure StatesTarget (value : Json) (target : TargetData) : Prop where
  bundle : target.bundle ≠ []
  members : ∃ members parts, value = .object members ∧
    members.Perm [("bundle", .string target.bundle), ("entries", .array parts)] ∧
    List.Forall₂ StatesDependency parts target.dependencies

/-- A value states the targets of declarations. -/
def States (value : Json) (targets : List TargetData) : Prop :=
  ∃ parts, value = .object [("dependencies", .array parts)] ∧
    List.Forall₂ StatesTarget parts targets

/-- An array of the form of texts is one. -/
theorem exists_texts_of_conforms {nonEmpty : Bool} {value : Json}
    (conforms : Schema.Conforms (.list nonEmpty (.text false)) value) :
    ∃ texts, value = .ofTexts texts ∧ (nonEmpty = true → texts ≠ []) := by
  rcases conforms with _ | ⟨filled, conform⟩
  rename_i parts
  have strings : ∀ part ∈ parts, ∃ text, part = .string text := by
    intro part member
    rcases conform part member with ⟨-⟩
    exact ⟨_, rfl⟩
  rcases exists_forall₂ strings with ⟨texts, related⟩
  have parts_eq : parts = texts.map .string := by
    rw [← List.forall₂_eq_eq_eq, List.forall₂_map_right_iff]
    exact related
  refine ⟨texts, congrArg _ parts_eq, ?_⟩
  rintro nonEmpty rfl
  exact filled nonEmpty parts_eq

theorem exists_metadata_of_conforms {value : Json} (keyed : value.Keyed)
    (conforms : Schema.Conforms (.dictionary (.text false)) value) :
    ∃ metadata : List (Text × Text), (metadata.map Prod.fst).Nodup ∧
      value = .object (metadata.map fun entry => (entry.1, .string entry.2)) := by
  rcases conforms with _ | _ | ⟨conform⟩
  rename_i members
  have distinct := (Json.keyed_object_iff.1 keyed).1
  have strings : ∀ member ∈ members, ∃ entry : Text × Text,
      member = (entry.1, .string entry.2) := by
    rintro ⟨name, part⟩ member
    rcases conform _ member with ⟨-⟩
    exact ⟨(name, _), rfl⟩
  rcases exists_forall₂ strings with ⟨metadata, related⟩
  have members_eq : members = metadata.map fun entry => (entry.1, .string entry.2) := by
    rw [← List.forall₂_eq_eq_eq, List.forall₂_map_right_iff]
    exact related
  subst members_eq
  rw [List.map_map] at distinct
  exact ⟨metadata, distinct, rfl⟩

/-- A required member of an object with the form of a record is there, in the form of its field. -/
theorem exists_member_of_conforms {required : List Text} {fields : List (Text × Schema)}
    {members : List (Text × Json)}
    (conforms : Schema.Conforms (.record required fields) (.object members)) {form : Schema}
    (name : Text) (isRequired : name ∈ required) (known : (name, form) ∈ fields) :
    ∃ part, Entries.get? name members = some part ∧ Schema.Conforms form part := by
  rcases conforms with _ | _ | _ | ⟨present, conform, -⟩
  have found := present name isRequired
  rw [← Entries.has_eq_true_iff, Entries.has, Option.isSome_iff_exists] at found
  rcases found with ⟨part, found⟩
  exact ⟨part, found, conform _ known part found⟩

theorem exists_statesDependency {value : Json} (keyed : value.Keyed)
    (conforms : Schema.Conforms dependencySchema value) :
    ∃ data, StatesDependency value data := by
  have record := conforms
  rcases conforms with _ | _ | _ | ⟨-, conform, known⟩
  rename_i members
  rcases Json.keyed_object_iff.1 keyed with ⟨distinct, keyed⟩
  rcases exists_member_of_conforms record "kinds" (by simp) List.mem_cons_self with
    ⟨_, kindsFound, kindsConform⟩
  rcases exists_texts_of_conforms kindsConform with ⟨kinds, rfl, kindsFilled⟩
  rcases exists_member_of_conforms record "range" (by simp)
    (List.mem_cons_of_mem _ List.mem_cons_self) with ⟨_, rangeFound, ⟨rangeFilled⟩⟩
  rename_i range
  rcases metadataFound : Entries.get? "metadata".toList members with _ | part
  · let data : DependencyData := ⟨kinds, range, []⟩
    have perm : members.Perm data.requiredMembers := by
      refine Entries.perm_of_get?_eq_some distinct (Entries.nodup_of_append data.distinct_members)
        ?_ ?_
      · intro name member
        have absent : name ≠ "metadata".toList := by
          rintro rfl
          rw [← Entries.has_eq_true_iff, Entries.has, metadataFound] at member
          contradiction
        simpa only [DependencyData.requiredMembers, List.map_cons, List.map_nil, List.mem_cons,
          absent, false_or] using known name member
      · exact List.forall_mem_cons.2 ⟨kindsFound, List.forall_mem_singleton.2 rangeFound⟩
    exact ⟨data, kindsFilled rfl, rangeFilled rfl, .nil, members, rfl, .inr ⟨perm, rfl⟩⟩
  · have metadataConform := conform ("metadata", .dictionary (.text false)) (by simp) part
      metadataFound
    have partKeyed := keyed _ (Entries.mem_of_get?_eq_some metadataFound)
    rcases exists_metadata_of_conforms partKeyed metadataConform with
      ⟨metadata, metadataDistinct, rfl⟩
    let data : DependencyData := ⟨kinds, range, metadata⟩
    have perm : members.Perm (data.requiredMembers ++ [data.metadataMember]) := by
      refine Entries.perm_of_get?_eq_some distinct data.distinct_members known ?_
      exact List.forall_mem_cons.2 ⟨kindsFound, List.forall_mem_cons.2 ⟨rangeFound,
        List.forall_mem_singleton.2 metadataFound⟩⟩
    exact ⟨data, kindsFilled rfl, rangeFilled rfl, metadataDistinct, members, rfl, .inl perm⟩

theorem exists_statesTarget {value : Json} (keyed : value.Keyed)
    (conforms : Schema.Conforms targetSchema value) : ∃ target, StatesTarget value target := by
  have record := conforms
  rcases conforms with _ | _ | _ | ⟨-, -, known⟩
  rename_i members
  rcases Json.keyed_object_iff.1 keyed with ⟨distinct, keyed⟩
  rcases exists_member_of_conforms record "bundle" (by simp) List.mem_cons_self with
    ⟨_, bundleFound, ⟨bundleFilled⟩⟩
  rename_i bundle
  rcases exists_member_of_conforms record "entries" (by simp)
    (List.mem_cons_of_mem _ List.mem_cons_self) with
      ⟨_, entriesFound, _ | ⟨-, conform⟩⟩
  rename_i parts
  have partsKeyed := Json.keyed_array_iff.1 (keyed _ (Entries.mem_of_get?_eq_some entriesFound))
  have stated : ∀ part ∈ parts, ∃ data, StatesDependency part data := by
    intro part member
    exact exists_statesDependency (partsKeyed part member) (conform part member)
  rcases exists_forall₂ stated with ⟨dependencies, related⟩
  refine ⟨⟨bundle, dependencies⟩, bundleFilled rfl, members, parts, rfl, ?_, related⟩
  refine Entries.perm_of_get?_eq_some distinct (by simp) known ?_
  exact List.forall_mem_cons.2 ⟨bundleFound, List.forall_mem_singleton.2 entriesFound⟩

/-- A value that has the form of declarations states targets. -/
theorem exists_states {value : Json} (keyed : value.Keyed)
    (conforms : Schema.Conforms declarationsSchema value) : ∃ targets, States value targets := by
  have record := conforms
  rcases conforms with _ | _ | _ | ⟨-, -, known⟩
  rename_i members
  rcases Json.keyed_object_iff.1 keyed with ⟨distinct, keyed⟩
  rcases exists_member_of_conforms record "dependencies" (by simp) List.mem_cons_self with
    ⟨_, found, _ | ⟨-, conform⟩⟩
  rename_i parts
  have partsKeyed := Json.keyed_array_iff.1 (keyed _ (Entries.mem_of_get?_eq_some found))
  have stated : ∀ part ∈ parts, ∃ target, StatesTarget part target := by
    intro part member
    exact exists_statesTarget (partsKeyed part member) (conform part member)
  rcases exists_forall₂ stated with ⟨targets, related⟩
  have perm : members.Perm [("dependencies", .array parts)] := by
    refine Entries.perm_of_get?_eq_some distinct (List.nodup_singleton _) known ?_
    exact List.forall_mem_singleton.2 found
  exact ⟨targets, parts, congrArg _ (List.perm_singleton.1 perm), related⟩

/-! ## What is read -/

namespace DependencyData

/-- Every text that a dependency is made of is accepted. -/
structure Acceptable (data : DependencyData) : Prop where
  range : ∃ range, Range.ofText data.range = .ok range
  kinds : ∀ kind ∈ data.kinds, Dependency.isKind kind = true ∧ Dependency.isReserved kind = false
  names : ∀ name ∈ data.metadata.map Prod.fst,
    Dependency.isMetadataName name = true ∧ Dependency.isReserved name = false

/-- A dependency has the parts that are stated. -/
structure Denotes (data : DependencyData) (dependency : Dependency) : Prop where
  kinds : dependency.kinds = SortedSet.ofList data.kinds
  range : Range.ofText data.range = .ok dependency.range
  metadata : dependency.metadata = data.metadata

theorem Acceptable.exists_denotes {data : DependencyData} (acceptable : data.Acceptable) :
    ∃ dependency, data.Denotes dependency := by
  rcases acceptable.range with ⟨range, read⟩
  exact ⟨⟨SortedSet.ofList data.kinds, range, data.metadata⟩, rfl, read, rfl⟩

end DependencyData

variable {value : Json}

/-- What is looked up in a value that states a dependency is there. -/
theorem StatesDependency.parts {data : DependencyData} (states : StatesDependency value data) :
    (value.member "kinds").asTexts = data.kinds ∧
      (value.member "range").asText = data.range ∧
      (value.member "metadata").asMembers.map (fun member => (member.1, member.2.asText)) =
        data.metadata := by
  rcases states.members with ⟨members, rfl, perm | ⟨perm, none⟩⟩
  · simp only [Json.member_of_perm perm data.distinct_members]
    refine ⟨Json.asTexts_ofTexts data.kinds, rfl, ?_⟩
    change (data.metadata.map fun entry => (entry.1, Json.string entry.2)).map
      (fun member => (member.1, member.2.asText)) = data.metadata
    simp [Function.comp_def, Json.asText]
  · simp only [Json.member_of_perm perm (Entries.nodup_of_append data.distinct_members), none]
    exact ⟨Json.asTexts_ofTexts data.kinds, rfl, rfl⟩

theorem StatesDependency.ofJson_eq_ok_iff {data : DependencyData}
    (states : StatesDependency value data) {dependency : Dependency} :
    Dependency.ofJson value = .ok dependency ↔ data.Acceptable ∧ data.Denotes dependency := by
  rcases states.parts with ⟨kinds, range, metadata⟩
  rw [Dependency.ofJson_eq_assemble, kinds, range, metadata, bind_eq_ok_iff]
  simp only [Builder.assemble_eq_ok_iff states.kinds states.distinct,
    Dependency.checkKind_eq_ok_iff, Dependency.checkMetadataName_eq_ok_iff]
  constructor
  · rintro ⟨range, read, kindsChecked, namesChecked, rfl⟩
    exact ⟨⟨⟨range, read⟩, kindsChecked, namesChecked⟩, rfl, read, rfl⟩
  · rintro ⟨acceptable, denotes⟩
    refine ⟨dependency.range, denotes.range, acceptable.kinds, acceptable.names, ?_⟩
    rw [← denotes.kinds, ← denotes.metadata]

/-- An entry has the identifier and the dependencies that are stated. -/
structure TargetData.Denotes (target : TargetData) (entry : Identifier × DependencyList) :
    Prop where
  bundle : Identifier.ofText target.bundle = .ok entry.1
  list : ∃ dependencies, entry.2 = .ofList dependencies ∧
    List.Forall₂ DependencyData.Denotes target.dependencies dependencies

/-- What is looked up in a value that states a target is there. -/
theorem StatesTarget.parts {target : TargetData} (states : StatesTarget value target) :
    (value.member "bundle").asText = target.bundle ∧
      List.Forall₂ StatesDependency (value.member "entries").asItems target.dependencies := by
  rcases states.members with ⟨members, parts, rfl, perm, stated⟩
  have distinct : ([("bundle".toList, Json.string target.bundle),
      ("entries".toList, Json.array parts)].map Prod.fst).Nodup := by
    simp
  simp only [Json.member_of_perm perm distinct]
  exact ⟨rfl, stated⟩

theorem mapM_ofJson_eq_ok_iff {parts : List Json} {stated : List DependencyData}
    (states : List.Forall₂ StatesDependency parts stated) {dependencies : List Dependency} :
    parts.mapM Dependency.ofJson = .ok dependencies ↔
      (∀ data ∈ stated, data.Acceptable) ∧
        List.Forall₂ DependencyData.Denotes stated dependencies := by
  rw [mapM_eq_ok_iff]
  induction states generalizing dependencies with
  | nil => simp
  | cons first _ ih =>
      simp only [List.forall₂_cons_left_iff, first.ofJson_eq_ok_iff, ih, List.forall_mem_cons]
      constructor
      · rintro ⟨dependency, others, ⟨acceptable, denotes⟩, ⟨rest, related⟩, rfl⟩
        exact ⟨⟨acceptable, rest⟩, dependency, others, denotes, related, rfl⟩
      · rintro ⟨⟨acceptable, rest⟩, dependency, others, denotes, related, rfl⟩
        exact ⟨dependency, others, ⟨acceptable, denotes⟩, ⟨rest, related⟩, rfl⟩

/-- A step adds the entry of a target with a new identifier, if it accepts all dependencies. -/
def Adds {Error : Type} (accepts : DependencyData → Prop)
    (step : List (Identifier × DependencyList) → Json →
      Except Error (List (Identifier × DependencyList))) : Prop :=
  ∀ ⦃value target⦄, StatesTarget value target → ∀ entries next, step entries value = .ok next ↔
    (∀ data ∈ target.dependencies, accepts data) ∧ ∃ entry, target.Denotes entry ∧
      entry.1 ∉ entries.map Prod.fst ∧ next = entries ++ [entry]

theorem adds_addTarget : Adds DependencyData.Acceptable Declarations.addTarget := by
  intro value target states entries next
  rcases states.parts with ⟨bundle, stated⟩
  simp only [Declarations.addTarget, Declarations.listOfJson, bundle, bind_eq_ok_iff,
    liftM_eq_ok_iff]
  constructor
  · rintro ⟨identifier, read, added⟩
    split at added
    · contradiction
    · rename_i unknown
      rw [Entries.has_eq_true_iff] at unknown
      simp only [bind_eq_ok_iff, liftM_eq_ok_iff, map_eq_ok_iff, pure_eq_ok_iff,
        mapM_ofJson_eq_ok_iff stated] at added
      rcases added with ⟨_, ⟨dependencies, ⟨acceptable, denoted⟩, rfl⟩, rfl⟩
      exact ⟨acceptable, (identifier, _), ⟨read, dependencies, rfl, denoted⟩, unknown, rfl⟩
  · rintro ⟨acceptable, ⟨identifier, list⟩, ⟨read, dependencies, rfl, denoted⟩, unknown, rfl⟩
    refine ⟨identifier, read, ?_⟩
    rw [if_neg (by rwa [Entries.has_eq_true_iff])]
    simp only [bind_eq_ok_iff, liftM_eq_ok_iff, map_eq_ok_iff, pure_eq_ok_iff,
      mapM_ofJson_eq_ok_iff stated]
    exact ⟨_, ⟨dependencies, ⟨acceptable, denoted⟩, rfl⟩, rfl⟩

/-- The values of targets add the entries that are stated, one for each identifier. -/
theorem Adds.foldlM_eq_ok_iff {Error : Type} {accepts : DependencyData → Prop}
    {step : List (Identifier × DependencyList) → Json →
      Except Error (List (Identifier × DependencyList))} (adds : Adds accepts step)
    {parts : List Json} {targets : List TargetData}
    (states : List.Forall₂ StatesTarget parts targets)
    {entries next : List (Identifier × DependencyList)} (distinct : (entries.map Prod.fst).Nodup) :
    parts.foldlM step entries = .ok next ↔
      (∀ target ∈ targets, ∀ data ∈ target.dependencies, accepts data) ∧
        ∃ added, List.Forall₂ TargetData.Denotes targets added ∧ next = entries ++ added ∧
          (next.map Prod.fst).Nodup := by
  induction states generalizing entries with
  | nil =>
      simp only [List.foldlM_nil, pure_eq_ok_iff, List.forall₂_nil_left_iff, exists_eq_left,
        List.append_nil, List.not_mem_nil, false_imp_iff, implies_true, true_and]
      constructor
      · rintro rfl
        exact ⟨rfl, distinct⟩
      · rintro ⟨rfl, -⟩
        rfl
  | cons first _ ih =>
      rw [List.foldlM_cons, bind_eq_ok_iff, List.forall_mem_cons]
      simp only [adds first, List.forall₂_cons_left_iff]
      constructor
      · rintro ⟨_, ⟨acceptable, entry, denotes, unknown, rfl⟩, steps⟩
        rcases (ih (Entries.nodup_concat_iff.2 ⟨distinct, unknown⟩)).1 steps with
          ⟨rest, added, denoted, rfl, nextDistinct⟩
        refine ⟨⟨acceptable, rest⟩, entry :: added, ⟨entry, added, denotes, denoted, rfl⟩, ?_,
          nextDistinct⟩
        rw [← List.append_cons]
      · rintro ⟨⟨acceptable, rest⟩, _, ⟨entry, added, denotes, denoted, rfl⟩, rfl, nextDistinct⟩
        rw [List.append_cons] at nextDistinct
        have middle := Entries.nodup_of_append nextDistinct
        refine ⟨_, ⟨acceptable, entry, denotes, (Entries.nodup_concat_iff.1 middle).2, rfl⟩, ?_⟩
        rw [ih middle, List.append_cons]
        exact ⟨rest, added, denoted, rfl, nextDistinct⟩

/-- Entries for the targets that are stated, one for each identifier and none with a version. -/
structure Denotes (targets : List TargetData) (entries : List (Identifier × DependencyList)) :
    Prop where
  stated : List.Forall₂ TargetData.Denotes targets entries
  distinct : (entries.map Prod.fst).Nodup
  unversioned : ∀ entry ∈ entries, entry.1.version = none

theorem ofJson_eq_ok_iff {targets : List TargetData}
    (conforms : Schema.Conforms declarationsSchema value) (states : States value targets)
    {declarations : Declarations} :
    Declarations.ofJson value = .ok declarations ↔
      (∀ target ∈ targets, ∀ data ∈ target.dependencies, data.Acceptable) ∧ ∃ entries,
        Denotes targets entries ∧
          declarations = ⟨entries.filter fun entry => !entry.2.isEmpty⟩ := by
  rcases states with ⟨parts, rfl, stated⟩
  have checked := check_eq_ok_iff.2 conforms
  have items : (Json.member "dependencies"
      (.object [("dependencies", .array parts)])).asItems = parts := rfl
  have start : (([] : List (Identifier × DependencyList)).map Prod.fst).Nodup := .nil
  simp only [Declarations.ofJson, checked, items, bind_eq_ok_iff, liftM_eq_ok_iff,
    adds_addTarget.foldlM_eq_ok_iff stated start, Declarations.ofEntries_eq_ok_iff, List.nil_append]
  constructor
  · rintro ⟨_, -, entries, ⟨acceptable, _, denoted, rfl, distinct⟩, unversioned, rfl⟩
    exact ⟨acceptable, _, ⟨denoted, distinct, unversioned⟩, rfl⟩
  · rintro ⟨acceptable, entries, denotes, rfl⟩
    exact ⟨(), trivial, entries, ⟨acceptable, entries, denotes.stated, rfl, denotes.distinct⟩,
      denotes.unversioned, rfl⟩

end Interchange

end BundleDecl
