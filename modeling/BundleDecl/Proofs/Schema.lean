import BundleDecl.Schema
import Mathlib.Data.List.Forall2

/-!
# The values of a schema

A value has the form that a schema demands if and only if no violation is reported. The form is
stated by one rule for each kind of schema, without paths and problems.
-/

namespace BundleDecl

namespace Schema

/-- A value has the form that a schema demands. -/
inductive Conforms : Schema → Json → Prop where
  | text {nonEmpty : Bool} {content : Text} (filled : nonEmpty = true → content ≠ []) :
      Conforms (text nonEmpty) (.string content)
  | list {nonEmpty : Bool} {items : Schema} {parts : List Json}
      (filled : nonEmpty = true → parts ≠ []) (conform : ∀ part ∈ parts, Conforms items part) :
      Conforms (list nonEmpty items) (.array parts)
  | dictionary {values : Schema} {members : List (Text × Json)}
      (conform : ∀ member ∈ members, Conforms values member.2) :
      Conforms (dictionary values) (.object members)
  | record {required : List Text} {fields : List (Text × Schema)} {members : List (Text × Json)}
      (present : ∀ name ∈ required, name ∈ members.map Prod.fst)
      (conform : ∀ field ∈ fields, ∀ part, Entries.get? field.1 members = some part →
        Conforms field.2 part)
      (known : ∀ name ∈ members.map Prod.fst, name ∈ fields.map Prod.fst) :
      Conforms (record required fields) (.object members)

theorem emptiness_eq_nil_iff {Item : Type} {nonEmpty : Bool} {items : List Item} {value : Json} :
    emptiness nonEmpty items.isEmpty value = [] ↔ (nonEmpty = true → items ≠ []) := by
  cases nonEmpty <;> cases items <;> simp [emptiness]

theorem missingMembers_eq_nil_iff {required : List Text} {members : List (Text × Json)} :
    missingMembers required members = [] ↔ ∀ name ∈ required, name ∈ members.map Prod.fst := by
  simp only [missingMembers, List.map_eq_nil_iff, List.filter_eq_nil_iff, Bool.not_eq_true',
    Bool.not_eq_false, Entries.has_eq_true_iff]

theorem unexpectedMembers_eq_nil_iff {names : List Text} {members : List (Text × Json)} :
    unexpectedMembers names members = [] ↔ ∀ name ∈ members.map Prod.fst, name ∈ names := by
  have known : ((members.map Prod.fst).filter fun name => !names.contains name) = [] ↔
      ∀ name ∈ members.map Prod.fst, name ∈ names := by
    simp only [List.filter_eq_nil_iff, Bool.not_eq_true', Bool.not_eq_false, List.contains_iff_mem]
  rw [unexpectedMembers, ← known]
  split
  · rename_i none
    constructor
    · intro _
      by_contra some
      exact SortedSet.ofList_ne_nil some none
    · intro _
      rfl
  · rename_i unexpected some
    constructor
    · exact nofun
    · intro none
      rw [none] at some
      exact absurd rfl some

theorem underEach_eq_nil_iff {violations : Json → List Violation} {parts : List (Step × Json)} :
    underEach violations parts = [] ↔ ∀ part ∈ parts.map Prod.snd, violations part = [] := by
  simp only [underEach, List.flatMap_eq_nil_iff, List.forall_mem_map, List.map_eq_nil_iff]

mutual

/-- A value has the form that a schema demands if and only if it does not violate the schema. -/
theorem violations_eq_nil_iff : ∀ {schema : Schema} {value : Json},
    violations schema value = [] ↔ Conforms schema value
  | text nonEmpty, value => by
      cases value with
      | string content =>
          rw [violations, emptiness_eq_nil_iff]
          exact ⟨.text, fun | .text filled => filled⟩
      | _ => exact ⟨nofun, nofun⟩
  | list nonEmpty items, value => by
      cases value with
      | array parts =>
          have parts_eq : (parts.zipIdx.map fun (part, position) =>
              (Step.item position, part)).map Prod.snd = parts := by
            rw [List.map_map]
            exact List.zipIdx_map_fst 0 parts
          rw [violations, List.append_eq_nil_iff, emptiness_eq_nil_iff, underEach_eq_nil_iff,
            parts_eq]
          simp only [violations_eq_nil_iff]
          exact ⟨fun ⟨conform, filled⟩ => .list filled conform,
            fun | .list filled conform => ⟨conform, filled⟩⟩
      | _ => exact ⟨nofun, nofun⟩
  | dictionary values, value => by
      cases value with
      | object members =>
          rw [violations, underEach_eq_nil_iff, List.map_map, List.forall_mem_map]
          simp only [violations_eq_nil_iff]
          exact ⟨.dictionary, fun | .dictionary conform => conform⟩
      | _ => exact ⟨nofun, nofun⟩
  | record required fields, value => by
      cases value with
      | object members =>
          rw [violations, List.append_eq_nil_iff, List.append_eq_nil_iff,
            missingMembers_eq_nil_iff, fieldViolations_eq_nil_iff, unexpectedMembers_eq_nil_iff]
          constructor
          · rintro ⟨⟨present, conform⟩, known⟩
            exact .record present conform known
          · rintro (_ | _ | _ | ⟨present, conform, known⟩)
            exact ⟨⟨present, conform⟩, known⟩
      | _ => exact ⟨nofun, nofun⟩

theorem fieldViolations_eq_nil_iff : ∀ {fields : List (Text × Schema)}
    {members : List (Text × Json)}, fieldViolations fields members = [] ↔
      ∀ field ∈ fields, ∀ part, Entries.get? field.1 members = some part → Conforms field.2 part
  | [], members => by simp [fieldViolations]
  | (name, field) :: fields, members => by
      rw [fieldViolations, List.append_eq_nil_iff, underEach_eq_nil_iff,
        fieldViolations_eq_nil_iff, List.forall_mem_cons]
      simp only [List.forall_mem_map, Option.mem_toList, violations_eq_nil_iff]

end

/-- The members of a record in the order of its fields are found under their names. -/
theorem conforms_of_get?_eq_some {fields : List (Text × Schema)} {members : List (Text × Json)}
    (distinct : (fields.map Prod.fst).Nodup)
    (conform : List.Forall₂ (fun field member => field.1 = member.1 ∧ Conforms field.2 member.2)
      fields members) :
    ∀ field ∈ fields, ∀ part, Entries.get? field.1 members = some part →
      Conforms field.2 part := by
  induction conform with
  | nil => exact List.forall_mem_nil _
  | @cons field member fields members first _ ih =>
      rcases first with ⟨name, conforms⟩
      rw [List.map_cons, List.nodup_cons] at distinct
      refine List.forall_mem_cons.2 ⟨?_, ?_⟩
      · intro part found
        rw [Entries.get?, if_pos name.symm, Option.some.injEq] at found
        rwa [← found]
      · intro other otherMem part found
        have differs : member.1 ≠ other.1 := by
          intro same
          rw [name, same] at distinct
          exact distinct.1 (List.mem_map_of_mem otherMem)
        rw [Entries.get?, if_neg differs] at found
        exact ih distinct.2 other otherMem part found

/-- An object with the members of a record in the order of its fields has the form of it. -/
theorem Conforms.of_forall₂ {required : List Text} {fields : List (Text × Schema)}
    {members : List (Text × Json)} (distinct : (fields.map Prod.fst).Nodup)
    (named : ∀ name ∈ required, name ∈ fields.map Prod.fst)
    (conform : List.Forall₂ (fun field member => field.1 = member.1 ∧ Conforms field.2 member.2)
      fields members) : Conforms (.record required fields) (.object members) := by
  have names : fields.map Prod.fst = members.map Prod.fst := by
    rw [← List.forall₂_eq_eq_eq, List.forall₂_map_left_iff, List.forall₂_map_right_iff]
    exact conform.imp fun _ _ known => known.1
  refine .record ?_ (conforms_of_get?_eq_some distinct conform) ?_
  · intro name member
    rw [← names]
    exact named name member
  · intro name member
    rwa [names]

end Schema

end BundleDecl
