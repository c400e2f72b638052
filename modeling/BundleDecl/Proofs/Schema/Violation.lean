import BundleDecl.Proofs.Json.Keyed
import BundleDecl.Proofs.Schema
import BundleDecl.Proofs.Text

/-!
# The violations of a schema

One rule for each thing that may be wrong with a value, and one for each way to a part of it, say
what the violations of a schema are; these and no others are found. The one that counts has the
least path. Positions need to be compared with positions only and names with names only, since the
paths to two parts of a value never part at a position and a name.
-/

namespace BundleDecl

namespace Schema

/-! ## Paths -/

/-- A path leads from a value to one of its parts. -/
inductive Leads : Json → List Step → Prop where
  | here (value : Json) : Leads value []
  | item {parts : List Json} {position : Nat} {part : Json} {path : List Step}
      (found : parts[position]? = some part) (leads : Leads part path) :
      Leads (.array parts) (.item position :: path)
  | member {members : List (Text × Json)} {name : Text} {part : Json} {path : List Step}
      (found : (name, part) ∈ members) (leads : Leads part path) :
      Leads (.object members) (.member name :: path)

/-- A smaller position, or a name that comes first. There is no rule for a position and a name. -/
inductive Step.Below : Step → Step → Prop where
  | item {left right : Nat} (below : left < right) : Below (item left) (item right)
  | member {left right : Text} (below : left < right) : Below (member left) (member right)

/-- Of two paths that lead to parts of one value, one comes first unless they are equal. -/
theorem Leads.comparable {value : Json} (keyed : value.Keyed) {left right : List Step}
    (first : Leads value left) (second : Leads value right) :
    left = right ∨ List.Lex Step.Below left right ∨ List.Lex Step.Below right left := by
  have under {step : Step} {left right : List Step}
      (ih : left = right ∨ List.Lex Step.Below left right ∨ List.Lex Step.Below right left) :
      step :: left = step :: right ∨ List.Lex Step.Below (step :: left) (step :: right) ∨
        List.Lex Step.Below (step :: right) (step :: left) :=
    ih.imp (congrArg _) (Or.imp .cons .cons)
  induction first generalizing right with
  | here =>
      cases second with
      | here => exact .inl rfl
      | item => exact .inr (.inl .nil)
      | member => exact .inr (.inl .nil)
  | @item parts position part path found _ ih =>
      rw [Json.keyed_array_iff] at keyed
      cases second with
      | here => exact .inr (.inr .nil)
      | @item _ other _ _ otherFound leads =>
          rcases Nat.lt_trichotomy position other with below | rfl | above
          · exact .inr (.inl (.rel (.item below)))
          · rcases Option.some.inj (found.symm.trans otherFound) with rfl
            exact under (ih (keyed _ (List.mem_of_getElem? found)) leads)
          · exact .inr (.inr (.rel (.item above)))
  | @member members name part path found _ ih =>
      rcases Json.keyed_object_iff.1 keyed with ⟨distinct, keyed⟩
      cases second with
      | here => exact .inr (.inr .nil)
      | @member _ other _ _ otherFound leads =>
          have order : name < other ∨ name = other ∨ other < name :=
            Std.Trichotomous.rel_or_eq_or_rel_swap
          rcases order with below | rfl | above
          · exact .inr (.inl (.rel (.member below)))
          · have known := Entries.get?_of_mem distinct found
            rw [Entries.get?_of_mem distinct otherFound, Option.some.injEq] at known
            subst known
            exact under (ih (keyed _ found) leads)
          · exact .inr (.inr (.rel (.member above)))

namespace Step

instance : Std.OrientedOrd Step where
  eq_swap {left right} := by
    cases left <;> cases right
    · exact Std.OrientedOrd.eq_swap (α := Nat)
    · rfl
    · rfl
    · exact Std.OrientedOrd.eq_swap (α := Text)

instance : Std.TransOrd Step where
  isLE_trans {first second third} left right := by
    cases first <;> cases second <;> cases third
    all_goals first
      | exact Std.TransOrd.isLE_trans (α := Nat) left right
      | exact Std.TransOrd.isLE_trans (α := Text) left right
      | contradiction
      | rfl

theorem Below.compare_eq_lt {left right : Step} (below : Below left right) :
    compare left right = .lt := by
  cases below with
  | item below => exact Nat.compare_eq_lt.2 below
  | member below =>
      refine compare_eq_lt_of_lex ?_ (List.lex_lt.2 below)
      intro first second below
      exact if_pos below

end Step

/-- If one of two paths comes first, it is the one that is found to. -/
theorem Leads.lex_of_isLE {value : Json} (keyed : value.Keyed) {left right : List Step}
    (first : Leads value left) (second : Leads value right)
    (atMost : (compare left right).isLE = true) :
    left = right ∨ List.Lex Step.Below left right := by
  rcases first.comparable keyed second with same | below | above
  · exact .inl same
  · exact .inr below
  · have greater := compare_eq_lt_of_lex (fun _ _ => Step.Below.compare_eq_lt) above
    rw [Std.OrientedOrd.eq_swap, greater] at atMost
    contradiction

/-! ## What is wrong with a value -/

/-- Something is wrong with a value or with a part of it. -/
inductive Violated : Schema → Json → Violation → Prop where
  | noString {nonEmpty : Bool} {value : Json} (other : ∀ content, value ≠ .string content) :
      Violated (text nonEmpty) value (here (.otherType value "string"))
  | emptyString : Violated (text true) (.string []) (here (.empty (.string [])))
  | noArray {nonEmpty : Bool} {items : Schema} {value : Json}
      (other : ∀ parts, value ≠ .array parts) :
      Violated (list nonEmpty items) value (here (.otherType value "array"))
  | emptyArray {items : Schema} : Violated (list true items) (.array []) (here (.empty (.array [])))
  | item {nonEmpty : Bool} {items : Schema} {parts : List Json} {position : Nat} {part : Json}
      {violation : Violation} (found : parts[position]? = some part)
      (violated : Violated items part violation) :
      Violated (list nonEmpty items) (.array parts) (violation.under (.item position))
  | noDictionary {values : Schema} {value : Json} (other : ∀ members, value ≠ .object members) :
      Violated (dictionary values) value (here (.otherType value "object"))
  | value {values : Schema} {members : List (Text × Json)} {name : Text} {part : Json}
      {violation : Violation} (found : (name, part) ∈ members)
      (violated : Violated values part violation) :
      Violated (dictionary values) (.object members) (violation.under (.member name))
  | noRecord {required : List Text} {fields : List (Text × Schema)} {value : Json}
      (other : ∀ members, value ≠ .object members) :
      Violated (record required fields) value (here (.otherType value "object"))
  | missing {required : List Text} {fields : List (Text × Schema)} {members : List (Text × Json)}
      {name : Text} (isRequired : name ∈ required) (absent : name ∉ members.map Prod.fst) :
      Violated (record required fields) (.object members) (here (.missing name))
  | field {required : List Text} {fields : List (Text × Schema)} {members : List (Text × Json)}
      {name : Text} {form : Schema} {part : Json} {violation : Violation}
      (known : (name, form) ∈ fields) (found : Entries.get? name members = some part)
      (violated : Violated form part violation) :
      Violated (record required fields) (.object members) (violation.under (.member name))
  | unexpected {required : List Text} {fields : List (Text × Schema)}
      {members : List (Text × Json)} {names : List Text} (some : names ≠ [])
      (sorted : names.Pairwise (· < ·))
      (unknown : ∀ name, name ∈ names ↔
        name ∈ members.map Prod.fst ∧ name ∉ fields.map Prod.fst) :
      Violated (record required fields) (.object members) (here (.unexpected names))

/-- The path of a violation leads to the part that has it. -/
theorem Violated.leads {schema : Schema} {value : Json} {violation : Violation}
    (violated : Violated schema value violation) : Leads value violation.path := by
  induction violated with
  | item found _ ih => exact .item found ih
  | value found _ ih => exact .member found ih
  | field _ found _ ih => exact .member (Entries.mem_of_get?_eq_some found) ih
  | _ => exact .here _

variable {value : Json} {violation : Violation}

theorem mem_emptiness_iff {Item : Type} {nonEmpty : Bool} {items : List Item} :
    violation ∈ emptiness nonEmpty items.isEmpty value ↔
      nonEmpty = true ∧ items = [] ∧ violation = here (.empty value) := by
  cases nonEmpty <;> cases items <;> simp [emptiness]

theorem mem_missingMembers_iff {required : List Text} {members : List (Text × Json)} :
    violation ∈ missingMembers required members ↔
      ∃ name ∈ required, name ∉ members.map Prod.fst ∧ violation = here (.missing name) := by
  simp only [missingMembers, List.mem_map, List.mem_filter, Bool.not_eq_true', Bool.eq_false_iff,
    ne_eq, Entries.has_eq_true_iff, and_assoc, @eq_comm _ violation]

theorem mem_unexpectedMembers_iff {names : List Text} {members : List (Text × Json)} :
    violation ∈ unexpectedMembers names members ↔
      ∃ unexpected, unexpected ≠ [] ∧ unexpected.Pairwise (· < ·) ∧
        (∀ name, name ∈ unexpected ↔ name ∈ members.map Prod.fst ∧ name ∉ names) ∧
        violation = here (.unexpected unexpected) := by
  have known (name : Text) :
      name ∈ SortedSet.ofList ((members.map Prod.fst).filter fun name => !names.contains name) ↔
        name ∈ members.map Prod.fst ∧ name ∉ names := by
    rw [SortedSet.mem_ofList, List.mem_filter, Bool.not_eq_true', Bool.eq_false_iff, ne_eq,
      List.contains_iff_mem]
  have sorted := SortedSet.pairwise_ofList
    ((members.map Prod.fst).filter fun name => !names.contains name)
  rw [unexpectedMembers]
  generalize SortedSet.ofList
    ((members.map Prod.fst).filter fun name => !names.contains name) = unknown at known sorted
  constructor
  · intro member
    refine ⟨unknown, ?_, sorted, known, ?_⟩
    · rintro rfl
      contradiction
    · split at member
      · contradiction
      · exact List.mem_singleton.1 member
  · rintro ⟨unexpected, some, unexpectedSorted, unexpectedIff, rfl⟩
    have same : unknown = unexpected := by
      refine SortedSet.eq_of_mem_iff sorted unexpectedSorted ?_
      intro name
      rw [known, unexpectedIff]
    subst same
    split
    · contradiction
    · exact List.mem_singleton_self _

theorem mem_underEach_iff {violations : Json → List Violation} {parts : List (Step × Json)} :
    violation ∈ underEach violations parts ↔ ∃ part ∈ parts, ∃ inner ∈ violations part.2,
      violation = inner.under part.1 := by
  simp only [underEach, List.mem_flatMap, List.mem_map, @eq_comm _ violation]

mutual

/-- Exactly the violations are found. -/
theorem mem_violations_iff : ∀ {schema : Schema} {value : Json} {violation : Violation},
    violation ∈ violations schema value ↔ Violated schema value violation
  | text nonEmpty, value, violation => by
      cases value with
      | string content =>
          rw [violations, mem_emptiness_iff]
          constructor
          · rintro ⟨rfl, rfl, rfl⟩
            exact .emptyString
          · rintro (other | _)
            · exact absurd rfl (other content)
            · exact ⟨rfl, rfl, rfl⟩
      | _ =>
          rw [violations, List.mem_singleton]
          · constructor
            · rintro rfl
              exact .noString nofun
            · rintro (_ | _)
              rfl
          · nofun
  | list nonEmpty items, value, violation => by
      cases value with
      | array parts =>
          rw [violations, List.mem_append, mem_emptiness_iff, mem_underEach_iff]
          simp only [mem_violations_iff]
          constructor
          · rintro (⟨_, member, inner, violated, rfl⟩ | ⟨rfl, rfl, rfl⟩)
            · rcases List.mem_map.1 member with ⟨⟨part, position⟩, found, rfl⟩
              rw [List.mem_zipIdx_iff_getElem?] at found
              exact .item found violated
            · exact .emptyArray
          · intro violated
            cases violated with
            | noArray other => exact absurd rfl (other parts)
            | emptyArray => exact .inr ⟨rfl, rfl, rfl⟩
            | @item _ _ _ position part inner found violated =>
                refine .inl ⟨_, List.mem_map.2 ⟨(part, position), ?_, rfl⟩, inner, violated, rfl⟩
                exact List.mem_zipIdx_iff_getElem?.2 found
      | _ =>
          rw [violations, List.mem_singleton]
          · constructor
            · rintro rfl
              exact .noArray nofun
            · rintro (_ | _)
              rfl
          · nofun
  | dictionary values, value, violation => by
      cases value with
      | object members =>
          rw [violations, mem_underEach_iff]
          simp only [mem_violations_iff]
          constructor
          · rintro ⟨_, member, inner, violated, rfl⟩
            rcases List.mem_map.1 member with ⟨⟨name, part⟩, found, rfl⟩
            exact .value found violated
          · intro violated
            cases violated with
            | noDictionary other => exact absurd rfl (other members)
            | @value _ _ name part inner found violated =>
                exact ⟨_, List.mem_map.2 ⟨_, found, rfl⟩, inner, violated, rfl⟩
      | _ =>
          rw [violations, List.mem_singleton]
          · constructor
            · rintro rfl
              exact .noDictionary nofun
            · rintro (_ | _)
              rfl
          · nofun
  | record required fields, value, violation => by
      cases value with
      | object members =>
          rw [violations, List.mem_append, List.mem_append, mem_missingMembers_iff,
            mem_fieldViolations_iff, mem_unexpectedMembers_iff]
          constructor
          · rintro ((⟨name, isRequired, absent, rfl⟩ | ⟨⟨name, form⟩, known, part, found, inner,
              violated, rfl⟩) | ⟨names, some, sorted, unknown, rfl⟩)
            · exact .missing isRequired absent
            · exact .field known found violated
            · exact .unexpected some sorted unknown
          · intro violated
            cases violated with
            | noRecord other => exact absurd rfl (other members)
            | missing isRequired absent => exact .inl (.inl ⟨_, isRequired, absent, rfl⟩)
            | field known found violated =>
                exact .inl (.inr ⟨_, known, _, found, _, violated, rfl⟩)
            | unexpected some sorted unknown => exact .inr ⟨_, some, sorted, unknown, rfl⟩
      | _ =>
          rw [violations, List.mem_singleton]
          · constructor
            · rintro rfl
              exact .noRecord nofun
            · rintro (_ | _)
              rfl
          · nofun

theorem mem_fieldViolations_iff : ∀ {fields : List (Text × Schema)}
    {members : List (Text × Json)} {violation : Violation},
    violation ∈ fieldViolations fields members ↔ ∃ field ∈ fields, ∃ part,
      Entries.get? field.1 members = some part ∧
        ∃ inner, Violated field.2 part inner ∧ violation = inner.under (.member field.1)
  | [], members, violation => by simp [fieldViolations]
  | (name, form) :: fields, members, violation => by
      rw [fieldViolations, List.mem_append, mem_fieldViolations_iff, mem_underEach_iff,
        List.exists_mem_cons_iff]
      apply or_congr_left
      simp only [List.mem_map, exists_exists_and_eq_and, Option.mem_toList, mem_violations_iff]

end

/-! ## The violation that counts -/

theorem Violation.least?_eq_none_iff {violations : List Violation} :
    least? violations = none ↔ violations = [] := by
  cases violations with
  | nil => exact iff_of_true rfl rfl
  | cons violation rest =>
      refine iff_of_false ?_ nofun
      rw [least?]
      split
      · exact nofun
      · split <;> exact nofun

theorem Violation.isLE_of_least? {violations : List Violation} {least : Violation}
    (found : least? violations = some least) :
    least ∈ violations ∧
      ∀ other ∈ violations, (compare least.path other.path).isLE = true := by
  induction violations generalizing least with
  | nil => contradiction
  | cons violation rest ih =>
      rw [least?] at found
      rw [List.forall_mem_cons]
      split at found
      · rename_i none
        rcases Option.some.inj found with rfl
        rw [least?_eq_none_iff.1 none]
        exact ⟨List.mem_cons_self, Std.ReflCmp.isLE_rfl, List.forall_mem_nil _⟩
      · rename_i other known
        rcases ih known with ⟨member, atMost⟩
        split at found
        · rename_i below
          rcases Option.some.inj found with rfl
          refine ⟨List.mem_cons_of_mem _ member, ?_, atMost⟩
          rw [below]
          rfl
        · rename_i notBelow
          rcases Option.some.inj found with rfl
          refine ⟨List.mem_cons_self, Std.ReflCmp.isLE_rfl, ?_⟩
          intro third thirdMem
          refine Std.TransCmp.isLE_trans ?_ (atMost third thirdMem)
          rw [Std.OrientedOrd.eq_swap]
          revert notBelow
          cases compare other.path violation.path <;> simp

/-- A value that does not have the form of a schema violates it, and the violation that counts has
the least path of all. -/
theorem exists_least_of_not_conforms {schema : Schema} (keyed : value.Keyed)
    (fails : ¬Conforms schema value) :
    ∃ least, violation? schema value = some least ∧ Violated schema value least ∧
      ∀ other, Violated schema value other →
        least.path = other.path ∨ List.Lex Step.Below least.path other.path := by
  rw [← violations_eq_nil_iff, ← Violation.least?_eq_none_iff, ← ne_eq,
    Option.ne_none_iff_exists'] at fails
  rcases fails with ⟨least, found⟩
  rcases Violation.isLE_of_least? found with ⟨member, atMost⟩
  have violated := mem_violations_iff.1 member
  refine ⟨least, found, violated, ?_⟩
  intro other otherViolated
  exact violated.leads.lex_of_isLE keyed otherViolated.leads
    (atMost other (mem_violations_iff.2 otherViolated))

end Schema

end BundleDecl
