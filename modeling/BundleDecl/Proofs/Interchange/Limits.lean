import BundleDecl.Interchange.Interruption
import BundleDecl.Proofs.Host
import BundleDecl.Proofs.Interchange.Acceptance
import BundleDecl.Proofs.Range.Limits

/-!
# Decoding declarations within the limits of a host

A value that does not have the form of declarations is refused, unless one of its violations cannot
be described. A value that has the form is interrupted if the reader comes to a dependency the range
of which it cannot read on this host: the targets before that one and the dependencies before it
in its own target are accepted and read, and no identifier has come up twice.
-/

namespace BundleDecl

namespace Interchange

variable {host : Host} {value : Json}

/-! ## Dependencies -/

/-- A dependency is accepted, and nothing interrupts the reading of its range. -/
structure DependencyData.ReadOn (host : Host) (data : DependencyData) : Prop where
  acceptable : data.Acceptable
  uninterrupted : Range.interruption? host data.range = none

open Declarations (entryInterruption? entryStep targetInterruption? addTarget)

theorem StatesDependency.entryInterruption?_eq {data : DependencyData}
    (states : StatesDependency value data) (done : Unit) :
    entryInterruption? host done value = Range.interruption? host data.range := by
  rw [entryInterruption?, states.parts.2.1]

theorem StatesDependency.entryStep_eq_ok_iff {data : DependencyData}
    (states : StatesDependency value data) : entryStep () value = .ok () ↔ data.Acceptable := by
  have kept : entryStep () value = (fun _ => ()) <$> Dependency.ofJson value := rfl
  rw [kept, map_eq_ok_iff]
  constructor
  · rintro ⟨dependency, read, -⟩
    exact (states.ofJson_eq_ok_iff.1 read).1
  · intro acceptable
    rcases acceptable.exists_denotes with ⟨dependency, denotes⟩
    exact ⟨dependency, states.ofJson_eq_ok_iff.2 ⟨acceptable, denotes⟩, rfl⟩

theorem StatesDependency.stepWithin_eq_ok_iff {data : DependencyData}
    (states : StatesDependency value data) :
    stepWithin (entryInterruption? host) entryStep () value = .ok () ↔ data.ReadOn host := by
  rw [stepWithin, interruptedBy_eq_ok_iff, states.entryInterruption?_eq,
    states.entryStep_eq_ok_iff]
  constructor
  · rintro ⟨uninterrupted, acceptable⟩
    exact ⟨acceptable, uninterrupted⟩
  · intro read
    exact ⟨read.uninterrupted, read.acceptable⟩

/-- Steps that keep nothing succeed together if each of them does. -/
theorem foldlM_eq_ok_iff_forall {Error Item Value : Type} {step : Unit → Item → Except Error Unit}
    {accepts : Value → Prop} {items : List Item} {values : List Value}
    (each : List.Forall₂ (fun item value => step () item = .ok () ↔ accepts value) items values) :
    items.foldlM step () = .ok () ↔ ∀ value ∈ values, accepts value := by
  induction each with
  | nil => simp
  | cons first _ ih =>
      rw [List.foldlM_cons, bind_eq_ok_iff, List.forall_mem_cons, ← first, ← ih]
      exact ⟨fun ⟨_, both⟩ => both, fun both => ⟨(), both⟩⟩

variable {parts : List Json} {stated : List DependencyData}

theorem foldlM_entries_eq_ok_iff (states : List.Forall₂ StatesDependency parts stated) :
    parts.foldlM (stepWithin (entryInterruption? host) entryStep) () = .ok () ↔
      ∀ data ∈ stated, data.ReadOn host :=
  foldlM_eq_ok_iff_forall (states.imp fun _ _ known => known.stepWithin_eq_ok_iff)

theorem firstInterruption?_entries_eq_none_iff
    (states : List.Forall₂ StatesDependency parts stated)
    (acceptable : ∀ data ∈ stated, data.Acceptable) :
    (firstInterruption? (entryInterruption? host) entryStep () parts).map Prod.fst = none ↔
      ∀ data ∈ stated, data.ReadOn host := by
  have read : parts.foldlM entryStep () = .ok () :=
    (foldlM_eq_ok_iff_forall (states.imp fun _ _ known => known.entryStep_eq_ok_iff)).2 acceptable
  rw [← foldlM_entries_eq_ok_iff states, foldlM_stepWithin, interruptedBy_eq_ok_iff, read,
    and_iff_left rfl]

/-- The reader of the dependencies of a target is interrupted at the first dependency that is not
read, if its range is not. -/
theorem firstInterruption?_entries_eq_some_iff
    (states : List.Forall₂ StatesDependency parts stated) {interruption : Interruption} :
    (firstInterruption? (entryInterruption? host) entryStep () parts).map Prod.fst =
        some interruption ↔
      ∃ earlier data later, earlier ++ data :: later = stated ∧
        (∀ known ∈ earlier, known.ReadOn host) ∧
        Range.interruption? host data.range = some interruption := by
  rw [firstInterruption?_eq_some_iff]
  constructor
  · rintro ⟨before, part, after, reached, rfl, steps, cut⟩
    rcases exists_split_of_forall₂ states with ⟨earlier, data, later, split, related, known, -⟩
    rw [known.entryInterruption?_eq] at cut
    exact ⟨earlier, data, later, split, (foldlM_entries_eq_ok_iff related).1 steps, cut⟩
  · rintro ⟨earlier, data, later, rfl, read, cut⟩
    have flipped : List.Forall₂ (flip StatesDependency) (earlier ++ data :: later) parts :=
      states.flip
    rcases exists_split_of_forall₂ flipped with ⟨before, part, after, split, related, known, -⟩
    refine ⟨before, part, after, (), split, (foldlM_entries_eq_ok_iff related.flip).2 read, ?_⟩
    rw [StatesDependency.entryInterruption?_eq known, cut]

/-! ## Targets -/

theorem StatesTarget.targetInterruption?_eq_some_iff {target : TargetData}
    (states : StatesTarget value target) {entries : List (Identifier × DependencyList)}
    {interruption : Interruption} :
    targetInterruption? host entries value = some interruption ↔
      ∃ identifier, Identifier.ofText target.bundle = .ok identifier ∧
        identifier ∉ entries.map Prod.fst ∧
        ∃ earlier data later, earlier ++ data :: later = target.dependencies ∧
          (∀ known ∈ earlier, known.ReadOn host) ∧
          Range.interruption? host data.range = some interruption := by
  rcases states.parts with ⟨bundle, stated⟩
  rw [targetInterruption?, bundle]
  cases Identifier.ofText target.bundle with
  | error failure => simp
  | ok identifier =>
      simp only [Except.ok.injEq, exists_eq_left', ← firstInterruption?_entries_eq_some_iff stated,
        ← Entries.has_eq_true_iff]
      cases Entries.has identifier entries <;> simp

/-- The reader adds the entry of a target with a new identifier, if it reads all dependencies. -/
theorem adds_stepWithin :
    Adds (DependencyData.ReadOn host) (stepWithin (targetInterruption? host) addTarget) := by
  intro value target states entries next
  rcases states.parts with ⟨bundle, stated⟩
  rw [stepWithin, interruptedBy_eq_ok_iff, adds_addTarget states]
  have interruption (acceptable : ∀ data ∈ target.dependencies, data.Acceptable)
      {entry : Identifier × DependencyList} (denotes : target.Denotes entry)
      (unknown : entry.1 ∉ entries.map Prod.fst) :
      targetInterruption? host entries value = none ↔
        ∀ data ∈ target.dependencies, data.ReadOn host := by
    rw [← Entries.has_eq_true_iff] at unknown
    rw [targetInterruption?, bundle, denotes.bundle, ← firstInterruption?_entries_eq_none_iff
      stated acceptable]
    simp only [if_neg unknown]
  constructor
  · rintro ⟨uninterrupted, acceptable, entry, denotes, unknown, rfl⟩
    exact ⟨(interruption acceptable denotes unknown).1 uninterrupted, entry, denotes, unknown, rfl⟩
  · rintro ⟨read, entry, denotes, unknown, rfl⟩
    have acceptable : ∀ data ∈ target.dependencies, data.Acceptable := by
      intro data member
      exact (read data member).acceptable
    exact ⟨(interruption acceptable denotes unknown).2 read, acceptable, entry, denotes, unknown,
      rfl⟩

/-- The reader of targets on a host comes to a dependency the range of which it cannot read. -/
inductive Interrupted (host : Host) (targets : List TargetData) : Interruption → Prop where
  | intro {before after : List TargetData} {target : TargetData}
      {earlier later : List DependencyData} {data : DependencyData}
      {identifiers : List Identifier} {interruption : Interruption}
      (split : before ++ target :: after = targets)
      (within : earlier ++ data :: later = target.dependencies)
      (bundles : List.Forall₂ (fun target identifier =>
        Identifier.ofText target.bundle = .ok identifier) (before ++ [target]) identifiers)
      (distinct : identifiers.Nodup)
      (targetsRead : ∀ target ∈ before, ∀ known ∈ target.dependencies, known.ReadOn host)
      (read : ∀ known ∈ earlier, known.ReadOn host)
      (cut : Range.interruption? host data.range = some interruption) :
      Interrupted host targets interruption

theorem firstInterruption?_targets_eq_some_iff {targets : List TargetData}
    (states : List.Forall₂ StatesTarget parts targets) {interruption : Interruption} :
    (firstInterruption? (targetInterruption? host) addTarget [] parts).map Prod.fst =
      some interruption ↔ Interrupted host targets interruption := by
  have start : (([] : List (Identifier × DependencyList)).map Prod.fst).Nodup := .nil
  rw [firstInterruption?_eq_some_iff]
  constructor
  · rintro ⟨firstParts, part, lastParts, reached, rfl, steps, cut⟩
    rcases exists_split_of_forall₂ states with ⟨before, target, after, split, related, known, -⟩
    rcases (adds_stepWithin.foldlM_eq_ok_iff related start).1 steps with
      ⟨targetsRead, _, denoted, rfl, distinct⟩
    rcases known.targetInterruption?_eq_some_iff.1 cut with
      ⟨identifier, bundle, unknown, earlier, data, later, within, read, cut⟩
    have bundles : List.Forall₂ (fun target identifier =>
        Identifier.ofText target.bundle = .ok identifier) before (reached.map Prod.fst) := by
      rw [List.forall₂_map_right_iff]
      exact denoted.imp fun _ _ denotes => denotes.bundle
    refine .intro split within (List.rel_append bundles (.cons bundle .nil)) ?_ targetsRead read cut
    rw [List.nodup_append_comm]
    exact List.nodup_cons.2 ⟨unknown, distinct⟩
  · rintro ⟨rfl, within, bundles, distinct, targetsRead, read, cut⟩
    have flipped : List.Forall₂ (flip StatesTarget) _ parts := states.flip
    rcases exists_split_of_forall₂ flipped with
      ⟨firstParts, part, lastParts, split, related, known, -⟩
    rcases exists_split_of_forall₂ bundles with
      ⟨first, identifier, last, rfl, firstRead, bundle, none⟩
    rcases List.forall₂_nil_left_iff.1 none with rfl
    rcases exists_stated firstRead fun target member data dataMem =>
      (targetsRead target member data dataMem).acceptable with ⟨added, denoted, rfl⟩
    rw [List.nodup_append] at distinct
    have steps := (adds_stepWithin.foldlM_eq_ok_iff related.flip start).2
      ⟨targetsRead, added, denoted, rfl, distinct.1⟩
    refine ⟨firstParts, part, lastParts, _, split, steps, ?_⟩
    rw [StatesTarget.targetInterruption?_eq_some_iff known]
    refine ⟨identifier, bundle, ?_, _, _, _, within, read, cut⟩
    intro member
    exact distinct.2.2 _ member _ List.mem_cons_self rfl

variable {targets : List TargetData}

theorem violation?_eq_none_of_conforms {schema : Schema}
    (conforms : Schema.Conforms schema value) : schema.violation? value = none := by
  have checked := check_eq_ok_iff.2 conforms
  rw [check] at checked
  split at checked
  · assumption
  · contradiction

theorem jsonInterruption?_of_states (states : States value targets)
    (conforms : Schema.Conforms declarationsSchema value) {interruption : Interruption} :
    Declarations.jsonInterruption? host value = some interruption ↔
      Interrupted host targets interruption := by
  rcases states with ⟨parts, rfl, stated⟩
  rw [Declarations.jsonInterruption?, violation?_eq_none_of_conforms conforms]
  exact firstInterruption?_targets_eq_some_iff stated

theorem Denotes.jsonInterruption?_eq_none_iff {entries : List (Identifier × DependencyList)}
    (denotes : Denotes targets entries) (states : States value targets)
    (conforms : Schema.Conforms declarationsSchema value)
    (acceptable : ∀ target ∈ targets, ∀ data ∈ target.dependencies, data.Acceptable) :
    Declarations.jsonInterruption? host value = none ↔
      ∀ target ∈ targets, ∀ data ∈ target.dependencies, data.ReadOn host := by
  rcases states with ⟨parts, rfl, stated⟩
  have start : (([] : List (Identifier × DependencyList)).map Prod.fst).Nodup := .nil
  have added : parts.foldlM addTarget [] = .ok entries :=
    (adds_addTarget.foldlM_eq_ok_iff stated start).2
      ⟨acceptable, entries, denotes.stated, rfl, denotes.distinct⟩
  have addedWithin : parts.foldlM (stepWithin (targetInterruption? host) addTarget) [] =
      .ok entries ↔ ∀ target ∈ targets, ∀ data ∈ target.dependencies, data.ReadOn host := by
    rw [adds_stepWithin.foldlM_eq_ok_iff stated start]
    exact ⟨And.left, fun read => ⟨read, entries, denotes.stated, rfl, denotes.distinct⟩⟩
  rw [← addedWithin, foldlM_stepWithin, interruptedBy_eq_ok_iff, added, and_iff_left rfl,
    Declarations.jsonInterruption?, violation?_eq_none_of_conforms conforms]
  rfl

theorem ofJsonWithin_eq_ok_iff (states : States value targets)
    (conforms : Schema.Conforms declarationsSchema value) {declarations : Declarations} :
    Declarations.ofJsonWithin host value = .ok declarations ↔
      (∀ target ∈ targets, ∀ data ∈ target.dependencies, data.ReadOn host) ∧ ∃ entries,
        Denotes targets entries ∧
          declarations = ⟨entries.filter fun entry => !entry.2.isEmpty⟩ := by
  rw [Declarations.ofJsonWithin, interruptedBy_eq_ok_iff, ofJson_eq_ok_iff conforms states]
  constructor
  · rintro ⟨uninterrupted, acceptable, entries, denotes, rfl⟩
    exact ⟨(denotes.jsonInterruption?_eq_none_iff states conforms acceptable).1 uninterrupted,
      entries, denotes, rfl⟩
  · rintro ⟨read, entries, denotes, rfl⟩
    have acceptable : ∀ target ∈ targets, ∀ data ∈ target.dependencies, data.Acceptable := by
      intro target member data dataMem
      exact (read target member data dataMem).acceptable
    exact ⟨(denotes.jsonInterruption?_eq_none_iff states conforms acceptable).2 read, acceptable,
      entries, denotes, rfl⟩

/-! ## Violations -/

/-- A host cannot show a value that the description of a violation shows. -/
def Undescribed (host : Host) (schema : Schema) (value : Json) (interruption : Interruption) :
    Prop :=
  ∃ violation shown, Schema.Violated schema value violation ∧
    violation.problem.shown? = some shown ∧ shown.interruption? host = some interruption

theorem undescribed_of_interruption? {schema : Schema} {interruption : Interruption}
    (cut : schema.interruption? host value = some interruption) :
    Undescribed host schema value interruption := by
  rcases List.exists_of_findSome?_eq_some cut with ⟨violation, violated, cut⟩
  rcases Option.bind_eq_some_iff.1 cut with ⟨shown, shows, cut⟩
  exact ⟨violation, shown, Schema.mem_violations_iff.1 violated, shows, cut⟩

theorem Undescribed.exists_interruption {schema : Schema} {interruption : Interruption}
    (undescribed : Undescribed host schema value interruption) :
    ∃ first, schema.interruption? host value = some first := by
  rcases undescribed with ⟨violation, shown, violated, shows, cut⟩
  rw [← Option.isSome_iff_exists, Schema.interruption?, List.findSome?_isSome_iff]
  refine ⟨violation, Schema.mem_violations_iff.2 violated, ?_⟩
  rw [shows, Option.bind_some, cut]
  rfl

end Interchange

section

variable {value : Json}

theorem Json.holdsLongNumber_item {items : List Json} {position : Nat} {item : Json}
    (found : items[position]? = some item) (long : item.holdsLongNumber = true) :
    (array items).holdsLongNumber = true := by
  rw [holdsLongNumber]
  induction items generalizing position with
  | nil => contradiction
  | cons first items ih =>
      rw [someHoldsLongNumber, Bool.or_eq_true]
      rcases position with _ | position
      · rcases Option.some.inj found with rfl
        exact .inl long
      · exact .inr (ih found)

theorem Json.holdsLongNumber_member {members : List (Text × Json)} {name : Text} {part : Json}
    (found : (name, part) ∈ members) (long : part.holdsLongNumber = true) :
    (object members).holdsLongNumber = true := by
  rw [holdsLongNumber]
  induction members with
  | nil => contradiction
  | cons first members ih =>
      rw [someMemberHoldsLongNumber, Bool.or_eq_true]
      rcases List.mem_cons.1 found with rfl | found
      · exact .inl long
      · exact .inr (ih found)

/-- What the description of a violation shows is a part of the value. -/
theorem Schema.Violated.holdsLongNumber {schema : Schema} {violation : Schema.Violation}
    (violated : Schema.Violated schema value violation) {shown : Json}
    (shows : violation.problem.shown? = some shown) (long : shown.holdsLongNumber = true) :
    value.holdsLongNumber = true := by
  induction violated with
  | noString | emptyString | noArray | emptyArray | noDictionary | noRecord =>
      rcases Option.some.inj shows with rfl
      exact long
  | missing | unexpected => contradiction
  | item found _ ih => exact Json.holdsLongNumber_item found (ih shows)
  | value found _ ih => exact Json.holdsLongNumber_member found (ih shows)
  | field _ found _ ih =>
      exact Json.holdsLongNumber_member (Entries.mem_of_get?_eq_some found) (ih shows)

/-- A host that shows every value describes all violations of a value without long numbers. -/
theorem Interchange.not_undescribed {host : Host} {schema : Schema} {interruption : Interruption}
    (holds : ∀ shown, host.holds (.shown shown) = true) (short : value.holdsLongNumber = false) :
    ¬Undescribed host schema value interruption := by
  rintro ⟨violation, shown, violated, shows, cut⟩
  rw [Json.interruption?, Host.interruption?, if_pos (holds shown), Option.none_or] at cut
  split at cut
  · rename_i long
    rw [violated.holdsLongNumber shows long] at short
    contradiction
  · contradiction

end

namespace Declarations

open Interchange

variable {host : Host} {value : Json}

/-- What the decoding of a JSON value results in on a host. -/
structure Decoding (host : Host) (value : Json) : Prop where
  /-- The outcome is declarations, a refusal of the form of the value or of a repeated bundle, a
  failure of one of its parts, or an interruption. -/
  outcome : (∃ declarations, ofJsonWithin host value = .ok declarations) ∨
    (∃ violation, ofJsonWithin host value = .error (.refused (.schema violation))) ∨
    (∃ identifier, ofJsonWithin host value = .error (.refused (.repeatedBundle identifier))) ∨
    (∃ failure, ofJsonWithin host value = .error (.refused (.failure failure))) ∨
    ∃ interruption, ofJsonWithin host value = .error (.interrupted interruption)
  /-- A value that violates the schema is refused with the least of its violations, whatever else is
  wrong with it, if all of them can be described. -/
  violated : ¬Schema.Conforms declarationsSchema value →
    (∀ interruption, ¬Undescribed host declarationsSchema value interruption) → ∃ least,
      ofJsonWithin host value = .error (.refused (.schema least)) ∧
        Schema.Violated declarationsSchema value least ∧
        ∀ other, Schema.Violated declarationsSchema value other →
          least.path = other.path ∨ List.Lex Schema.Step.Below least.path other.path
  /-- Otherwise a violation that cannot be described interrupts the check. -/
  undescribed : ¬Schema.Conforms declarationsSchema value →
    (∃ interruption, Undescribed host declarationsSchema value interruption) →
      ∃ interruption, ofJsonWithin host value = .error (.interrupted interruption) ∧
        Undescribed host declarationsSchema value interruption
  /-- Any two violations can be compared. -/
  comparable : ∀ first second, Schema.Violated declarationsSchema value first →
    Schema.Violated declarationsSchema value second →
      first.path = second.path ∨ List.Lex Schema.Step.Below first.path second.path ∨
        List.Lex Schema.Step.Below second.path first.path
  /-- A value that has the form of the schema states targets. -/
  stated : Schema.Conforms declarationsSchema value → ∃ targets, States value targets
  /-- It is accepted if and only if what it states is acceptable and all ranges are read. -/
  accepted : Schema.Conforms declarationsSchema value → ∀ targets, States value targets →
    ((∃ declarations, ofJsonWithin host value = .ok declarations) ↔ Acceptable targets ∧
      ∀ target ∈ targets, ∀ data ∈ target.dependencies,
        Range.interruption? host data.range = none)
  /-- Then it is written as the same value in canonical form. -/
  written : Schema.Conforms declarationsSchema value → ∀ targets, States value targets →
    ∀ declarations, ofJsonWithin host value = .ok declarations →
      declarations.toJson = canonicalJson targets
  /-- It is interrupted if and only if the reader comes to a range that it cannot read. -/
  interrupted : Schema.Conforms declarationsSchema value → ∀ targets, States value targets →
    ∀ interruption, ofJsonWithin host value = .error (.interrupted interruption) ↔
      Interchange.Interrupted host targets interruption

theorem exists_outcome_of_ofJsonWithin (host : Host) (value : Json) :
    (∃ declarations, ofJsonWithin host value = .ok declarations) ∨
      (∃ violation, ofJsonWithin host value = .error (.refused (.schema violation))) ∨
      (∃ identifier, ofJsonWithin host value = .error (.refused (.repeatedBundle identifier))) ∨
      (∃ failure, ofJsonWithin host value = .error (.refused (.failure failure))) ∨
      ∃ interruption, ofJsonWithin host value = .error (.interrupted interruption) := by
  rw [ofJsonWithin]
  cases jsonInterruption? host value with
  | some interruption => exact .inr (.inr (.inr (.inr ⟨interruption, rfl⟩)))
  | none =>
      cases decoded : ofJson value with
      | ok declarations => exact .inl ⟨declarations, rfl⟩
      | error refusal =>
          rcases refused_of_ofJson decoded with
            ⟨violation, rfl⟩ | ⟨identifier, rfl⟩ | ⟨failure, rfl⟩
          · exact .inr (.inl ⟨violation, rfl⟩)
          · exact .inr (.inr (.inl ⟨identifier, rfl⟩))
          · exact .inr (.inr (.inr (.inl ⟨failure, rfl⟩)))

/-- On every host, a JSON value is decoded, refused or interrupted, and which of these it is can be
told from its violations and from what it states. -/
theorem ofJsonWithin_exact (host : Host) {value : Json} (keyed : value.Keyed) :
    Decoding host value := by
  have violations (fails : ¬Schema.Conforms declarationsSchema value) :=
    Schema.exists_least_of_not_conforms keyed fails
  have checked (fails : ¬Schema.Conforms declarationsSchema value) :
      jsonInterruption? host value = declarationsSchema.interruption? host value := by
    rcases violations fails with ⟨least, found, -⟩
    rw [jsonInterruption?, found]
  refine ⟨exists_outcome_of_ofJsonWithin host value, ?_, ?_, ?_, exists_states keyed, ?_, ?_, ?_⟩
  · intro fails described
    rcases violations fails with ⟨least, found, violated, atMost⟩
    refine ⟨least, ?_, violated, atMost⟩
    rw [ofJsonWithin, interruptedBy_eq_refused_iff, checked fails,
      Option.eq_none_iff_forall_ne_some]
    constructor
    · intro interruption cut
      exact described interruption (undescribed_of_interruption? cut)
    · rw [ofJson, check, found]
      rfl
  · rintro fails ⟨interruption, undescribed⟩
    rcases undescribed.exists_interruption with ⟨first, cut⟩
    refine ⟨first, ?_, undescribed_of_interruption? cut⟩
    rw [ofJsonWithin, interruptedBy_eq_interrupted_iff, checked fails, cut]
  · intro first second firstViolated secondViolated
    exact firstViolated.leads.comparable keyed secondViolated.leads
  · intro conforms targets states
    simp only [ofJsonWithin_eq_ok_iff states conforms, acceptable_iff]
    constructor
    · rintro ⟨_, read, entries, denotes, -⟩
      exact ⟨⟨fun target member data dataMem => (read target member data dataMem).acceptable,
        entries, denotes⟩, fun target member data dataMem =>
          (read target member data dataMem).uninterrupted⟩
    · rintro ⟨⟨acceptable, entries, denotes⟩, uninterrupted⟩
      exact ⟨_, fun target member data dataMem => ⟨acceptable target member data dataMem,
        uninterrupted target member data dataMem⟩, entries, denotes, rfl⟩
  · intro conforms targets states declarations decoded
    rcases (ofJsonWithin_eq_ok_iff states conforms).1 decoded with ⟨-, entries, denotes, rfl⟩
    exact denotes.toJson_eq
  · intro conforms targets states interruption
    rw [ofJsonWithin, interruptedBy_eq_interrupted_iff, jsonInterruption?_of_states states conforms]

theorem ofJsonWithin_exact_unordered :
    let api : Json := .object [
      ("range", .string " [1)".toList),
      ("kinds", .ofTexts ["b".toList, "a".toList, "b".toList])]
    let tool : Json := .object [("bundle", .string "tool".toList), ("entries", .array [])]
    let value : Json := .object [("dependencies", .array [
      .object [("entries", .array [api, api]), ("bundle", .string "Lib-X".toList)], tool])]
    let canonical : Json := .object [("dependencies", .array [
      .object [
        ("bundle", .string "lib-x".toList),
        ("entries", .array [.object [
          ("kinds", .ofTexts ["a".toList, "b".toList]),
          ("range", .string "[1)".toList),
          ("metadata", .object [])]])]])]
    let wrong : Json := .object [("dependencies",
      .array (List.replicate 2 tool ++ .null :: List.replicate 7 tool ++ [.null]))]
    let position : List Schema.Step := [.member "dependencies", .item 2]
    (∃ declarations, ofJsonWithin .usual value = .ok declarations ∧
        declarations.toJson = canonical) ∧
      ofJsonWithin .usual wrong =
        .error (.refused (.schema ⟨position, .otherType .null "object"⟩)) ∧
      ∀ other, Schema.Violated declarationsSchema wrong other →
        position = other.path ∨ List.Lex Schema.Step.Below position other.path := by
  intro api tool value canonical wrong position
  have keyed : value.Keyed := by
    simp [value, api, tool, Json.ofTexts]
  have wrongKeyed : wrong.Keyed := by
    simp [wrong, tool, Json.Keyed.null]
  let data : DependencyData := ⟨["b".toList, "a".toList, "b".toList], " [1)".toList, []⟩
  let targets : List TargetData := [⟨"Lib-X".toList, [data, data]⟩, ⟨"tool".toList, []⟩]
  have read : Range.ofText " [1)".toList = .ok (.minimum ['1']) := by
    have normal : Range.Normal (.minimum ['1']) := .minimum rfl
    exact @Range.Normal.ofText_append _ normal [' '] rfl
  have conforms : Schema.Conforms declarationsSchema value := by
    rw [← check_eq_ok_iff]
    simp only [value, api, tool]
    rfl
  have states : States value targets := by
    have given : StatesDependency api data :=
      ⟨by simp [data], by simp [data], .nil, _, rfl, .inr ⟨.swap _ _ _, rfl⟩⟩
    refine ⟨_, rfl, .cons ⟨by simp, _, _, rfl, .swap _ _ _, ?_⟩ (.cons ?_ .nil)⟩
    · exact .cons given (.cons given .nil)
    · exact ⟨by simp, _, _, rfl, .refl _, .nil⟩
  have acceptable : Acceptable targets := by
    have accepted : data.Acceptable := ⟨⟨_, read⟩, by simp [data]; decide, by simp [data]⟩
    refine ⟨⟨[⟨"lib".toList, ["x".toList], none⟩, ⟨"tool".toList, [], none⟩], ?_, by simp,
      by decide⟩, by simp [targets, accepted]⟩
    exact .cons rfl (.cons rfl .nil)
  have written : canonicalJson targets = canonical := by
    have apiCanonical : data.canonical = ⟨["a".toList, "b".toList], "[1)".toList, []⟩ := by
      rw [DependencyData.canonical, read]
      rfl
    have lib : TargetData.canonical ⟨"Lib-X".toList, [data, data]⟩ =
        ⟨"lib-x".toList, [data.canonical, data.canonical].eraseDupsBy DependencyData.same⟩ := rfl
    rw [canonicalJson, List.map_cons, lib, apiCanonical]
    rfl
  have uninterrupted : Range.interruption? .usual data.range = none :=
    Range.interruption?_eq_none_of_length rfl (by decide)
  have decoding := ofJsonWithin_exact .usual keyed
  rcases (decoding.accepted conforms targets states).2
    ⟨acceptable, by simp [targets, uninterrupted]⟩ with ⟨declarations, decoded⟩
  have result := decoding.written conforms targets states declarations decoded
  have checked : check declarationsSchema wrong =
      .error (.schema ⟨position, .otherType .null "object"⟩) := by
    simp only [wrong, tool, position]
    rfl
  have fails : ¬Schema.Conforms declarationsSchema wrong := by
    rw [← check_eq_ok_iff, checked]
    simp
  have short : wrong.holdsLongNumber = false := by
    simp [wrong, tool, Json.holdsLongNumber, Json.someHoldsLongNumber,
      Json.someMemberHoldsLongNumber]
  have described (interruption : Interruption) :
      ¬Undescribed .usual declarationsSchema wrong interruption :=
    not_undescribed (fun _ => rfl) short
  rcases (ofJsonWithin_exact .usual wrongKeyed).violated fails described with
    ⟨least, refused, -, atMost⟩
  have same : least = ⟨position, .otherType .null "object"⟩ := by
    rw [ofJsonWithin, interruptedBy_eq_refused_iff, ofJson, checked] at refused
    exact (Refusal.schema.inj (Except.error.inj refused.2)).symm
  subst same
  exact ⟨⟨declarations, decoded, result.trans written⟩, refused, atMost⟩

/-! ## A range that cannot be read -/

/-- What is stated by declarations with one dependency. -/
def requiringData (range : Text) : TargetData :=
  ⟨"lib".toList, [⟨["runtime".toList], range, []⟩]⟩

/-- The value of declarations with one dependency. -/
def requiringJson (range : Text) : Json :=
  .object [("dependencies", .array [(requiringData range).toJson])]

theorem conforms_requiringJson {range : Text} (filled : range ≠ []) :
    Schema.Conforms declarationsSchema (requiringJson range) := by
  have kinds : Schema.Conforms (.list true (.text false)) (.ofTexts ["runtime".toList]) :=
    Json.conforms_ofTexts fun _ => List.cons_ne_nil _ _
  have metadata : Schema.Conforms (.dictionary (.text false)) (.object []) :=
    .dictionary (List.forall_mem_nil _)
  have dependency : Schema.Conforms dependencySchema
      (DependencyData.mk ["runtime".toList] range []).toJson := by
    apply Schema.Conforms.of_forall₂ (by decide) (by decide)
    exact .cons ⟨rfl, kinds⟩ (.cons ⟨rfl, .text fun _ => filled⟩ (.cons ⟨rfl, metadata⟩ .nil))
  have target : Schema.Conforms targetSchema (requiringData range).toJson := by
    apply Schema.Conforms.of_forall₂ (by decide) (by decide)
    exact .cons ⟨rfl, .text fun _ => List.cons_ne_nil _ _⟩
      (.cons ⟨rfl, .list nofun (List.forall_mem_singleton.2 dependency)⟩ .nil)
  apply Schema.Conforms.of_forall₂ (by decide) (by decide)
  exact .cons ⟨rfl, .list nofun (List.forall_mem_singleton.2 target)⟩ .nil

theorem states_requiringJson {range : Text} (filled : range ≠ []) :
    States (requiringJson range) [requiringData range] := by
  let data : DependencyData := ⟨["runtime".toList], range, []⟩
  have stated : StatesDependency data.toJson data :=
    ⟨List.cons_ne_nil _ _, filled, .nil, _, rfl, .inl (.refl _)⟩
  have target : StatesTarget (requiringData range).toJson (requiringData range) :=
    ⟨List.cons_ne_nil _ _, _, _, rfl, .refl _, .cons stated .nil⟩
  exact ⟨_, rfl, .cons target .nil⟩

/-- Decoding is interrupted on a dependency as it is on its range. -/
theorem ofJsonWithin_requiringJson {range : Text} {interruption : Interruption}
    (filled : range ≠ []) (cut : Range.interruption? host range = some interruption) :
    ofJsonWithin host (requiringJson range) = .error (.interrupted interruption) := by
  rw [ofJsonWithin, interruptedBy_eq_interrupted_iff,
    jsonInterruption?_of_states (states_requiringJson filled) (conforms_requiringJson filled)]
  have split : [] ++ ⟨["runtime".toList], range, []⟩ :: [] =
      (requiringData range).dependencies := rfl
  have bundle : Identifier.ofText "lib".toList = .ok ⟨"lib".toList, [], none⟩ := rfl
  exact .intro (List.nil_append _) split (.cons bundle .nil) (List.nodup_singleton _) nofun nofun
    cut

/-- A value that has the form of declarations and holds a bound of too many digits is neither
decoded nor refused. -/
theorem ofJsonWithin_long_range :
    let value := requiringJson (Range.upTo (Range.ones 4301))
    Schema.Conforms declarationsSchema value ∧
      ofJsonWithin .usual value = .error (.interrupted (.conversion 4301)) := by
  have filled : Range.upTo (Range.ones 4301) ≠ [] := nofun
  exact ⟨conforms_requiringJson filled,
    ofJsonWithin_requiringJson filled (Range.interruption?_upTo_ones (by decide) rfl)⟩

end Declarations

end BundleDecl
