import BundleDecl.Interchange
import BundleDecl.Proofs.Declarations.Canonical
import BundleDecl.Proofs.Json.RoundTrip
import BundleDecl.Proofs.Range.RoundTrip
import BundleDecl.Proofs.Schema

/-!
# Interchange without loss

Declarations in canonical form are written as ASCII text in which every target, dependency and
metadata entry is found again. The values that are written have the form that is demanded of what is
read, so that neither the schema nor any part refuses them.
-/

namespace BundleDecl

namespace Interchange

theorem check_eq_ok_iff {schema : Schema} {value : Json} :
    check schema value = .ok () ↔ Schema.Conforms schema value := by
  rw [← Schema.violations_eq_nil_iff, check, Schema.violation?]
  cases schema.violations value with
  | nil => simp [Schema.Violation.least?]
  | cons violation rest =>
      have some : ∃ least, Schema.Violation.least? (violation :: rest) = some least := by
        rw [Schema.Violation.least?]
        split
        · exact ⟨_, rfl⟩
        · split <;> exact ⟨_, rfl⟩
      rcases some with ⟨least, found⟩
      simp [found]

theorem liftM_eq_ok_iff {Value : Type} {outcome : Except Failure Value} {value : Value} :
    (liftM outcome : Except Refusal Value) = .ok value ↔ outcome = .ok value :=
  mapError_eq_ok_iff

end Interchange

namespace Json

theorem textual_ofTexts (texts : List Text) : Textual (ofTexts texts) := by
  apply Textual.array
  intro item member
  rcases List.mem_map.1 member with ⟨text, -, rfl⟩
  exact .string text

theorem asTexts_ofTexts (texts : List Text) : (ofTexts texts).asTexts = texts := by
  simp [asTexts, ofTexts, asItems, asText, Function.comp_def]

theorem conforms_ofTexts {nonEmpty : Bool} {texts : List Text}
    (filled : nonEmpty = true → texts ≠ []) :
    Schema.Conforms (.list nonEmpty (.text false)) (ofTexts texts) := by
  refine .list ?_ ?_
  · simpa using filled
  · intro part member
    rcases List.mem_map.1 member with ⟨text, -, rfl⟩
    exact .text (absurd · Bool.false_ne_true)

end Json

namespace Dependency

variable {dependency : Dependency}

theorem Canonical.textual_toJson (canonical : dependency.Canonical) :
    dependency.toJson.Textual := by
  have metadata : (Json.object (dependency.metadata.map
      fun entry => (entry.1, .string entry.2))).Textual := by
    refine .object ?_ ?_
    · rw [List.map_map]
      exact canonical.parts.distinct
    · intro member memberMem
      rcases List.mem_map.1 memberMem with ⟨entry, -, rfl⟩
      exact .string entry.2
  refine .object (by simp) ?_
  simp only [List.forall_mem_cons]
  exact ⟨Json.textual_ofTexts dependency.kinds, .string _, metadata, List.forall_mem_nil _⟩

theorem Canonical.conforms_toJson (canonical : dependency.Canonical) :
    Schema.Conforms Interchange.dependencySchema dependency.toJson := by
  have metadata : Schema.Conforms (.dictionary (.text false))
      (.object (dependency.metadata.map fun entry => (entry.1, .string entry.2))) := by
    apply Schema.Conforms.dictionary
    intro member memberMem
    rcases List.mem_map.1 memberMem with ⟨entry, -, rfl⟩
    exact .text (absurd · Bool.false_ne_true)
  apply Schema.Conforms.of_forall₂ (by decide) (by decide)
  have kinds : Schema.Conforms (.list true (.text false)) (.ofTexts dependency.kinds) :=
    Json.conforms_ofTexts fun _ => canonical.nonempty
  have range : Schema.Conforms (.text true) (.string dependency.range.toText) :=
    .text fun _ => canonical.normal.toText_ne_nil
  exact .cons ⟨rfl, kinds⟩ (.cons ⟨rfl, range⟩ (.cons ⟨rfl, metadata⟩ .nil))

/-- A value is read part by part. -/
theorem ofJson_eq_assemble (value : Json) :
    ofJson value = Range.ofText (value.member "range").asText >>= fun range =>
      Builder.assemble range (value.member "kinds").asTexts
        ((value.member "metadata").asMembers.map fun member => (member.1, member.2.asText)) := by
  simp only [ofJson, Builder.assemble, List.foldlM_map]

/-- The parts that were written are found again. -/
theorem parts_toJson (dependency : Dependency) :
    (dependency.toJson.member "kinds").asTexts = dependency.kinds ∧
      (dependency.toJson.member "range").asText = dependency.range.toText ∧
      (dependency.toJson.member "metadata").asMembers.map
        (fun member => (member.1, member.2.asText)) = dependency.metadata := by
  refine ⟨Json.asTexts_ofTexts dependency.kinds, rfl, ?_⟩
  change (dependency.metadata.map fun entry => (entry.1, Json.string entry.2)).map
    (fun member => (member.1, member.2.asText)) = dependency.metadata
  simp [Function.comp_def, Json.asText]

theorem built_of_ofJson {value : Json} (read : ofJson value = .ok dependency) :
    dependency.Built := by
  rw [ofJson_eq_assemble, bind_eq_ok_iff] at read
  rcases read with ⟨range, -, assembled⟩
  exact built_of_assemble assembled

theorem Canonical.ofJson_toJson (canonical : dependency.Canonical) :
    ofJson dependency.toJson = .ok dependency := by
  rcases parts_toJson dependency with ⟨kinds, rangeText, metadata⟩
  rw [ofJson_eq_assemble, kinds, rangeText, metadata, bind_eq_ok_iff]
  exact ⟨dependency.range, canonical.normal.ofText_eq_ok,
    assemble_eq_self canonical.parts canonical.nonempty⟩

end Dependency

namespace Declarations

variable {target : Identifier} {list : DependencyList} {declarations : Declarations}

/-- The value that a target and its dependency list are written as. -/
def entryJson (entry : Identifier × DependencyList) : Json :=
  .object [
    ("bundle", .string entry.1.toText),
    ("entries", .array (entry.2.dependencies.map Dependency.toJson))]

theorem CanonicalEntry.textual_entryJson (canonical : CanonicalEntry target list) :
    (entryJson (target, list)).Textual := by
  have dependencies : (Json.array (list.dependencies.map Dependency.toJson)).Textual := by
    apply Json.Textual.array
    intro item member
    rcases List.mem_map.1 member with ⟨dependency, dependencyMem, rfl⟩
    exact (canonical.dependency dependency dependencyMem).textual_toJson
  refine .object (by simp) ?_
  simp only [List.forall_mem_cons]
  exact ⟨.string _, dependencies, List.forall_mem_nil _⟩

theorem CanonicalEntry.conforms_entryJson (canonical : CanonicalEntry target list) :
    Schema.Conforms Interchange.targetSchema (entryJson (target, list)) := by
  have bundle : Schema.Conforms (.text true) (.string target.toText) := by
    refine .text fun _ empty => ?_
    have read := canonical.canonical.ofText_eq_ok
    rw [empty] at read
    contradiction
  have dependencies : Schema.Conforms (.list false Interchange.dependencySchema)
      (.array (list.dependencies.map Dependency.toJson)) := by
    refine .list (absurd · Bool.false_ne_true) ?_
    intro part member
    rcases List.mem_map.1 member with ⟨dependency, dependencyMem, rfl⟩
    exact (canonical.dependency dependency dependencyMem).conforms_toJson
  apply Schema.Conforms.of_forall₂ (by decide) (by decide)
  exact .cons ⟨rfl, bundle⟩ (.cons ⟨rfl, dependencies⟩ .nil)

theorem Canonical.textual_toJson (canonical : declarations.Canonical) :
    declarations.toJson.Textual := by
  have entries : (Json.array (declarations.entries.map entryJson)).Textual := by
    apply Json.Textual.array
    intro item member
    rcases List.mem_map.1 member with ⟨entry, entryMem, rfl⟩
    exact (canonical.entry entry entryMem).textual_entryJson
  refine .object (by simp) ?_
  simp only [List.forall_mem_cons]
  exact ⟨entries, List.forall_mem_nil _⟩

theorem Canonical.conforms_toJson (canonical : declarations.Canonical) :
    Schema.Conforms Interchange.declarationsSchema declarations.toJson := by
  have entries : Schema.Conforms (.list false Interchange.targetSchema)
      (.array (declarations.entries.map entryJson)) := by
    refine .list (absurd · Bool.false_ne_true) ?_
    intro part member
    rcases List.mem_map.1 member with ⟨entry, entryMem, rfl⟩
    exact (canonical.entry entry entryMem).conforms_entryJson
  apply Schema.Conforms.of_forall₂ (by decide) (by decide)
  exact .cons ⟨rfl, entries⟩ .nil

theorem CanonicalEntry.listOfJson_eq_ok (canonical : CanonicalEntry target list) :
    listOfJson ((entryJson (target, list)).member "entries") = .ok list := by
  have read : (list.dependencies.map Dependency.toJson).mapM Dependency.ofJson =
      .ok list.dependencies := by
    rw [mapM_eq_ok_iff, List.forall₂_map_left_iff, List.forall₂_same]
    intro dependency member
    exact (canonical.dependency dependency member).ofJson_toJson
  have items : ((entryJson (target, list)).member "entries").asItems =
      list.dependencies.map Dependency.toJson := rfl
  rw [listOfJson, items, read]
  exact congrArg Except.ok (DependencyList.ofList_eq_self canonical.separate)

/-- The value of a new target adds the entry that it was written for. -/
theorem CanonicalEntry.addTarget_eq_ok (canonical : CanonicalEntry target list)
    {entries : List (Identifier × DependencyList)} (fresh : target ∉ entries.map Prod.fst) :
    addTarget entries (entryJson (target, list)) = .ok (entries ++ [(target, list)]) := by
  have unknown : Entries.has target entries ≠ true := by
    rw [Ne, Entries.has_eq_true_iff]
    exact fresh
  rw [addTarget, bind_eq_ok_iff]
  refine ⟨target, Interchange.liftM_eq_ok_iff.2 canonical.canonical.ofText_eq_ok, ?_⟩
  rw [if_neg unknown, bind_eq_ok_iff]
  exact ⟨list, Interchange.liftM_eq_ok_iff.2 canonical.listOfJson_eq_ok, rfl⟩

theorem foldlM_addTarget {entries pending : List (Identifier × DependencyList)}
    (canonical : ∀ entry ∈ pending, CanonicalEntry entry.1 entry.2)
    (distinct : ((entries ++ pending).map Prod.fst).Nodup) :
    (pending.map entryJson).foldlM addTarget entries = .ok (entries ++ pending) := by
  induction pending generalizing entries with
  | nil => simp [pure, Except.pure]
  | cons entry pending ih =>
      rw [List.forall_mem_cons] at canonical
      rw [List.append_cons] at distinct ⊢
      have fresh := (Entries.nodup_concat_iff.1 (Entries.nodup_of_append distinct)).2
      rw [List.map_cons, List.foldlM_cons, canonical.1.addTarget_eq_ok fresh]
      exact ih canonical.2 distinct

/-- Declarations in canonical form are made of the value that they are written as. -/
theorem Canonical.ofJson_toJson (canonical : declarations.Canonical) :
    ofJson declarations.toJson = .ok declarations := by
  have checked := Interchange.check_eq_ok_iff.2 canonical.conforms_toJson
  have added : (declarations.toJson.member "dependencies").asItems.foldlM addTarget [] =
      .ok declarations.entries :=
    foldlM_addTarget canonical.entry canonical.distinct
  have kept : ofEntries declarations.entries = .ok declarations := by
    refine ofEntries_eq_self ?_ ?_
    · intro entry member
      exact (canonical.entry entry member).unversioned
    · intro entry member
      simpa [DependencyList.isEmpty] using (canonical.entry entry member).nonempty
  rw [ofJson, bind_eq_ok_iff]
  refine ⟨(), checked, ?_⟩
  rw [bind_eq_ok_iff]
  exact ⟨declarations.entries, added, Interchange.liftM_eq_ok_iff.2 kept⟩

/-- Well-formed declarations are written as ASCII text, with or without an indentation. That text is
read as the same declarations, with everything in its order, and these are written as the same text
again. -/
theorem ofJsonText_toJsonText (wellFormed : declarations.WellFormed) (indent : Option Nat) :
    (∀ character ∈ declarations.toJsonText indent, character.toNat < 128) ∧
      ofJsonText (declarations.toJsonText indent) = .ok declarations ∧
      (ofJsonText (declarations.toJsonText indent)).map (toJsonText indent) =
        .ok (declarations.toJsonText indent) := by
  have canonical := wellFormed.canonical
  have textual := canonical.textual_toJson
  have denoted : Interchange.read (declarations.toJsonText indent) = .ok declarations.toJson := by
    rw [Interchange.read, toJsonText, textual.ofText?_toText]
  have read : ofJsonText (declarations.toJsonText indent) = .ok declarations := by
    rw [ofJsonText, denoted]
    exact canonical.ofJson_toJson
  refine ⟨textual.toNat_lt_of_mem_print 0, read, ?_⟩
  rw [read]
  rfl

theorem ofJsonText_toJsonText_awkward :
    let value := "\x00\x1f \r\n\"\\/é\u2028\uffff😀".toList
    let range := Range.unionOf [.minimum ['2'], .exact ['1']]
    let dependency : Dependency := ⟨["api".toList], range, [("note".toList, value)]⟩
    let target : Identifier := ⟨"lib".toList, ["x.64".toList], none⟩
    let declarations : Declarations := ⟨[(target, ⟨[dependency]⟩)]⟩
    ofJsonText (declarations.toJsonText none) = .ok declarations ∧
      ofJsonText (declarations.toJsonText (some 3)) = .ok declarations := by
  intro value range dependency target declarations
  have kinds : Builder.Reachable ⟨["api".toList], some range, []⟩ :=
    @Builder.Reachable.addKind _ _ "api".toList (.setRange (some range) .empty) rfl
  have reachable : Builder.Reachable ⟨["api".toList], some range, [("note".toList, value)]⟩ :=
    @Builder.Reachable.addMetadata _ _ "note".toList value kinds rfl
  have ranges : range.WellFormed := by
    apply Range.WellFormed.unionOf
    simpa using ⟨.minimum rfl, .exact rfl⟩
  have wellFormed : declarations.WellFormed := by
    refine ⟨declarations.entries, ⟨by decide, ?_, ?_⟩, rfl⟩
    · intro entry member
      rcases List.mem_singleton.1 member with rfl
      exact ⟨"lib".toList, ["X.64".toList], rfl⟩
    · intro entry member
      rcases List.mem_singleton.1 member with rfl
      refine ⟨[dependency], rfl, ?_⟩
      intro built builtMem
      rcases List.mem_singleton.1 builtMem with rfl
      exact ⟨⟨_, reachable, rfl⟩, ranges⟩
  exact ⟨(ofJsonText_toJsonText wellFormed none).2.1,
    (ofJsonText_toJsonText wellFormed (some 3)).2.1⟩

end Declarations

end BundleDecl
