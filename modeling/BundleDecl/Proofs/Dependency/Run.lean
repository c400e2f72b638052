import BundleDecl.Proofs.Dependency.Builder
import Mathlib.Data.List.DropRight

/-!
# Runs of a builder

A builder is called any number of times, and calls that fail are skipped. What can be built then is
said by the calls alone: the range that was set last, the kinds that were added since they were last
cleared, and the metadata names that were added since these were last cleared, each at the place
where it came up first and with the value that it got last.

A copy of a dependency is a builder to which the parts of the dependency have been added.
-/

namespace BundleDecl

namespace Builder

/-- A call of a builder. -/
inductive Call where
  | setRange (range : Option Range)
  | addKind (kind : Text)
  | addMetadata (name value : Text)
  | clearKinds
  | clearMetadata
  | build
  deriving DecidableEq, Repr

/-- What a call comes to: the builder after it, and the dependency if one is built. -/
def call (builder : Builder) : Call → Except Failure (Builder × Option Dependency)
  | .setRange range => .ok (builder.setRange range, none)
  | .addKind kind => (fun next => (next, none)) <$> builder.addKind kind
  | .addMetadata name value => (fun next => (next, none)) <$> builder.addMetadata name value
  | .clearKinds => .ok (builder.clearKinds, none)
  | .clearMetadata => .ok (builder.clearMetadata, none)
  | .build => (fun dependency => (builder, some dependency)) <$> builder.build

/-- The builder after a call; a call that fails is skipped. -/
def after (builder : Builder) (call : Call) : Builder :=
  match builder.call call with
  | .ok (next, _) => next
  | .error _ => builder

/-- The builder after some calls. -/
def run (builder : Builder) (calls : List Call) : Builder :=
  calls.foldl after builder

/-- What the calls answer one after the other. -/
def answers (builder : Builder) : List Call → List (Except Failure (Option Dependency))
  | [] => []
  | call :: calls => (Prod.snd <$> builder.call call) :: (builder.after call).answers calls

/-- An empty builder, or the copy of a dependency. -/
def start (copied : Option Dependency) : Builder :=
  copied.elim {} ofDependency

/-! ## What the calls say -/

/-- A call was made that no later one undoes. -/
def Stands (undoes : Call → Prop) (call : Call) (calls : List Call) : Prop :=
  ∃ earlier later, calls = earlier ++ call :: later ∧ ∀ other ∈ later, ¬undoes other

/-- The range was set last. -/
def RangeStands (range : Range) : List Call → Prop :=
  Stands (fun other => ∃ given, other = .setRange given) (.setRange (some range))

/-- The kind may be used, and it was added since the kinds were last cleared. -/
def KindStands (kind : Text) (calls : List Call) : Prop :=
  Dependency.checkKind kind = .ok () ∧ Stands (· = .clearKinds) (.addKind kind) calls

/-- The name may be used, and the value was added for it last, since the metadata were last
cleared. -/
def EntryStands (name value : Text) (calls : List Call) : Prop :=
  Dependency.checkMetadataName name = .ok () ∧
    Stands (fun other => other = .clearMetadata ∨ ∃ given, other = .addMetadata name given)
      (.addMetadata name value) calls

/-- The name under which a call adds metadata, if it may be used. -/
def Call.name? : Call → Option Text
  | .addMetadata name _ => if Dependency.checkMetadataName name = .ok () then some name else none
  | _ => none

/-- The names under which metadata were added since they were last cleared. -/
def namesAdded (calls : List Call) : List Text :=
  (calls.rtakeWhile (· ≠ .clearMetadata)).filterMap Call.name?

/-- The calls that make a copy of a dependency. -/
def copying (dependency : Dependency) : List Call :=
  .setRange (some dependency.range) :: dependency.kinds.map .addKind ++
    dependency.metadata.map fun entry => .addMetadata entry.1 entry.2

/-- All calls, those that made the copy included. -/
def history (copied : Option Dependency) (calls : List Call) : List Call :=
  copied.elim [] copying ++ calls

/-- A dependency has the parts that some calls added and that no later call took away, in order and
without repetition. -/
structure Collects (calls : List Call) (dependency : Dependency) : Prop where
  range : RangeStands dependency.range calls
  kinds : ∀ kind, kind ∈ dependency.kinds ↔ KindStands kind calls
  names : dependency.metadata.map Prod.fst = (namesAdded calls).eraseDups
  entries : ∀ name value, (name, value) ∈ dependency.metadata ↔ EntryStands name value calls
  parts : Dependency.Parts dependency.kinds dependency.metadata

/-! ## One more call -/

variable {calls : List Call} {builder : Builder} {last : Call}

theorem stands_concat_iff {undoes : Call → Prop} {call : Call} :
    Stands undoes call (calls ++ [last]) ↔
      last = call ∨ ¬undoes last ∧ Stands undoes call calls := by
  constructor
  · rintro ⟨earlier, later, split, kept⟩
    rcases List.eq_nil_or_concat later with rfl | ⟨later, final, rfl⟩
    · exact .inl (List.singleton_inj.1 (List.append_inj_right' split rfl))
    · rw [List.concat_eq_append, ← List.cons_append, ← List.append_assoc] at split
      rcases List.append_inj' split rfl with ⟨rfl, same⟩
      rcases List.singleton_inj.1 same with rfl
      rw [List.concat_eq_append, List.forall_mem_append, List.forall_mem_singleton] at kept
      exact .inr ⟨kept.2, earlier, later, rfl, kept.1⟩
  · rintro (rfl | ⟨keeps, earlier, later, rfl, kept⟩)
    · exact ⟨calls, [], rfl, List.forall_mem_nil _⟩
    · refine ⟨earlier, later ++ [last], by simp, ?_⟩
      rw [List.forall_mem_append, List.forall_mem_singleton]
      exact ⟨kept, keeps⟩

theorem rangeStands_concat_iff {range : Range} :
    RangeStands range (calls ++ [last]) ↔ last = .setRange (some range) ∨
      (∀ given, last ≠ .setRange given) ∧ RangeStands range calls := by
  rw [RangeStands, stands_concat_iff, not_exists]

theorem kindStands_concat_iff {kind : Text} :
    KindStands kind (calls ++ [last]) ↔
      Dependency.checkKind kind = .ok () ∧ last = .addKind kind ∨
        last ≠ .clearKinds ∧ KindStands kind calls := by
  rw [KindStands, stands_concat_iff, and_or_left, and_left_comm]
  rfl

theorem entryStands_concat_iff {name value : Text} :
    EntryStands name value (calls ++ [last]) ↔
      Dependency.checkMetadataName name = .ok () ∧ last = .addMetadata name value ∨
        (last ≠ .clearMetadata ∧ ∀ given, last ≠ .addMetadata name given) ∧
          EntryStands name value calls := by
  rw [EntryStands, stands_concat_iff, and_or_left, and_left_comm, not_or, not_exists]
  rfl

theorem namesAdded_concat (calls : List Call) (last : Call) :
    namesAdded (calls ++ [last]) =
      if last = .clearMetadata then [] else namesAdded calls ++ last.name?.toList := by
  rw [namesAdded, List.rtakeWhile_concat]
  by_cases cleared : last = .clearMetadata
  · simp [cleared]
  · simp only [cleared, ne_eq, not_false_eq_true, decide_true, if_true, if_false,
      List.filterMap_append, namesAdded]
    cases found : last.name? <;> simp [found]

/-- The parts of a builder are those that some calls added and that no later call took away. -/
structure Reflects (calls : List Call) (builder : Builder) : Prop where
  range : ∀ range, builder.range = some range ↔ RangeStands range calls
  kinds : ∀ kind, kind ∈ builder.kinds ↔ KindStands kind calls
  names : builder.metadata.map Prod.fst = (namesAdded calls).eraseDups
  entries : ∀ name value, (name, value) ∈ builder.metadata ↔ EntryStands name value calls
  parts : Dependency.Parts builder.kinds builder.metadata

namespace Reflects

variable (reflects : Reflects calls builder)

include reflects

/-- Calls of which the same stands are reflected by the same builders. -/
theorem of_same {others : List Call}
    (range : ∀ range, RangeStands range others ↔ RangeStands range calls)
    (kinds : ∀ kind, KindStands kind others ↔ KindStands kind calls)
    (names : namesAdded others = namesAdded calls)
    (entries : ∀ name value, EntryStands name value others ↔ EntryStands name value calls) :
    Reflects others builder where
  range other := (reflects.range other).trans (range other).symm
  kinds kind := (reflects.kinds kind).trans (kinds kind).symm
  names := reflects.names.trans (by rw [names])
  entries name value := (reflects.entries name value).trans (entries name value).symm
  parts := reflects.parts

theorem setRange (range : Option Range) :
    Reflects (calls ++ [.setRange range]) (builder.setRange range) where
  range := by
    intro other
    rw [rangeStands_concat_iff]
    simp [Builder.setRange]
  kinds kind := (reflects.kinds kind).trans (by simp [kindStands_concat_iff])
  names := reflects.names.trans (by simp [namesAdded_concat, Call.name?])
  entries name value := (reflects.entries name value).trans (by simp [entryStands_concat_iff])
  parts := reflects.parts

theorem addKind {kind : Text} {next : Builder} (added : builder.addKind kind = .ok next) :
    Reflects (calls ++ [.addKind kind]) next := by
  rcases bind_eq_ok_iff.1 added with ⟨⟨⟩, checked, made⟩
  rcases pure_eq_ok_iff.1 made with rfl
  refine ⟨?_, ?_, ?_, ?_, parts_addKind reflects.parts added⟩
  · intro other
    rw [reflects.range other]
    simp [rangeStands_concat_iff]
  · intro other
    rw [kindStands_concat_iff, SortedSet.mem_insert, reflects.kinds]
    simp only [ne_eq, reduceCtorEq, not_false_eq_true, true_and, Call.addKind.injEq]
    apply or_congr_left
    constructor
    · rintro rfl
      exact ⟨checked, rfl⟩
    · rintro ⟨-, same⟩
      exact same.symm
  · rw [reflects.names]
    simp [namesAdded_concat, Call.name?]
  · intro name value
    rw [reflects.entries]
    simp [entryStands_concat_iff]

/-- Nothing stands of a kind that is refused. -/
theorem refusedKind {kind : Text} (refused : Dependency.checkKind kind ≠ .ok ()) :
    Reflects (calls ++ [.addKind kind]) builder := by
  apply reflects.of_same
  · simp [rangeStands_concat_iff]
  · intro other
    rw [kindStands_concat_iff]
    simp only [ne_eq, reduceCtorEq, not_false_eq_true, true_and]
    apply or_iff_right
    rintro ⟨checked, same⟩
    rcases Call.addKind.inj same with rfl
    exact refused checked
  · simp [namesAdded_concat, Call.name?]
  · simp [entryStands_concat_iff]

theorem addMetadata {name value : Text} {next : Builder}
    (added : builder.addMetadata name value = .ok next) :
    Reflects (calls ++ [.addMetadata name value]) next := by
  rcases bind_eq_ok_iff.1 added with ⟨⟨⟩, checked, made⟩
  rcases pure_eq_ok_iff.1 made with rfl
  refine ⟨?_, ?_, ?_, ?_, parts_addMetadata reflects.parts added⟩
  · intro other
    rw [reflects.range other]
    simp [rangeStands_concat_iff]
  · intro kind
    rw [reflects.kinds kind]
    simp [kindStands_concat_iff]
  · have known : Entries.has name builder.metadata = true ↔ name ∈ namesAdded calls := by
      rw [Entries.has_eq_true_iff, reflects.names, List.mem_eraseDups]
    have names : namesAdded (calls ++ [.addMetadata name value]) = namesAdded calls ++ [name] := by
      simp [namesAdded_concat, Call.name?, checked]
    rw [names, List.eraseDups_append, Entries.keys_set, reflects.names]
    by_cases earlier : name ∈ namesAdded calls
    · rw [if_pos (known.2 earlier)]
      simp [List.removeAll, earlier]
    · rw [if_neg (mt known.1 earlier)]
      simp [List.removeAll, earlier, List.eraseDups_cons]
  · intro other content
    rw [← Entries.get?_eq_some_iff (Entries.nodup_set reflects.parts.distinct name value),
      Entries.get?_set, entryStands_concat_iff]
    simp only [Call.addMetadata.injEq, ne_eq, reduceCtorEq, not_false_eq_true, true_and]
    by_cases same : other = name
    · simp [same, checked]
    · rw [if_neg same, Entries.get?_eq_some_iff reflects.parts.distinct, reflects.entries]
      simp [Ne.symm same]

/-- Nothing stands of a metadata name that is refused. -/
theorem refusedMetadata {name value : Text}
    (refused : Dependency.checkMetadataName name ≠ .ok ()) :
    Reflects (calls ++ [.addMetadata name value]) builder := by
  apply reflects.of_same
  · simp [rangeStands_concat_iff]
  · simp [kindStands_concat_iff]
  · simp [namesAdded_concat, Call.name?, refused]
  · intro other content
    by_cases same : other = name
    · rw [same, EntryStands, EntryStands]
      simp [refused]
    · rw [entryStands_concat_iff]
      simp [Ne.symm same]

theorem clearKinds : Reflects (calls ++ [.clearKinds]) builder.clearKinds where
  range other := (reflects.range other).trans (by simp [rangeStands_concat_iff])
  kinds kind := by
    rw [kindStands_concat_iff]
    simp [Builder.clearKinds]
  names := reflects.names.trans (by simp [namesAdded_concat, Call.name?])
  entries name value := (reflects.entries name value).trans (by simp [entryStands_concat_iff])
  parts := { reflects.parts with sorted := .nil, isKind := nofun, kindNotReserved := nofun }

theorem clearMetadata : Reflects (calls ++ [.clearMetadata]) builder.clearMetadata where
  range other := (reflects.range other).trans (by simp [rangeStands_concat_iff])
  kinds kind := (reflects.kinds kind).trans (by simp [kindStands_concat_iff])
  names := by simp [namesAdded_concat, Builder.clearMetadata]
  entries name value := by
    rw [entryStands_concat_iff]
    simp [Builder.clearMetadata]
  parts := { reflects.parts with
    isMetadataName := nofun, nameNotReserved := nofun, distinct := .nil }

theorem build : Reflects (calls ++ [.build]) builder := by
  apply reflects.of_same
  · simp [rangeStands_concat_iff]
  · simp [kindStands_concat_iff]
  · simp [namesAdded_concat, Call.name?]
  · simp [entryStands_concat_iff]

/-- A call, refused or not, is reflected by the builder after it. -/
theorem after (last : Call) : Reflects (calls ++ [last]) (builder.after last) := by
  rw [Builder.after]
  cases last with
  | setRange range => exact reflects.setRange range
  | addKind kind =>
      rcases added : builder.addKind kind with failure | next
      · simp only [call, added]
        apply reflects.refusedKind
        intro checked
        rw [Builder.addKind, checked] at added
        contradiction
      · simp only [call, added]
        exact reflects.addKind added
  | addMetadata name value =>
      rcases added : builder.addMetadata name value with failure | next
      · simp only [call, added]
        apply reflects.refusedMetadata
        intro checked
        rw [Builder.addMetadata, checked] at added
        contradiction
      · simp only [call, added]
        exact reflects.addMetadata added
  | clearKinds => exact reflects.clearKinds
  | clearMetadata => exact reflects.clearMetadata
  | build =>
      rcases built : builder.build with failure | dependency
      · simp only [call, built]
        exact reflects.build
      · simp only [call, built]
        exact reflects.build

/-- Whatever is called, the builder reflects all calls. -/
theorem run (others : List Call) : Reflects (calls ++ others) (builder.run others) := by
  induction others using List.reverseRecOn with
  | nil => simpa [Builder.run] using reflects
  | append_singleton others last ih =>
      rw [← List.append_assoc, Builder.run, List.foldl_concat]
      exact ih.after last

/-- Something is built exactly if a range stands and a kind does. -/
theorem exists_build_iff :
    (∃ dependency, builder.build = .ok dependency) ↔
      (∃ range, RangeStands range calls) ∧ ∃ kind, KindStands kind calls := by
  constructor
  · rintro ⟨dependency, made⟩
    rcases build_eq_ok_iff.1 made with ⟨range, nonempty, -, -⟩
    rcases List.exists_mem_of_ne_nil _ nonempty with ⟨kind, member⟩
    exact ⟨⟨_, (reflects.range _).1 range⟩, kind, (reflects.kinds kind).1 member⟩
  · rintro ⟨⟨range, rangeStands⟩, kind, kindStands⟩
    have nonempty := List.ne_nil_of_mem ((reflects.kinds kind).2 kindStands)
    exact ⟨⟨_, range, _⟩,
      build_eq_ok_iff.2 ⟨(reflects.range range).2 rangeStands, nonempty, rfl, rfl⟩⟩

/-- Nothing is built but what stands. -/
theorem collects {dependency : Dependency} (made : builder.build = .ok dependency) :
    Collects calls dependency := by
  rcases build_eq_ok_iff.1 made with ⟨range, -, kinds, metadata⟩
  refine ⟨(reflects.range _).1 range, ?_, ?_, ?_, ?_⟩
  · rw [kinds]
    exact reflects.kinds
  · rw [metadata]
    exact reflects.names
  · rw [metadata]
    exact reflects.entries
  · rw [kinds, metadata]
    exact reflects.parts

end Reflects

/-! ## Whole runs -/

theorem reflects_empty : Reflects [] {} where
  range range := by simp [RangeStands, Stands]
  kinds kind := by simp [KindStands, Stands]
  names := rfl
  entries name value := by simp [EntryStands, Stands]
  parts := ⟨.nil, nofun, nofun, nofun, nofun, .nil⟩

/-- Calls that are not refused lead where the additions lead. -/
theorem run_map {Item : Type} {items : List Item} {make : Item → Call}
    {add : Builder → Item → Except Failure Builder} {next : Builder}
    (agree : ∀ (builder : Builder) (item : Item) (next : Builder),
      add builder item = .ok next → builder.after (make item) = next)
    (added : items.foldlM add builder = .ok next) : builder.run (items.map make) = next := by
  induction items generalizing builder with
  | nil => exact pure_eq_ok_iff.1 added
  | cons item items ih =>
      rw [List.foldlM_cons, bind_eq_ok_iff] at added
      rcases added with ⟨middle, first, rest⟩
      rw [List.map_cons, run, List.foldl_cons, agree builder item middle first]
      exact ih rest

/-- The calls that make a copy lead from an empty builder to the copy. -/
theorem run_copying {dependency : Dependency} (built : dependency.Built) :
    run {} (copying dependency) = ofDependency dependency := by
  rcases Dependency.built_iff.1 built with ⟨parts, nonempty⟩
  have assembled := Dependency.assemble_eq_self parts nonempty
  simp only [assemble, bind_eq_ok_iff] at assembled
  rcases assembled with ⟨withKinds, kindsAdded, complete, metadataAdded, made⟩
  have copy : complete = ofDependency dependency := by
    rcases build_eq_ok_iff.1 made with ⟨range, -, kinds, metadata⟩
    rw [ofDependency, ← range, kinds, metadata]
  have first : run {} [.setRange (some dependency.range)] =
      setRange {} (some dependency.range) := rfl
  have second : run (setRange {} (some dependency.range)) (dependency.kinds.map .addKind) =
      withKinds := by
    refine run_map ?_ kindsAdded
    intro builder kind next added
    simp [after, call, added]
  have third : run withKinds (dependency.metadata.map fun entry => .addMetadata entry.1 entry.2) =
      complete := by
    refine run_map ?_ metadataAdded
    intro builder entry next added
    simp [after, call, added]
  rw [copying, ← copy, ← third, ← second, ← first]
  simp only [run, List.foldl_append, List.foldl_cons, List.foldl_nil]

theorem reflects_start {copied : Option Dependency} (built : ∀ given ∈ copied, given.Built)
    (calls : List Call) : Reflects (history copied calls) ((start copied).run calls) := by
  cases copied with
  | none => exact reflects_empty.run calls
  | some given =>
      have copy := reflects_empty.run (copying given)
      rw [run_copying (built given rfl)] at copy
      exact copy.run calls

/-- What is called after a call that fails answers as if that one had not been made. -/
theorem answers_of_refused {refused : Call} {failure : Failure}
    (refusal : builder.call refused = .error failure) (later : List Call) :
    builder.run (refused :: later) = builder.run later ∧
      builder.answers (refused :: later) = .error failure :: builder.answers later := by
  have same : builder.after refused = builder := by
    rw [after, refusal]
  constructor
  · rw [run, List.foldl_cons, same, run]
  · rw [answers, same, refusal]
    rfl

/-- What a builder builds after any calls is said by the calls. It builds something exactly if a
range stands and a kind does, and nothing but what stands is built. A call that fails is as good as
never made. A copy is built as it was. -/
theorem build_run (copied : Option Dependency) (built : ∀ given ∈ copied, given.Built)
    (calls : List Call) :
    (∀ refused failure, ((start copied).run calls).call refused = .error failure →
      ∀ later, ((start copied).run calls).run (refused :: later) =
          ((start copied).run calls).run later ∧
        ((start copied).run calls).answers (refused :: later) =
          .error failure :: ((start copied).run calls).answers later) ∧
    ((∃ dependency, ((start copied).run calls).build = .ok dependency) ↔
      (∃ range, RangeStands range (history copied calls)) ∧
        ∃ kind, KindStands kind (history copied calls)) ∧
    (∀ dependency, ((start copied).run calls).build = .ok dependency →
      Collects (history copied calls) dependency) ∧
    ∀ given ∈ copied, (start copied).build = .ok given := by
  have reflects := reflects_start built calls
  refine ⟨fun _ _ refusal => answers_of_refused refusal, reflects.exists_build_iff,
    fun _ => reflects.collects, ?_⟩
  rintro given rfl
  rcases Dependency.built_iff.1 (built given rfl) with ⟨-, nonempty⟩
  exact build_eq_ok_iff.2 ⟨rfl, nonempty, rfl, rfl⟩

/-- A kind is refused, the kinds are cleared and one is added, and a copied value is overwritten. -/
theorem build_run_overwritten :
    let given : Dependency := ⟨["compile"], .base "1", [("note", "old"), ("optional", "true")]⟩
    let calls : List Call := [.addKind "nest-all", .clearKinds, .addKind "runtime",
      .addMetadata "note" "new"]
    let made : Dependency := ⟨["runtime"], .base "1", [("note", "new"), ("optional", "true")]⟩
    (∀ dependency ∈ some given, dependency.Built) ∧
      ((start (some given)).run calls).build = .ok made ∧
      Collects (history (some given) calls) made ∧ (start (some given)).build = .ok given := by
  intro given calls made
  have parts : Dependency.Parts given.kinds given.metadata := by
    refine ⟨?_, ?_, ?_, ?_, ?_, ?_⟩ <;> decide
  have built : ∀ dependency ∈ some given, dependency.Built := by
    intro dependency member
    rw [← Option.mem_some_iff.1 member]
    exact Dependency.built_iff.2 ⟨parts, List.cons_ne_nil _ _⟩
  have makes : ((start (some given)).run calls).build = .ok made := by decide
  rcases build_run (some given) built calls with ⟨-, -, collects, copies⟩
  exact ⟨built, makes, collects made makes, copies given rfl⟩

end Builder

end BundleDecl
