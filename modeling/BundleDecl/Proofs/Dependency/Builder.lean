import BundleDecl.Dependency.Builder
import BundleDecl.Proofs.Dependency
import BundleDecl.Proofs.Entries

/-!
# What can be built

Whatever calls lead to a builder, its parts are ones that a dependency may have. So everything that
is built of a range in normal form is in canonical form.
-/

namespace BundleDecl

namespace Builder

/-- Some calls lead to the builder. -/
inductive Reachable : Builder → Prop where
  | empty : Reachable {}
  | ofDependency {builder : Builder} {dependency : Dependency} :
      Reachable builder → builder.build = .ok dependency → Reachable (ofDependency dependency)
  | setRange {builder : Builder} (range : Option Range) :
      Reachable builder → Reachable (builder.setRange range)
  | addKind {builder next : Builder} {kind : Text} :
      Reachable builder → builder.addKind kind = .ok next → Reachable next
  | addMetadata {builder next : Builder} {name value : Text} :
      Reachable builder → builder.addMetadata name value = .ok next → Reachable next
  | clearKinds {builder : Builder} : Reachable builder → Reachable builder.clearKinds
  | clearMetadata {builder : Builder} : Reachable builder → Reachable builder.clearMetadata

theorem build_eq_ok_iff {builder : Builder} {dependency : Dependency} :
    builder.build = .ok dependency ↔ builder.range = some dependency.range ∧ builder.kinds ≠ [] ∧
      dependency.kinds = builder.kinds ∧ dependency.metadata = builder.metadata := by
  rcases builder with ⟨kinds, range, metadata⟩
  rcases dependency with ⟨otherKinds, otherRange, otherMetadata⟩
  simp only [build]
  split
  · simp_all
  · split
    · simp_all
    · simp_all [eq_comm]
      tauto

theorem parts_addKind {builder next : Builder} {kind : Text}
    (parts : Dependency.Parts builder.kinds builder.metadata)
    (added : builder.addKind kind = .ok next) :
    Dependency.Parts next.kinds next.metadata := by
  simp only [addKind, bind_eq_ok_iff, pure_eq_ok_iff] at added
  rcases added with ⟨⟨⟩, checked, rfl⟩
  rw [Dependency.checkKind_eq_ok_iff] at checked
  refine { parts with
    sorted := SortedSet.pairwise_insert kind parts.sorted
    isKind := ?_
    kindNotReserved := ?_ }
  · intro other member
    rcases SortedSet.mem_insert.1 member with rfl | member
    · exact checked.1
    · exact parts.isKind other member
  · intro other member
    rcases SortedSet.mem_insert.1 member with rfl | member
    · exact checked.2
    · exact parts.kindNotReserved other member

theorem mem_keys_set {name other value : Text} {metadata : List (Text × Text)}
    (member : other ∈ (Entries.set name value metadata).map Prod.fst) :
    other = name ∨ other ∈ metadata.map Prod.fst := by
  rw [Entries.keys_set] at member
  split at member
  · exact Or.inr member
  · simpa [or_comm] using member

theorem parts_addMetadata {builder next : Builder} {name value : Text}
    (parts : Dependency.Parts builder.kinds builder.metadata)
    (added : builder.addMetadata name value = .ok next) :
    Dependency.Parts next.kinds next.metadata := by
  simp only [addMetadata, bind_eq_ok_iff, pure_eq_ok_iff] at added
  rcases added with ⟨⟨⟩, checked, rfl⟩
  rw [Dependency.checkMetadataName_eq_ok_iff] at checked
  refine { parts with
    isMetadataName := ?_
    nameNotReserved := ?_
    distinct := Entries.nodup_set parts.distinct name value }
  · intro other member
    rcases mem_keys_set member with rfl | member
    · exact checked.1
    · exact parts.isMetadataName other member
  · intro other member
    rcases mem_keys_set member with rfl | member
    · exact checked.2
    · exact parts.nameNotReserved other member

/-- The parts of a builder are ones that a dependency may have. -/
theorem Reachable.parts {builder : Builder} (reachable : builder.Reachable) :
    Dependency.Parts builder.kinds builder.metadata := by
  induction reachable with
  | empty => exact ⟨.nil, by simp, by simp, by simp, by simp, .nil⟩
  | ofDependency _ built parts =>
      rcases build_eq_ok_iff.1 built with ⟨_, _, kinds, metadata⟩
      simpa only [Builder.ofDependency, kinds, metadata] using parts
  | setRange range _ parts => exact parts
  | addKind _ added parts => exact parts_addKind parts added
  | addMetadata _ added parts => exact parts_addMetadata parts added
  | clearKinds _ parts =>
      exact { parts with sorted := .nil, isKind := nofun, kindNotReserved := nofun }
  | clearMetadata _ parts =>
      exact { parts with isMetadataName := nofun, nameNotReserved := nofun, distinct := .nil }

/-! ## Parts one by one -/

/-- The dependency that a builder makes of a range and of kinds and metadata added one by one. -/
def assemble (range : Range) (kinds : List Text) (metadata : List (Text × Text)) :
    Except Failure Dependency := do
  let kindsAdded ← kinds.foldlM addKind (setRange {} (some range))
  let complete ← metadata.foldlM (fun builder entry => builder.addMetadata entry.1 entry.2)
    kindsAdded
  complete.build

theorem foldlM_addKind {kinds : List Text} (builder : Builder)
    (checked : ∀ kind ∈ kinds, Dependency.checkKind kind = .ok ()) :
    kinds.foldlM addKind builder = .ok { builder with
      kinds := kinds.foldl (fun set kind => SortedSet.insert kind set) builder.kinds } := by
  induction kinds generalizing builder with
  | nil => rfl
  | cons kind kinds ih =>
      rw [List.forall_mem_cons] at checked
      have added : builder.addKind kind =
          .ok { builder with kinds := SortedSet.insert kind builder.kinds } := by
        rw [addKind, checked.1]
        rfl
      rw [List.foldlM_cons, added]
      exact ih _ checked.2

theorem foldlM_addMetadata {metadata : List (Text × Text)} (builder : Builder)
    (checked : ∀ name ∈ metadata.map Prod.fst, Dependency.checkMetadataName name = .ok ())
    (distinct : ((builder.metadata ++ metadata).map Prod.fst).Nodup) :
    metadata.foldlM (fun builder entry => builder.addMetadata entry.1 entry.2) builder =
      .ok { builder with metadata := builder.metadata ++ metadata } := by
  induction metadata generalizing builder with
  | nil => simp [pure, Except.pure]
  | cons entry metadata ih =>
      rw [List.map_cons, List.forall_mem_cons] at checked
      rw [List.append_cons] at distinct ⊢
      have fresh := (Entries.nodup_concat_iff.1 (Entries.nodup_of_append distinct)).2
      have added : builder.addMetadata entry.1 entry.2 =
          .ok { builder with metadata := builder.metadata ++ [entry] } := by
        rw [addMetadata, checked.1, Entries.set_of_notMem fresh]
        rfl
      rw [List.foldlM_cons, added]
      exact ih { builder with metadata := builder.metadata ++ [entry] } checked.2 distinct

/-- Parts that a dependency may have are refused neither one by one nor at the end. -/
theorem assemble_eq_ok {range : Range} {kinds : List Text} {metadata : List (Text × Text)}
    (nonempty : kinds ≠ []) (kindsChecked : ∀ kind ∈ kinds, Dependency.checkKind kind = .ok ())
    (namesChecked : ∀ name ∈ metadata.map Prod.fst, Dependency.checkMetadataName name = .ok ())
    (distinct : (metadata.map Prod.fst).Nodup) :
    assemble range kinds metadata = .ok ⟨SortedSet.ofList kinds, range, metadata⟩ := by
  have collected : kinds.foldl (fun set kind => SortedSet.insert kind set) [] =
      SortedSet.ofList kinds := SortedSet.foldl_insert List.Pairwise.nil
  have kindsAdded : kinds.foldlM addKind (setRange {} (some range)) =
      .ok ⟨SortedSet.ofList kinds, some range, []⟩ := by
    rw [← collected]
    exact foldlM_addKind _ kindsChecked
  have namesAdded :=
    foldlM_addMetadata ⟨SortedSet.ofList kinds, some range, []⟩ namesChecked distinct
  rw [assemble, bind_eq_ok_iff]
  refine ⟨_, kindsAdded, ?_⟩
  rw [bind_eq_ok_iff]
  exact ⟨_, namesAdded, build_eq_ok_iff.2 ⟨rfl, SortedSet.ofList_ne_nil nonempty, rfl, rfl⟩⟩

/-- Nothing else is made of kinds and metadata, and no parts that are refused. -/
theorem assemble_eq_ok_iff {range : Range} {kinds : List Text} {metadata : List (Text × Text)}
    {dependency : Dependency} (nonempty : kinds ≠ [])
    (distinct : (metadata.map Prod.fst).Nodup) :
    assemble range kinds metadata = .ok dependency ↔
      (∀ kind ∈ kinds, Dependency.checkKind kind = .ok ()) ∧
      (∀ name ∈ metadata.map Prod.fst, Dependency.checkMetadataName name = .ok ()) ∧
      dependency = ⟨SortedSet.ofList kinds, range, metadata⟩ := by
  constructor
  · intro assembled
    have made := assembled
    rw [assemble, bind_eq_ok_iff] at made
    rcases made with ⟨kindsAdded, kindSteps, made⟩
    rw [bind_eq_ok_iff] at made
    rcases made with ⟨complete, nameSteps, -⟩
    have kindsChecked : ∀ kind ∈ kinds, Dependency.checkKind kind = .ok () := by
      refine forall_of_foldlM_eq_ok ?_ kindSteps
      intro builder kind next added
      rcases bind_eq_ok_iff.1 added with ⟨⟨⟩, checked, -⟩
      exact checked
    have namesChecked : ∀ name ∈ metadata.map Prod.fst,
        Dependency.checkMetadataName name = .ok () := by
      rw [List.forall_mem_map]
      refine forall_of_foldlM_eq_ok ?_ nameSteps
      intro builder entry next added
      rcases bind_eq_ok_iff.1 added with ⟨⟨⟩, checked, -⟩
      exact checked
    rw [assemble_eq_ok nonempty kindsChecked namesChecked distinct, Except.ok.injEq] at assembled
    exact ⟨kindsChecked, namesChecked, assembled.symm⟩
  · rintro ⟨kindsChecked, namesChecked, rfl⟩
    exact assemble_eq_ok nonempty kindsChecked namesChecked distinct

theorem Reachable.foldlM_addKind {builder next : Builder} {kinds : List Text}
    (reachable : builder.Reachable) (added : kinds.foldlM Builder.addKind builder = .ok next) :
    next.Reachable :=
  invariant_of_foldlM_eq_ok Reachable (fun _ _ _ => .addKind) reachable added

theorem Reachable.foldlM_addMetadata {builder next : Builder} {metadata : List (Text × Text)}
    (reachable : builder.Reachable)
    (added : metadata.foldlM (fun builder entry => builder.addMetadata entry.1 entry.2) builder =
      .ok next) : next.Reachable :=
  invariant_of_foldlM_eq_ok Reachable (fun _ _ _ => .addMetadata) reachable added

end Builder

namespace Dependency

/-- Some calls of a builder make the dependency. -/
def Built (dependency : Dependency) : Prop :=
  ∃ builder : Builder, builder.Reachable ∧ builder.build = .ok dependency

/-- A dependency is made of its own parts. -/
theorem assemble_eq_self {dependency : Dependency}
    (parts : Parts dependency.kinds dependency.metadata) (nonempty : dependency.kinds ≠ []) :
    Builder.assemble dependency.range dependency.kinds dependency.metadata = .ok dependency := by
  rw [Builder.assemble_eq_ok nonempty parts.kindsChecked parts.namesChecked parts.distinct,
    SortedSet.ofList_eq_self parts.sorted]

theorem built_of_assemble {range : Range} {kinds : List Text} {metadata : List (Text × Text)}
    {dependency : Dependency} (assembled : Builder.assemble range kinds metadata = .ok dependency) :
    dependency.Built := by
  simp only [Builder.assemble, bind_eq_ok_iff] at assembled
  rcases assembled with ⟨withKinds, kindsAdded, complete, metadataAdded, made⟩
  have start : (Builder.setRange {} (some range)).Reachable := .setRange _ .empty
  have reachable := (start.foldlM_addKind kindsAdded).foldlM_addMetadata metadataAdded
  exact ⟨complete, reachable, made⟩

/-- The parts of a dependency decide whether it can be built. -/
theorem built_iff {dependency : Dependency} :
    dependency.Built ↔
      Parts dependency.kinds dependency.metadata ∧ dependency.kinds ≠ [] := by
  constructor
  · rintro ⟨builder, reachable, made⟩
    rcases Builder.build_eq_ok_iff.1 made with ⟨_, nonempty, kinds, metadata⟩
    have parts := reachable.parts
    rw [kinds, metadata]
    exact ⟨parts, nonempty⟩
  · rintro ⟨parts, nonempty⟩
    exact built_of_assemble (assemble_eq_self parts nonempty)

theorem Built.canonical {dependency : Dependency} (built : dependency.Built)
    (normal : dependency.range.Normal) : dependency.Canonical := by
  rcases built_iff.1 built with ⟨parts, nonempty⟩
  exact ⟨parts, nonempty, normal⟩

end Dependency

end BundleDecl
