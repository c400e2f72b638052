import BundleDecl.Proofs.Declarations.Acceptance
import BundleDecl.Proofs.Dependency.Builder
import BundleDecl.Proofs.DependencyList
import BundleDecl.Proofs.Identifier

/-!
# Canonical declarations

Declarations are in canonical form if their targets are and have lists of different dependencies in
canonical form. Whatever is made of identifiers, builders and well-formed ranges is in this form,
and so is whatever is read from a text.
-/

namespace BundleDecl

/-- No metadata value holds a carriage return. -/
def Dependency.NoReturn (dependency : Dependency) : Prop :=
  ∀ value ∈ dependency.metadata.map Prod.snd, '\r' ∉ value

namespace Declarations

/-- A target and its dependencies in canonical form. -/
structure CanonicalEntry (target : Identifier) (list : DependencyList) : Prop where
  canonical : target.Canonical
  unversioned : target.version = none
  nonempty : list.dependencies ≠ []
  separate : DependencyList.Separate list.dependencies
  dependency : ∀ dependency ∈ list.dependencies, dependency.Canonical

/-- Declarations in canonical form. -/
structure Canonical (declarations : Declarations) : Prop where
  entry : ∀ entry ∈ declarations.entries, CanonicalEntry entry.1 entry.2
  distinct : (declarations.entries.map Prod.fst).Nodup

/-- No metadata value holds a carriage return. -/
def NoReturn (declarations : Declarations) : Prop :=
  ∀ entry ∈ declarations.entries, ∀ dependency ∈ entry.2.dependencies, dependency.NoReturn

/-! ## What is made -/

/-- Entries for different targets, made of identifiers, builders and well-formed ranges. -/
structure Made (entries : List (Identifier × DependencyList)) : Prop where
  distinct : (entries.map Prod.fst).Nodup
  target : ∀ entry ∈ entries, ∃ name qualifiers, Identifier.ofParts name qualifiers = .ok entry.1
  list : ∀ entry ∈ entries, ∃ dependencies, entry.2 = .ofList dependencies ∧
    ∀ dependency ∈ dependencies, dependency.Built ∧ dependency.range.WellFormed

/-- Declarations of entries that were made so. -/
def WellFormed (declarations : Declarations) : Prop :=
  ∃ entries, Made entries ∧ ofEntries entries = .ok declarations

theorem WellFormed.canonical {declarations : Declarations} (wellFormed : declarations.WellFormed) :
    declarations.Canonical := by
  rcases wellFormed with ⟨entries, made, kept⟩
  rcases ofEntries_eq_ok_iff.1 kept with ⟨unversioned, rfl⟩
  constructor
  · intro entry member
    rcases List.mem_filter.1 member with ⟨member, nonempty⟩
    rcases made.target entry member with ⟨name, qualifiers, target⟩
    rcases made.list entry member with ⟨dependencies, list, built⟩
    refine {
      canonical := Identifier.canonical_of_ofParts target
      unversioned := unversioned entry member
      nonempty := by simpa [DependencyList.isEmpty] using nonempty
      separate := list ▸ DependencyList.separate_distinctFrom [] dependencies
      dependency := ?_ }
    intro dependency dependencyMem
    rw [list] at dependencyMem
    have known := DependencyList.mem_of_mem_distinctFrom dependencyMem
    exact (built dependency known).1.canonical (built dependency known).2.normal
  · exact made.distinct.sublist (List.filter_sublist.map Prod.fst)

/-! ## What is read -/

variable {declaring : Option Identifier}

theorem KindLine.canonical {this : Option Text} {indentation line : Text} {kinds : List Text}
    {range : Range} {metadata : List (Text × Text)}
    (kindLine : KindLine this indentation line kinds range)
    (isName : ∀ name ∈ metadata.map Prod.fst, Dependency.isMetadataName name = true)
    (notReserved : ∀ name ∈ metadata.map Prod.fst, Dependency.isReserved name = false)
    (distinct : (metadata.map Prod.fst).Nodup) :
    (Dependency.mk (SortedSet.ofList kinds) range metadata).Canonical := by
  rcases kindLine.split with ⟨before, after, _, _, _, ranged⟩
  refine ⟨?_, ?_, (Range.wellFormed_of_ofText ranged).normal⟩
  · exact {
      sorted := SortedSet.pairwise_ofList kinds
      isKind := fun kind member => kindLine.isKind kind (SortedSet.mem_ofList.1 member)
      kindNotReserved := fun kind member =>
        kindLine.notReserved kind (SortedSet.mem_ofList.1 member)
      isMetadataName := isName
      nameNotReserved := notReserved
      distinct }
  · exact SortedSet.ofList_ne_nil kindLine.nonempty

theorem DependencyLines.canonical {this : Option Text} {indentation : Text} {lines : List Text}
    {dependency : Dependency} (written : DependencyLines this indentation lines dependency) :
    dependency.Canonical := by
  cases written with
  | @intro line deeper lines kinds range metadata kindLine deepens entries distinct =>
      have named (name : Text) (member : name ∈ metadata.map Prod.fst) :
          Dependency.isMetadataName name = true ∧ Dependency.isReserved name = false := by
        rcases List.mem_map.1 member with ⟨⟨known, value⟩, entryMem, rfl⟩
        rcases entries.exists_of_mem entryMem with ⟨part, entryLines, _⟩
        cases entryLines with
        | intro metadataLine _ => exact ⟨metadataLine.isName, metadataLine.notReserved⟩
      exact kindLine.canonical (fun name member => (named name member).1)
        (fun name member => (named name member).2) distinct

theorem DependencyLines.noReturn {this : Option Text} {indentation : Text} {lines : List Text}
    {dependency : Dependency} (written : DependencyLines this indentation lines dependency)
    (clean : ∀ line ∈ lines, '\r' ∉ line) : dependency.NoReturn := by
  cases written with
  | @intro line deeper lines kinds range metadata kindLine deepens entries distinct =>
      intro value member inValue
      rcases List.mem_map.1 member with ⟨⟨name, known⟩, entryMem, rfl⟩
      rcases entries.exists_of_mem entryMem with ⟨part, entryLines, subset⟩
      cases entryLines with
      | @intro first name tail value others metadataLine valueLines =>
          rcases valueLines.mem inValue with feed | ⟨other, otherMem, inOther⟩
          · exact absurd feed (by decide)
          · rcases List.mem_cons.1 otherMem with rfl | otherMem
            · rcases metadataLine.split with ⟨before, split, _⟩
              refine clean first (List.mem_cons_of_mem _ (subset List.mem_cons_self)) ?_
              rw [split]
              simp [inOther]
            · have known := subset (List.mem_cons_of_mem first otherMem)
              exact clean other (List.mem_cons_of_mem _ known) inOther

theorem Written.canonical {lines : List Text} {declarations : Declarations}
    (written : Written declaring lines declarations.entries) : declarations.Canonical := by
  refine ⟨?_, written.distinct⟩
  intro entry member
  rcases written.blocks.exists_of_mem member with ⟨part, targetLines, _⟩
  cases targetLines with
  | @intro line indentation target lines dependencies targetLine _ nonempty blocks =>
      refine {
        canonical := Identifier.canonical_of_ofText targetLine.named
        unversioned := targetLine.unversioned
        nonempty := ?_
        separate := DependencyList.separate_distinctFrom [] dependencies
        dependency := ?_ }
      · have described := DependencyList.isEmpty_ofList nonempty
        simpa [DependencyList.isEmpty] using described
      · intro dependency dependencyMem
        have known := DependencyList.mem_of_mem_distinctFrom dependencyMem
        rcases blocks.exists_of_mem known with ⟨part, dependencyLines, _⟩
        exact dependencyLines.canonical

theorem Written.noReturn {lines : List Text} {declarations : Declarations}
    (written : Written declaring lines declarations.entries)
    (clean : ∀ line ∈ lines, '\r' ∉ line) : declarations.NoReturn := by
  intro entry member dependency dependencyMem
  rcases written.blocks.exists_of_mem member with ⟨part, targetLines, subset⟩
  cases targetLines with
  | intro _ _ _ blocks =>
      have known := DependencyList.mem_of_mem_distinctFrom dependencyMem
      rcases blocks.exists_of_mem known with ⟨inner, dependencyLines, inside⟩
      apply dependencyLines.noReturn
      intro line lineMem
      exact clean line (subset (List.mem_cons_of_mem _ (inside lineMem)))

/-- What is read is in canonical form and holds no carriage return. -/
theorem canonical_of_ofText {text : Text} {declarations : Declarations}
    (read : ofText declaring text = .ok declarations) :
    declarations.Canonical ∧ declarations.NoReturn := by
  have written := ofText_eq_ok_iff.1 read
  refine ⟨written.canonical, written.noReturn ?_⟩
  intro line member
  rw [contentLines, List.mem_filter] at member
  exact (Text.notMem_of_mem_splitLines (Text.mem_splitLines_of_mem_lines member.1)).1

end Declarations

end BundleDecl
