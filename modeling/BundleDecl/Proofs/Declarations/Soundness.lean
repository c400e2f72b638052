import BundleDecl.Proofs.Declarations.Step
import BundleDecl.Proofs.Entries
import BundleDecl.Proofs.MetadataValue

/-!
# Soundness of the reader

What has been read up to any line is the beginning of declarations, and the state of the reader is
what this beginning stands for. An unfinished value is described by how it may go on. Every step
keeps this invariant, and where nothing is missing the lines are declarations.
-/

namespace BundleDecl

theorem Sequence.concat {Item : Type} {piece : List Text → Item → Prop} {lines more : List Text}
    {items : List Item} {item : Item} (pieces : Sequence piece lines items)
    (last : piece more item) : Sequence piece (lines ++ more) (items ++ [item]) := by
  induction pieces with
  | nil => simpa using Sequence.cons last .nil
  | cons first others ih =>
      rw [List.append_assoc]
      exact .cons first ih

namespace Declarations

/-! ## Metadata entries -/

/-- The lines open a metadata entry: they are its lines if its value is complete, and else they are
its lines together with those that close its value. -/
def Opens (indentation : Text) (lines : List Text) (name : Text) : MetadataValue.Start → Prop
  | .complete value => EntryLines indentation lines (name, value)
  | .unclosed content => ∀ more value, MetadataValue.QuotedLines more value →
      EntryLines indentation (lines ++ more) (name, content ++ value)

section

variable {indentation line name : Text}

theorem opens_start {tail : Text} (metadataLine : MetadataLine indentation line name tail) :
    Opens indentation [line] name (MetadataValue.start tail) := by
  by_cases quoted : ∃ blanks rest, Text.isBlank blanks = true ∧ tail = blanks ++ '"' :: rest
  · rcases quoted with ⟨blanks, rest, blank, rfl⟩
    rw [MetadataValue.start_of_quote blank]
    by_cases closed : ∃ before, MetadataValue.Closes rest before
    · rcases closed with ⟨before, closes⟩
      rw [MetadataValue.extend_of_closes closes]
      exact .intro metadataLine (.quoted blank (.last closes))
    · rw [not_exists] at closed
      rw [MetadataValue.extend_of_not_closes closed]
      intro more value quoted
      have valueLines := MetadataValue.ValueLines.quoted blank (.more closed quoted)
      simpa using EntryLines.intro metadataLine valueLines
  · have plain (blanks rest : Text) (blank : Text.isBlank blanks = true) :
        tail ≠ blanks ++ '"' :: rest := fun split => quoted ⟨blanks, rest, blank, split⟩
    rw [MetadataValue.start_of_not_quote plain]
    exact .intro metadataLine (.plain plain)

theorem opens_extend {lines : List Text} {content : Text} (line : Text)
    (opens : Opens indentation lines name (.unclosed content)) :
    Opens indentation (lines ++ [line]) name (MetadataValue.extend content line) := by
  by_cases closed : ∃ before, MetadataValue.Closes line before
  · rcases closed with ⟨before, closes⟩
    rw [MetadataValue.extend_of_closes closes]
    exact opens _ _ (.last closes)
  · rw [not_exists] at closed
    rw [MetadataValue.extend_of_not_closes closed]
    intro more value quoted
    simpa using opens _ _ (.more closed quoted)

end

/-- The lines after a kind line that have been read: complete metadata entries, and the lines of an
unfinished one. -/
inductive MetadataRead (indentation : Text) :
    List Text → List (Text × Text) → Position → Prop where
  | kindLine : MetadataRead indentation [] [] .kindLine
  | metadata {deeper : Text} {lines : List Text} {metadata : List (Text × Text)} :
      Deepens indentation deeper → Sequence (EntryLines deeper) lines metadata →
      MetadataRead indentation lines metadata (.metadata deeper)
  | openValue {deeper name content : Text} {number : Nat} {lines opening : List Text}
      {metadata : List (Text × Text)} :
      Deepens indentation deeper → Sequence (EntryLines deeper) lines metadata →
      name ∉ metadata.map Prod.fst → Opens deeper opening name (.unclosed content) →
      MetadataRead indentation (lines ++ opening) metadata (.openValue deeper name content number)

/-- The lines of a block up to the last kind line that has been read. -/
inductive KindsRead (this : Option Text) (block : Block) : List Text → Prop where
  | intro {lines : List Text} {line : Text} {kinds : List Text} {range : Range} :
      block.indentation ≠ [] →
      Sequence (DependencyLines this block.indentation) lines block.complete →
      KindLine this block.indentation line kinds range →
      block.current.kinds = SortedSet.ofList kinds → block.current.range = range →
      KindsRead this block (lines ++ [line])

/-- The lines of a block that have been read. -/
inductive BlockRead (this : Option Text) (block : Block) : List Text → Prop where
  | intro {lines more : List Text} :
      KindsRead this block lines →
      MetadataRead block.indentation more block.current.metadata block.position →
      (block.current.metadata.map Prod.fst).Nodup →
      BlockRead this block (lines ++ more)

section

variable {this : Option Text} {block : Block} {lines more : List Text}

theorem KindsRead.takeValue (read : KindsRead this block lines) (indentation name : Text)
    (number : Nat) (start : MetadataValue.Start) :
    KindsRead this (block.takeValue indentation name number start) lines := by
  rcases read with ⟨nonempty, complete, kindLine, kinds, range⟩
  cases start with
  | complete value => exact .intro nonempty complete kindLine kinds range
  | unclosed content => exact .intro nonempty complete kindLine kinds range

/-- Lines that open an entry go on with the metadata of a block. -/
theorem blockRead_takeValue {opening : List Text} {deeper name : Text} {number : Nat}
    {start : MetadataValue.Start} (read : KindsRead this block lines)
    (deepens : Deepens block.indentation deeper)
    (written : Sequence (EntryLines deeper) more block.current.metadata)
    (distinct : (block.current.metadata.map Prod.fst).Nodup)
    (fresh : name ∉ block.current.metadata.map Prod.fst)
    (opens : Opens deeper opening name start) :
    BlockRead this (block.takeValue deeper name number start) (lines ++ (more ++ opening)) := by
  refine .intro (read.takeValue deeper name number start) ?_ ?_
  · cases start with
    | complete value => exact .metadata deepens (written.concat opens)
    | unclosed content => exact .openValue deepens written fresh opens
  · cases start with
    | complete value => exact Entries.nodup_concat_iff.2 ⟨distinct, fresh⟩
    | unclosed content => exact distinct

/-- Metadata lines of an indentation that may follow all have this indentation. -/
theorem MetadataRead.entries {metadata : List (Text × Text)} {deeper : Text}
    (read : MetadataRead block.indentation lines metadata block.position)
    (awaits : block.Awaits deeper) :
    Deepens block.indentation deeper ∧ Sequence (EntryLines deeper) lines metadata := by
  rcases block with ⟨target, indentation, complete, current, position⟩
  cases read with
  | kindLine => exact ⟨awaits, .nil⟩
  | metadata deepens written =>
      rcases awaits with rfl
      exact ⟨deepens, written⟩
  | openValue deepens written fresh opens => exact False.elim awaits

theorem MetadataRead.unfinished {indentation deeper name content : Text} {number : Nat}
    {metadata : List (Text × Text)}
    (read : MetadataRead indentation lines metadata (.openValue deeper name content number)) :
    ∃ done opening, lines = done ++ opening ∧ Deepens indentation deeper ∧
      Sequence (EntryLines deeper) done metadata ∧ name ∉ metadata.map Prod.fst ∧
      Opens deeper opening name (.unclosed content) := by
  cases read with
  | openValue deepens written fresh opens =>
      exact ⟨_, _, rfl, deepens, written, fresh, opens⟩

theorem exists_awaits (settled : block.Settled) : ∃ deeper, block.Awaits deeper := by
  rcases block with ⟨target, indentation, complete, current, position⟩
  cases position with
  | kindLine => exact ⟨indentation ++ [' '], List.prefix_append _ _, by simp⟩
  | metadata deeper => exact ⟨deeper, rfl⟩
  | openValue deeper name content line => exact False.elim settled

/-- The lines that have been read are those of dependencies unless a value is unfinished. -/
theorem BlockRead.dependencies (read : BlockRead this block lines) (settled : block.Settled) :
    Sequence (DependencyLines this block.indentation) lines
      (block.complete ++ [block.current]) := by
  rcases exists_awaits settled with ⟨deeper, awaits⟩
  rcases read with @⟨_, more, read, metadata, distinct⟩
  rcases read with @⟨lines, line, kinds, range, nonempty, complete, kindLine, sameKinds, sameRange⟩
  rcases metadata.entries awaits with ⟨deepens, written⟩
  rw [List.append_assoc]
  refine complete.concat ?_
  have dependency : block.current = ⟨SortedSet.ofList kinds, range, block.current.metadata⟩ := by
    rw [← sameKinds, ← sameRange]
  rw [dependency]
  exact .intro kindLine deepens written distinct

theorem BlockRead.nonempty (read : BlockRead this block lines) : block.indentation ≠ [] := by
  rcases read with ⟨read, metadata, distinct⟩
  rcases read with ⟨nonempty, complete, kindLine, kinds, range⟩
  exact nonempty

/-- The first kind line begins a block. -/
theorem blockRead_first {target : Identifier} {indentation line : Text} {kinds : List Text}
    {range : Range} (nonempty : indentation ≠ [])
    (kindLine : KindLine this indentation line kinds range) :
    BlockRead this ⟨target, indentation, [], ⟨SortedSet.ofList kinds, range, []⟩, .kindLine⟩
      [line] := by
  have kindsRead : KindsRead this
      ⟨target, indentation, [], ⟨SortedSet.ofList kinds, range, []⟩, .kindLine⟩ ([] ++ [line]) :=
    .intro nonempty .nil kindLine rfl rfl
  have blockRead := BlockRead.intro kindsRead .kindLine List.nodup_nil
  exact blockRead

/-- A further kind line begins a dependency. -/
theorem BlockRead.begin (read : BlockRead this block lines) (settled : block.Settled) {line : Text}
    {kinds : List Text} {range : Range}
    (kindLine : KindLine this block.indentation line kinds range) :
    BlockRead this (block.begin ⟨SortedSet.ofList kinds, range, []⟩) (lines ++ [line]) := by
  have kindsRead : KindsRead this (block.begin ⟨SortedSet.ofList kinds, range, []⟩)
      (lines ++ [line]) := .intro read.nonempty (read.dependencies settled) kindLine rfl rfl
  simpa using BlockRead.intro kindsRead .kindLine List.nodup_nil

theorem BlockRead.metadata (read : BlockRead this block lines) {indentation line name tail : Text}
    {number : Nat} (awaits : block.Awaits indentation)
    (metadataLine : MetadataLine indentation line name tail)
    (fresh : name ∉ block.current.metadata.map Prod.fst) :
    BlockRead this (block.takeValue indentation name number (MetadataValue.start tail))
      (lines ++ [line]) := by
  rcases read with ⟨read, metadata, distinct⟩
  rcases metadata.entries awaits with ⟨deepens, written⟩
  rw [List.append_assoc]
  exact blockRead_takeValue read deepens written distinct fresh (opens_start metadataLine)

theorem BlockRead.value (read : BlockRead this block lines) {indentation name content : Text}
    {number next : Nat} (line : Text)
    (position : block.position = .openValue indentation name content number) :
    BlockRead this (block.takeValue indentation name next (MetadataValue.extend content line))
      (lines ++ [line]) := by
  rcases read with ⟨read, metadata, distinct⟩
  rw [position] at metadata
  rcases metadata.unfinished with ⟨done, opening, rfl, deepens, written, fresh, opens⟩
  rw [List.append_assoc, List.append_assoc]
  exact blockRead_takeValue read deepens written distinct fresh (opens_extend line opens)

end

/-! ## Declarations -/

/-- What the state stands for has been read from the lines. -/
inductive StateRead (declaring : Option Identifier) : List Text → State → Prop where
  | outside : StateRead declaring [] .initial
  | announced {lines : List Text} {entries : List (Identifier × DependencyList)} {line : Text}
      {target : Identifier} {number : Nat} :
      Written declaring lines entries → TargetLine line target → target ∉ entries.map Prod.fst →
      StateRead declaring (lines ++ [line]) ⟨entries, .announced target number⟩
  | inside {lines more : List Text} {entries : List (Identifier × DependencyList)} {line : Text}
      {target : Identifier} {block : Block} :
      Written declaring lines entries → TargetLine line target → target ∉ entries.map Prod.fst →
      block.target = target → BlockRead (thisVersion declaring target) block more →
      StateRead declaring (lines ++ line :: more) ⟨entries, .inside block⟩

variable {declaring : Option Identifier} {lines : List Text} {state next : State}

/-- The lines that have been read are declarations unless something is unfinished. -/
theorem StateRead.written (read : StateRead declaring lines state) (ready : state.Ready) :
    Written declaring lines state.allEntries := by
  cases read with
  | outside => exact ⟨.nil, List.nodup_nil⟩
  | announced written targetLine fresh => exact False.elim ready
  | inside written targetLine fresh same read =>
      rcases same with rfl
      have dependencies := read.dependencies ready
      refine ⟨written.blocks.concat ?_, Entries.nodup_concat_iff.2 ⟨written.distinct, fresh⟩⟩
      exact .intro targetLine read.nonempty (by simp) dependencies

theorem takeValue_target (block : Block) (indentation name : Text) (number : Nat)
    (start : MetadataValue.Start) :
    (block.takeValue indentation name number start).target = block.target := by
  cases start <;> rfl

/-- Every step reads on. -/
theorem StateRead.step {line : Line} (read : StateRead declaring lines state)
    (step : Step declaring state line next) :
    StateRead declaring (lines ++ [line.text]) next := by
  cases step with
  | target ready targetLine fresh => exact .announced (read.written ready) targetLine fresh
  | firstKind nonempty kindLine =>
      cases read with
      | announced written targetLine fresh =>
          rw [List.append_assoc]
          exact .inside written targetLine fresh rfl (blockRead_first nonempty kindLine)
  | nextKind settled kindLine =>
      cases read with
      | inside written targetLine fresh same read =>
          rcases same with rfl
          rw [List.append_assoc]
          exact .inside written targetLine fresh rfl (read.begin settled kindLine)
  | metadata awaits metadataLine unused =>
      cases read with
      | inside written targetLine fresh same read =>
          rw [List.append_assoc]
          exact .inside written targetLine fresh ((takeValue_target _ _ _ _ _).trans same)
            (read.metadata awaits metadataLine unused)
  | value position =>
      cases read with
      | inside written targetLine fresh same read =>
          rw [List.append_assoc]
          exact .inside written targetLine fresh ((takeValue_target _ _ _ _ _).trans same)
            (read.value line.text position)

/-- What a run has read it has read from its lines. -/
theorem stateRead_of_foldlM {lines : List Line}
    (steps : lines.foldlM (State.step declaring) .initial = .ok state) :
    StateRead declaring (lines.map Line.text) state := by
  refine invariant_of_foldlM (fun lines => StateRead declaring (lines.map Line.text))
    .outside ?_ steps
  intro lines state line next read step
  rw [List.map_append]
  exact read.step step

theorem State.ready_of_expect_none (expected : state.expect none = .ok ()) : state.Ready := by
  rcases state with ⟨complete, place⟩
  cases place with
  | outside => trivial
  | announced target number => simp [State.expect] at expected
  | inside block =>
      rcases block with ⟨target, indentation, complete, current, position⟩
      cases position with
      | kindLine => trivial
      | metadata deeper => trivial
      | openValue deeper name content line => simp [State.expect] at expected

end Declarations

end BundleDecl
