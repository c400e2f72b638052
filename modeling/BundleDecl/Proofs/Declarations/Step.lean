import BundleDecl.Proofs.Declarations.Grammar
import BundleDecl.Proofs.Dependency
import BundleDecl.Proofs.Text

/-!
# One step of the reader

What the reader does with one line, said in the terms of the grammar: every step that succeeds is
one of five, and each of them is taken whenever its conditions hold. A run succeeds if and only if
all its steps do and nothing is missing at its end.
-/

namespace BundleDecl

namespace Declarations

theorem stopAt_eq_ok_iff {Result : Type} {unread : List Line} {outcome : Except Failure Result}
    {result : Result} : stopAt unread outcome = .ok result ↔ outcome = .ok result := by
  cases outcome <;> simp [stopAt]

theorem State.step_eq_ok_iff {declaring : Option Identifier} {state next : State} {line : Line} :
    state.step declaring line = .ok next ↔
      state.expect (some line) = .ok () ∧ state.consume declaring line = .ok next := by
  simp only [State.step, bind_eq_ok_iff]
  constructor
  · rintro ⟨⟨⟩, expected, consumed⟩
    exact ⟨expected, consumed⟩
  · rintro ⟨expected, consumed⟩
    exact ⟨(), expected, consumed⟩

theorem run_cons_of_step {declaring : Option Identifier} {state next : State} {line : Line}
    {rest : List Line} (step : state.step declaring line = .ok next) :
    run declaring state (line :: rest) = run declaring next rest := by
  rcases State.step_eq_ok_iff.1 step with ⟨expected, consumed⟩
  simp [run, expected, consumed, stopAt, bind, Except.bind]

/-- Lines whose steps succeed lead to the state after them, whatever follows. -/
theorem run_append {declaring : Option Identifier} {state next : State} {lines rest : List Line}
    (steps : lines.foldlM (State.step declaring) state = .ok next) :
    run declaring state (lines ++ rest) = run declaring next rest := by
  induction lines generalizing state with
  | nil =>
      rcases Except.ok.inj steps with rfl
      rfl
  | cons line lines ih =>
      rw [List.foldlM_cons] at steps
      rcases bind_eq_ok_iff.1 steps with ⟨mid, step, others⟩
      rw [List.cons_append, run_cons_of_step step, ih others]

/-- A run succeeds if and only if all its steps do and nothing is missing at its end. -/
theorem run_eq_ok_iff {declaring : Option Identifier} {state final : State} {lines : List Line} :
    run declaring state lines = .ok final ↔
      lines.foldlM (State.step declaring) state = .ok final ∧ final.expect none = .ok () := by
  induction lines generalizing state with
  | nil =>
      simp only [run, bind_eq_ok_iff, stopAt_eq_ok_iff, List.foldlM_nil, pure_eq_ok_iff]
      constructor
      · rintro ⟨⟨⟩, expected, rfl⟩
        exact ⟨rfl, expected⟩
      · rintro ⟨rfl, expected⟩
        exact ⟨(), expected, rfl⟩
  | cons line lines ih =>
      simp only [run, bind_eq_ok_iff, stopAt_eq_ok_iff, List.foldlM_cons,
        State.step_eq_ok_iff, ih]
      constructor
      · rintro ⟨⟨⟩, expected, next, consumed, steps, finished⟩
        exact ⟨⟨next, ⟨expected, consumed⟩, steps⟩, finished⟩
      · rintro ⟨⟨next, ⟨expected, consumed⟩, steps⟩, finished⟩
        exact ⟨(), expected, next, consumed, steps, finished⟩

/-- The line of a target is read exactly if the target is not yet declared. -/
theorem readTarget_eq_ok_iff {entries : List (Identifier × DependencyList)} {line : Line}
    {next : State} :
    readTarget entries line = .ok next ↔
      ∃ target, TargetLine line.text target ∧ target ∉ entries.map Prod.fst ∧
        next = ⟨entries, .announced target line.number⟩ := by
  simp only [readTarget]
  constructor
  · intro read
    split at read
    · simp at read
    · rename_i flush
      split at read
      · simp at read
      · rename_i target named
        split at read
        · simp at read
        · rename_i unversioned
          split at read
          · simp at read
          · rename_i fresh
            rcases Except.ok.inj read with rfl
            refine ⟨target, ⟨by simpa using flush, named, by simpa using unversioned⟩, ?_, rfl⟩
            rwa [← Entries.has_eq_true_iff]
  · rintro ⟨target, line, fresh, rfl⟩
    rw [← Entries.has_eq_true_iff] at fresh
    simp [line.flush, line.named, line.unversioned, fresh]

/-- A kind line is read as its kinds and its range say, which the first colon separates. -/
theorem readKindLine_append_eq_ok_iff {this : Option Text} {number : Nat} {before text : Text}
    (whole : ':' ∉ before) {dependency : Dependency} :
    readKindLine this number (before ++ ':' :: text) = .ok dependency ↔
      kindsOf before ≠ [] ∧ (∀ kind ∈ kindsOf before, Dependency.checkKind kind = .ok ()) ∧
        ∃ range, Range.ofText (rangeText this text) = .ok range ∧
          dependency = ⟨SortedSet.ofList (kindsOf before), range, []⟩ := by
  rw [readKindLine, Text.splitFirst?_eq_some_iff.2 ⟨rfl, whole⟩]
  dsimp only
  constructor
  · intro read
    split at read
    · simp at read
    · rename_i range ranged
      split at read
      · simp at read
      · rename_i nonempty
        split at read
        · contradiction
        · rename_i checked
          exact ⟨nonempty, forM_eq_ok_iff.1 checked, range, ranged, (Except.ok.inj read).symm⟩
  · rintro ⟨nonempty, checked, range, ranged, rfl⟩
    simp only [ranged, forM_eq_ok_iff.2 checked]

/-- A kind line that is given without its indentation is read as its kinds and its range say. -/
theorem readKindLine_eq_ok_iff {this : Option Text} {number : Nat} {line indentation : Text}
    (indented : Text.indentation line = indentation) {dependency : Dependency} :
    readKindLine this number (line.drop indentation.length) = .ok dependency ↔
      ∃ kinds range, KindLine this indentation line kinds range ∧
        dependency = ⟨SortedSet.ofList kinds, range, []⟩ := by
  have parts : line = indentation ++ line.drop indentation.length := by
    have initial : indentation <+: line := indented ▸ List.takeWhile_prefix _
    exact (List.prefix_iff_eq_append.1 initial).symm
  generalize line.drop indentation.length = text at parts
  constructor
  · intro read
    rcases split : Text.splitFirst? ':' text with _ | ⟨before, after⟩
    · simp [readKindLine, split] at read
    · rcases Text.splitFirst?_eq_some_iff.1 split with ⟨rfl, noColon⟩
      rcases (readKindLine_append_eq_ok_iff noColon).1 read with
        ⟨nonempty, checked, range, ranged, rfl⟩
      simp only [Dependency.checkKind_eq_ok_iff] at checked
      refine ⟨kindsOf before, range, ?_, rfl⟩
      exact {
        indented
        split := ⟨before, after, parts, noColon, rfl, ranged⟩
        nonempty
        isKind := fun kind member => (checked kind member).1
        notReserved := fun kind member => (checked kind member).2 }
  · rintro ⟨kinds, range, kindLine, rfl⟩
    rcases kindLine.split with ⟨before, after, split, noColon, rfl, ranged⟩
    rw [parts, List.append_cancel_left_eq] at split
    rw [split, readKindLine_append_eq_ok_iff noColon]
    refine ⟨kindLine.nonempty, ?_, range, ranged, rfl⟩
    intro kind member
    exact Dependency.checkKind_eq_ok_iff.2
      ⟨kindLine.isKind kind member, kindLine.notReserved kind member⟩

theorem readMetadataName_eq_ok_iff {known : List (Text × Text)} {line : Line} {name tail : Text} :
    readMetadataName known line = .ok (name, tail) ↔
      (∃ before, line.text = before ++ ':' :: tail ∧ ':' ∉ before ∧ name = Text.strip before) ∧
        Dependency.isMetadataName name = true ∧ Dependency.isReserved name = false ∧
        name ∉ known.map Prod.fst := by
  simp only [readMetadataName, ← Entries.has_eq_true_iff]
  constructor
  · intro read
    split at read
    · simp at read
    · rename_i before after split
      rw [Text.splitFirst?_eq_some_iff] at split
      split at read
      · simp at read
      · split at read
        · simp at read
        · rename_i isName
          split at read
          · simp at read
          · rename_i fresh
            split at read
            · simp at read
            · rename_i notReserved
              simp only [Except.ok.injEq, Prod.mk.injEq] at read
              rcases read with ⟨rfl, rfl⟩
              exact ⟨⟨before, split.1, split.2, rfl⟩, by simpa using isName,
                by simpa using notReserved, fresh⟩
  · rintro ⟨⟨before, split, noColon, rfl⟩, isName, notReserved, fresh⟩
    have nonempty : Text.strip before ≠ [] := by
      intro empty
      rw [empty] at isName
      exact absurd isName (by decide)
    rw [Text.splitFirst?_eq_some_iff.2 ⟨split, noColon⟩]
    simp [nonempty, isName, notReserved, fresh]

theorem Deepens.length_lt {indentation deeper : Text} (deepens : Deepens indentation deeper) :
    indentation.length < deeper.length := by
  apply Nat.lt_of_le_of_ne deepens.1.length_le
  intro same
  exact deepens.2 (deepens.1.eq_of_length same).symm

namespace Block

/-- A metadata line is read exactly if its name is not yet used. -/
theorem readMetadataLine_eq_ok_iff {block next : Block} {indentation : Text} {line : Line} :
    block.readMetadataLine indentation line = .ok next ↔
      ∃ name tail, MetadataLine indentation line.text name tail ∧
        name ∉ block.current.metadata.map Prod.fst ∧
        next = block.takeValue indentation name line.number (MetadataValue.start tail) := by
  simp only [readMetadataLine]
  split
  · rename_i indented
    simp only [failAt_ne_ok, false_iff]
    rintro ⟨name, tail, metadataLine, _⟩
    exact indented metadataLine.indented
  · rename_i indented
    rw [Decidable.not_not] at indented
    simp only [bind_eq_ok_iff, pure_eq_ok_iff, Prod.exists, readMetadataName_eq_ok_iff]
    constructor
    · rintro ⟨name, tail, ⟨split, isName, notReserved, fresh⟩, rfl⟩
      exact ⟨name, tail, ⟨indented, split, isName, notReserved⟩, fresh, rfl⟩
    · rintro ⟨name, tail, metadataLine, fresh, rfl⟩
      exact ⟨name, tail, ⟨metadataLine.split, metadataLine.isName, metadataLine.notReserved, fresh⟩,
        rfl⟩

/-- The block with a dependency begun after its current one. -/
def begin (block : Block) (next : Dependency) : Block :=
  { block with
    complete := block.complete ++ [block.current]
    current := next
    position := .kindLine }

theorem readNextKindLine_eq_ok_iff {block next : Block} {this : Option Text} {line : Line} :
    block.readNextKindLine this line = .ok next ↔
      ∃ kinds range, KindLine this block.indentation line.text kinds range ∧
        next = block.begin ⟨SortedSet.ofList kinds, range, []⟩ := by
  simp only [readNextKindLine]
  split
  · rename_i indented
    simp only [failAt_ne_ok, false_iff]
    rintro ⟨kinds, range, kindLine, _⟩
    exact indented kindLine.indented
  · rename_i indented
    rw [Decidable.not_not] at indented
    simp only [bind_eq_ok_iff, pure_eq_ok_iff, readKindLine_eq_ok_iff indented]
    constructor
    · rintro ⟨dependency, ⟨kinds, range, kindLine, rfl⟩, rfl⟩
      exact ⟨kinds, range, kindLine, rfl⟩
    · rintro ⟨kinds, range, kindLine, rfl⟩
      exact ⟨_, ⟨kinds, range, kindLine, rfl⟩, rfl⟩

/-- No value of the block is unfinished. -/
def Settled (block : Block) : Prop :=
  match block.position with
  | .openValue _ _ _ _ => False
  | _ => True

/-- The indentations of a block are blank, and that of its metadata continues that of its kinds. -/
structure Indented (block : Block) : Prop where
  nonempty : block.indentation ≠ []
  blank : Text.isBlank block.indentation = true
  deeper : ∀ indentation, block.position = .metadata indentation →
    Deepens block.indentation indentation ∧ Text.isBlank indentation = true

/-- A metadata line of the given indentation may follow. -/
def Awaits (block : Block) (indentation : Text) : Prop :=
  match block.position with
  | .kindLine => Deepens block.indentation indentation
  | .metadata known => indentation = known
  | .openValue _ _ _ _ => False

theorem Awaits.settled {block : Block} {indentation : Text} (awaits : block.Awaits indentation) :
    block.Settled := by
  simp only [Awaits] at awaits
  simp only [Settled]
  split at awaits <;> simp_all

theorem metadataIndentation?_eq_some_of_awaits {block : Block} {line indentation : Text}
    (awaits : block.Awaits indentation) (indented : Text.indentation line = indentation) :
    block.metadataIndentation? line = some indentation := by
  simp only [Awaits] at awaits
  simp only [metadataIndentation?]
  split at awaits
  · rename_i position
    simp [position, indented, awaits.1, Deepens.length_lt awaits]
  · rename_i position
    have initial : indentation <+: line := indented ▸ List.takeWhile_prefix _
    simp [position, ← awaits, initial]
  · contradiction

theorem awaits_of_metadataIndentation?_eq_some {block : Block} {line indentation : Text}
    (settled : block.Settled) (found : block.metadataIndentation? line = some indentation) :
    block.Awaits indentation := by
  simp only [Settled] at settled
  simp only [metadataIndentation?] at found
  simp only [Awaits]
  cases position : block.position with
  | kindLine =>
      simp only [position, Bool.and_eq_true, List.isPrefixOf_iff_prefix, decide_eq_true_eq,
        Option.ite_none_right_eq_some, Option.some.injEq] at found
      rcases found with ⟨⟨initial, longer⟩, rfl⟩
      refine ⟨initial, ?_⟩
      intro same
      simp [same] at longer
  | metadata known =>
      simp only [position, Option.ite_none_right_eq_some, Option.some.injEq] at found
      exact found.2.symm
  | openValue known name content line => simp [position] at settled

/-- A line that is indented no further than a kind line is no metadata line. -/
theorem metadataIndentation?_eq_none {block : Block} {line : Text} (indented : block.Indented)
    (shallow : Text.indentation line <+: block.indentation) :
    block.metadataIndentation? line = none := by
  simp only [metadataIndentation?]
  split
  · rename_i indentation position
    rcases indented.deeper indentation position with ⟨deepens, blank⟩
    have absent : ¬indentation <+: line := by
      rintro ⟨rest, rfl⟩
      rw [Text.indentation_append blank] at shallow
      have longer := deepens.length_lt
      have shorter := shallow.length_le
      rw [List.length_append] at shorter
      omega
    simp [absent]
  · have notLonger := shallow.length_le
    simp [notLonger]

end Block

/-- The line of a target may follow. -/
def State.Ready (state : State) : Prop :=
  match state.place with
  | .outside => True
  | .announced _ _ => False
  | .inside block => block.Settled

/-- The block that is being read, if there is one, is indented as blocks are. -/
def State.Indented (state : State) : Prop :=
  ∀ block, state.place = .inside block → block.Indented

/-- What one line may do: it names a target, begins the first or another dependency of a block,
begins a metadata entry, or goes on with a value. -/
inductive Step (declaring : Option Identifier) : State → Line → State → Prop where
  | target {state : State} {line : Line} {target : Identifier} :
      state.Ready → TargetLine line.text target → target ∉ state.allEntries.map Prod.fst →
      Step declaring state line ⟨state.allEntries, .announced target line.number⟩
  | firstKind {entries : List (Identifier × DependencyList)} {target : Identifier} {number : Nat}
      {line : Line} {indentation : Text} {kinds : List Text} {range : Range} :
      indentation ≠ [] → KindLine (thisVersion declaring target) indentation line.text kinds range →
      Step declaring ⟨entries, .announced target number⟩ line ⟨entries, .inside
        ⟨target, indentation, [], ⟨SortedSet.ofList kinds, range, []⟩, .kindLine⟩⟩
  | nextKind {entries : List (Identifier × DependencyList)} {block : Block} {line : Line}
      {kinds : List Text} {range : Range} :
      block.Settled →
      KindLine (thisVersion declaring block.target) block.indentation line.text kinds range →
      Step declaring ⟨entries, .inside block⟩ line
        ⟨entries, .inside (block.begin ⟨SortedSet.ofList kinds, range, []⟩)⟩
  | metadata {entries : List (Identifier × DependencyList)} {block : Block} {line : Line}
      {indentation name tail : Text} :
      block.Awaits indentation → MetadataLine indentation line.text name tail →
      name ∉ block.current.metadata.map Prod.fst →
      Step declaring ⟨entries, .inside block⟩ line ⟨entries, .inside
        (block.takeValue indentation name line.number (MetadataValue.start tail))⟩
  | value {entries : List (Identifier × DependencyList)} {block : Block} {line : Line}
      {indentation name content : Text} {number : Nat} :
      block.position = .openValue indentation name content number →
      Step declaring ⟨entries, .inside block⟩ line ⟨entries, .inside
        (block.takeValue indentation name line.number (MetadataValue.extend content line.text))⟩

theorem State.consumeInside_of_settled {declaring : Option Identifier} {state : State}
    {block : Block} {line : Line} (settled : block.Settled) :
    state.consumeInside declaring block line =
      match block.metadataIndentation? line.text with
      | some indentation => state.within <$> block.readMetadataLine indentation line
      | none =>
        if block.indentation.isPrefixOf line.text then
          state.within <$> block.readNextKindLine (thisVersion declaring block.target) line
        else
          readTarget state.allEntries line := by
  rcases block with ⟨target, indentation, complete, current, position⟩
  cases position with
  | kindLine => rfl
  | metadata known => rfl
  | openValue known name content number => exact False.elim settled

theorem State.expect_some_of_inside (entries : List (Identifier × DependencyList)) (block : Block)
    (line : Line) : State.expect ⟨entries, .inside block⟩ (some line) = .ok () := by
  simp only [State.expect]
  split
  · contradiction
  · rfl

theorem State.expect_of_ready {state : State} {line : Line} (ready : state.Ready) :
    state.expect (some line) = .ok () := by
  rcases state with ⟨entries, place⟩
  cases place with
  | outside => rfl
  | announced target number => exact False.elim ready
  | inside block => exact expect_some_of_inside entries block line

/-- A line that belongs to no block, so that it must be that of a target. -/
def State.LeftBy (state : State) (line : Text) : Prop :=
  match state.place with
  | .outside => True
  | .announced _ _ => False
  | .inside block =>
    block.Settled ∧ block.metadataIndentation? line = none ∧ ¬block.indentation <+: line

theorem State.LeftBy.ready {state : State} {line : Text} (left : state.LeftBy line) :
    state.Ready := by
  rcases state with ⟨entries, place⟩
  cases place with
  | outside => trivial
  | announced target number => exact left
  | inside block => exact left.1

theorem State.consume_of_leftBy {declaring : Option Identifier} {state : State} {line : Line}
    (left : state.LeftBy line.text) :
    state.consume declaring line = readTarget state.allEntries line := by
  rcases state with ⟨entries, place⟩
  cases place with
  | outside => rfl
  | announced target number => exact False.elim left
  | inside block =>
      rcases left with ⟨settled, noMetadata, noKind⟩
      simp only [State.consume, State.consumeInside_of_settled settled, noMetadata]
      rw [if_neg (by simpa using noKind)]

/-- A line that is not indented belongs to no block. -/
theorem State.leftBy_of_flush {state : State} {line : Text} (ready : state.Ready)
    (indented : state.Indented) (flush : Text.indentation line = []) : state.LeftBy line := by
  rcases state with ⟨entries, place⟩
  cases place with
  | outside => trivial
  | announced target number => exact ready
  | inside block =>
      have blockIndented := indented block rfl
      refine ⟨ready, Block.metadataIndentation?_eq_none blockIndented ?_, ?_⟩
      · rw [flush]
        exact List.nil_prefix
      · rintro ⟨rest, rfl⟩
        rw [Text.indentation_append blockIndented.blank] at flush
        exact blockIndented.nonempty (List.append_eq_nil_iff.1 flush).1

theorem Step.of_consume_inside {declaring : Option Identifier}
    {entries : List (Identifier × DependencyList)} {block : Block} {line : Line} {next : State}
    (settled : block.Settled)
    (consumed : State.consume declaring ⟨entries, .inside block⟩ line = .ok next) :
    Step declaring ⟨entries, .inside block⟩ line next := by
  simp only [State.consume, State.consumeInside_of_settled settled] at consumed
  split at consumed
  · rename_i indentation found
    simp only [map_eq_ok_iff, Block.readMetadataLine_eq_ok_iff] at consumed
    rcases consumed with ⟨following, ⟨name, tail, metadataLine, fresh, rfl⟩, rfl⟩
    exact .metadata (Block.awaits_of_metadataIndentation?_eq_some settled found) metadataLine fresh
  · split at consumed
    · simp only [map_eq_ok_iff, Block.readNextKindLine_eq_ok_iff] at consumed
      rcases consumed with ⟨following, ⟨kinds, range, kindLine, rfl⟩, rfl⟩
      exact .nextKind settled kindLine
    · rcases readTarget_eq_ok_iff.1 consumed with ⟨target, targetLine, fresh, rfl⟩
      exact .target settled targetLine fresh

/-- The reader takes no other steps. -/
theorem Step.of_step {declaring : Option Identifier} {state next : State} {line : Line}
    (step : state.step declaring line = .ok next) : Step declaring state line next := by
  rcases State.step_eq_ok_iff.1 step with ⟨expected, consumed⟩
  rcases state with ⟨entries, place⟩
  cases place with
  | outside =>
      rcases readTarget_eq_ok_iff.1 consumed with ⟨target, targetLine, fresh, rfl⟩
      exact .target trivial targetLine fresh
  | announced target number =>
      simp only [State.consume, bind_eq_ok_iff, pure_eq_ok_iff,
        readKindLine_eq_ok_iff rfl] at consumed
      rcases consumed with ⟨dependency, ⟨kinds, range, kindLine, rfl⟩, rfl⟩
      refine .firstKind ?_ kindLine
      intro flush
      simp [State.expect, flush] at expected
  | inside block =>
      by_cases settled : block.Settled
      · exact .of_consume_inside settled consumed
      · rcases block with ⟨target, indentation, complete, current, position⟩
        cases position with
        | kindLine => exact absurd trivial settled
        | metadata known => exact absurd trivial settled
        | openValue known name content number =>
            rcases Except.ok.inj consumed with rfl
            exact .value rfl

theorem foldlM_step_concat {declaring : Option Identifier} {state next : State} {lines : List Line}
    {line : Line} :
    (lines ++ [line]).foldlM (State.step declaring) state = .ok next ↔
      ∃ before, lines.foldlM (State.step declaring) state = .ok before ∧
        before.step declaring line = .ok next := by
  simp only [List.foldlM_append, bind_eq_ok_iff, List.foldlM_cons, List.foldlM_nil,
    pure_eq_ok_iff, exists_eq_right]

/-- What holds before the first line and is kept by every step holds after all lines. -/
theorem invariant_of_foldlM {declaring : Option Identifier} (invariant : List Line → State → Prop)
    (start : invariant [] .initial)
    (kept : ∀ lines state line next, invariant lines state → Step declaring state line next →
      invariant (lines ++ [line]) next)
    {lines : List Line} {state : State}
    (steps : lines.foldlM (State.step declaring) .initial = .ok state) : invariant lines state := by
  induction lines using List.reverseRecOn generalizing state with
  | nil =>
      rcases Except.ok.inj steps with rfl
      exact start
  | append_singleton lines line ih =>
      rcases foldlM_step_concat.1 steps with ⟨before, steps, step⟩
      exact kept _ _ _ _ (ih steps) (.of_step step)

section

variable {declaring : Option Identifier} {entries : List (Identifier × DependencyList)}
  {block : Block} {line : Line} {indentation name : Text}

theorem step_eq_ok_of_metadataLine {tail : Text} (awaits : block.Awaits indentation)
    (metadataLine : MetadataLine indentation line.text name tail)
    (fresh : name ∉ block.current.metadata.map Prod.fst) :
    State.step declaring ⟨entries, .inside block⟩ line = .ok ⟨entries, .inside
      (block.takeValue indentation name line.number (MetadataValue.start tail))⟩ := by
  refine State.step_eq_ok_iff.2 ⟨State.expect_some_of_inside entries block line, ?_⟩
  have found := Block.metadataIndentation?_eq_some_of_awaits awaits metadataLine.indented
  simp only [State.consume, State.consumeInside_of_settled awaits.settled, found, map_eq_ok_iff]
  exact ⟨_, Block.readMetadataLine_eq_ok_iff.2 ⟨name, tail, metadataLine, fresh, rfl⟩, rfl⟩

theorem step_eq_ok_of_openValue {content : Text} {number : Nat}
    (position : block.position = .openValue indentation name content number) :
    State.step declaring ⟨entries, .inside block⟩ line = .ok ⟨entries, .inside
      (block.takeValue indentation name line.number
        (MetadataValue.extend content line.text))⟩ := by
  refine State.step_eq_ok_iff.2 ⟨State.expect_some_of_inside entries block line, ?_⟩
  simp [State.consume, State.consumeInside, position, State.within]

theorem step_eq_ok_of_targetLine {state : State} {target : Identifier} (ready : state.Ready)
    (indented : state.Indented) (targetLine : TargetLine line.text target)
    (fresh : target ∉ state.allEntries.map Prod.fst) :
    state.step declaring line = .ok ⟨state.allEntries, .announced target line.number⟩ := by
  have left := State.leftBy_of_flush ready indented targetLine.flush
  rw [State.step_eq_ok_iff, State.consume_of_leftBy left]
  exact ⟨State.expect_of_ready ready, readTarget_eq_ok_iff.2 ⟨_, targetLine, fresh, rfl⟩⟩

theorem step_eq_ok_of_firstKindLine {target : Identifier} {number : Nat} {kinds : List Text}
    {range : Range} (nonempty : indentation ≠ [])
    (kindLine : KindLine (thisVersion declaring target) indentation line.text kinds range) :
    State.step declaring ⟨entries, .announced target number⟩ line = .ok ⟨entries, .inside
      ⟨target, indentation, [], ⟨SortedSet.ofList kinds, range, []⟩, .kindLine⟩⟩ := by
  refine State.step_eq_ok_iff.2 ⟨?_, ?_⟩
  · simp [State.expect, kindLine.indented, nonempty]
  · simp only [State.consume, kindLine.indented, bind_eq_ok_iff, pure_eq_ok_iff]
    exact ⟨_, (readKindLine_eq_ok_iff kindLine.indented).2 ⟨_, _, kindLine, rfl⟩, rfl⟩

theorem step_eq_ok_of_nextKindLine {kinds : List Text} {range : Range} (settled : block.Settled)
    (indented : block.Indented)
    (kindLine :
      KindLine (thisVersion declaring block.target) block.indentation line.text kinds range) :
    State.step declaring ⟨entries, .inside block⟩ line =
      .ok ⟨entries, .inside (block.begin ⟨SortedSet.ofList kinds, range, []⟩)⟩ := by
  have shallow : Text.indentation line.text <+: block.indentation :=
    kindLine.indented ▸ List.prefix_rfl
  have noMetadata := Block.metadataIndentation?_eq_none indented shallow
  have initial : block.indentation <+: line.text :=
    kindLine.indented ▸ List.takeWhile_prefix _
  refine State.step_eq_ok_iff.2 ⟨State.expect_some_of_inside entries block line, ?_⟩
  simp only [State.consume, State.consumeInside_of_settled settled, noMetadata]
  rw [if_pos (by simpa using initial), map_eq_ok_iff]
  exact ⟨_, Block.readNextKindLine_eq_ok_iff.2 ⟨_, _, kindLine, rfl⟩, rfl⟩

end

/-- The reader takes every step there is. -/
theorem Step.step_eq_ok {declaring : Option Identifier} {state next : State} {line : Line}
    (step : Step declaring state line next) (indented : state.Indented) :
    state.step declaring line = .ok next := by
  cases step with
  | target ready targetLine fresh => exact step_eq_ok_of_targetLine ready indented targetLine fresh
  | firstKind nonempty kindLine => exact step_eq_ok_of_firstKindLine nonempty kindLine
  | nextKind settled kindLine =>
      exact step_eq_ok_of_nextKindLine settled (indented _ rfl) kindLine
  | metadata awaits metadataLine fresh => exact step_eq_ok_of_metadataLine awaits metadataLine fresh
  | value position => exact step_eq_ok_of_openValue position

end Declarations

end BundleDecl
