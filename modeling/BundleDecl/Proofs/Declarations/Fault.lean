import BundleDecl.Proofs.Declarations.Step
import BundleDecl.Proofs.Identifier.Acceptance

/-!
# Faults of lines

What the reader reports about a line, said in the terms of the grammar. Every fault has one cause
and is reported with the number of its line. Something that is missing shows only when the next line
or the end is in sight, and it is reported with the number of the line that needs it. A step fails
if and only if there is a fault or something is missing.

What an identifier or a kind is refused for is reported as it is; only the line is added.
-/

namespace BundleDecl

namespace Declarations

/-- What is wrong with a line where a target must stand. -/
inductive TargetFault (entries : List (Identifier × DependencyList)) (line : Text) :
    Cause → Prop where
  | indented : Text.indentation line ≠ [] → TargetFault entries line .indentedTarget
  | identifier {failure : Failure} : Text.indentation line = [] →
      Identifier.ofText (Text.trimEnd Text.isIndentCharacter line) = .error failure →
      TargetFault entries line failure.cause
  | versioned {target : Identifier} : Text.indentation line = [] →
      Identifier.ofText (Text.trimEnd Text.isIndentCharacter line) = .ok target →
      target.version ≠ none → TargetFault entries line (.versionedTargetLine target.toText)
  | repeated {target : Identifier} : TargetLine line target → target ∈ entries.map Prod.fst →
      TargetFault entries line (.repeatedTarget target.toText)

/-- What is wrong with a kind line, which is given without its indentation. -/
inductive KindFault (this : Option Text) (line : Text) : Cause → Prop where
  | noColon : ':' ∉ line → KindFault this line (.malformedKindLine line)
  | range {before after : Text} {failure : Failure} : line = before ++ ':' :: after →
      ':' ∉ before → Range.ofText (rangeText this after) = .error failure →
      KindFault this line
        (.malformedKindRange (Text.strip (rangeText this after)) (rangeText this after))
  | noKind {before after : Text} {range : Range} : line = before ++ ':' :: after →
      ':' ∉ before → Range.ofText (rangeText this after) = .ok range → kindsOf before = [] →
      KindFault this line (.noKindOnLine before)
  | kind {before after kind : Text} {range : Range} {earlier later : List Text}
      {failure : Failure} : line = before ++ ':' :: after → ':' ∉ before →
      Range.ofText (rangeText this after) = .ok range → kindsOf before = earlier ++ kind :: later →
      (∀ other ∈ earlier, Dependency.checkKind other = .ok ()) →
      Dependency.checkKind kind = .error failure → KindFault this line failure.cause

/-- What is wrong with a metadata line if some names are used already. -/
inductive MetadataFault (known : List (Text × Text)) (line : Text) : Cause → Prop where
  | noColon : ':' ∉ line → MetadataFault known line (.malformedMetadataLine line)
  | noName {before tail : Text} : line = before ++ ':' :: tail → ':' ∉ before →
      Text.strip before = [] → MetadataFault known line (.emptyMetadataName line)
  | noWord {before tail : Text} : line = before ++ ':' :: tail → ':' ∉ before →
      Text.strip before ≠ [] → Dependency.isMetadataName (Text.strip before) = false →
      MetadataFault known line (.invalidMetadataName (Text.strip before))
  | repeated {before tail : Text} : line = before ++ ':' :: tail → ':' ∉ before →
      Dependency.isMetadataName (Text.strip before) = true →
      Text.strip before ∈ known.map Prod.fst →
      MetadataFault known line (.repeatedMetadataName (Text.strip before))
  | reserved {before tail : Text} : line = before ++ ':' :: tail → ':' ∉ before →
      Dependency.isMetadataName (Text.strip before) = true →
      Text.strip before ∉ known.map Prod.fst → Dependency.isReserved (Text.strip before) = true →
      MetadataFault known line (.reservedMetadataName (Text.strip before))

/-- What is wrong with the line in sight, after what was read. -/
inductive LineFault (declaring : Option Identifier) : State → Text → Cause → Prop where
  | target {state : State} {line : Text} {cause : Cause} :
      state.LeftBy line → TargetFault state.allEntries line cause →
      LineFault declaring state line cause
  | firstKind {entries : List (Identifier × DependencyList)} {target : Identifier} {number : Nat}
      {line : Text} {cause : Cause} :
      Text.indentation line ≠ [] →
      KindFault (thisVersion declaring target) (line.drop (Text.indentation line).length) cause →
      LineFault declaring ⟨entries, .announced target number⟩ line cause
  | kindIndentation {entries : List (Identifier × DependencyList)} {block : Block} {line : Text} :
      block.Settled → block.metadataIndentation? line = none → block.indentation <+: line →
      Text.indentation line ≠ block.indentation →
      LineFault declaring ⟨entries, .inside block⟩ line (.kindIndentation block.indentation)
  | nextKind {entries : List (Identifier × DependencyList)} {block : Block} {line : Text}
      {cause : Cause} :
      block.Settled → Text.indentation line = block.indentation →
      KindFault (thisVersion declaring block.target) (line.drop block.indentation.length) cause →
      LineFault declaring ⟨entries, .inside block⟩ line cause
  | metadataIndentation {entries : List (Identifier × DependencyList)} {block : Block} {line : Text}
      {deeper : Text} :
      block.Settled → block.metadataIndentation? line = some deeper →
      Text.indentation line ≠ deeper →
      LineFault declaring ⟨entries, .inside block⟩ line
        (.metadataIndentation deeper block.indentation)
  | metadata {entries : List (Identifier × DependencyList)} {block : Block} {line : Text}
      {cause : Cause} :
      block.Awaits (Text.indentation line) → MetadataFault block.current.metadata line cause →
      LineFault declaring ⟨entries, .inside block⟩ line cause

/-- What is missing after what was read, if the given line or the end is in sight, and the number of
the line that needs it. -/
inductive Missing : State → Option Line → Nat → Cause → Prop where
  | description {entries : List (Identifier × DependencyList)} {target : Identifier} {number : Nat}
      {next : Option Line} :
      (∀ line ∈ next, Text.indentation line.text = []) →
      Missing ⟨entries, .announced target number⟩ next number (.undescribedTarget target.toText)
  | quote {entries : List (Identifier × DependencyList)} {block : Block}
      {indentation name content : Text} {number : Nat} :
      block.position = .openValue indentation name content number →
      Missing ⟨entries, .inside block⟩ none number .unclosedQuotes

/-! ## One line -/

theorem readTarget_eq_error_iff {entries : List (Identifier × DependencyList)} {line : Line}
    {failure : Failure} :
    readTarget entries line = .error failure ↔
      ∃ cause, TargetFault entries line.text cause ∧
        ⟨cause, some (line.number : Int)⟩ = failure := by
  simp only [readTarget]
  constructor
  · intro read
    split at read
    · rename_i indented
      exact ⟨_, .indented indented, failAt_eq_error_iff.1 read⟩
    · rename_i flush
      rw [Decidable.not_not] at flush
      split at read
      · rename_i refusal refused
        rcases Except.error.inj read with rfl
        refine ⟨_, .identifier flush refused, ?_⟩
        rw [Failure.locate_eq_of_line_eq_none (Identifier.refuses_of_ofText refused).1]
      · rename_i target named
        split at read
        · rename_i versioned
          refine ⟨_, .versioned flush named ?_, failAt_eq_error_iff.1 read⟩
          intro unversioned
          simp [unversioned] at versioned
        · rename_i unversioned
          split at read
          · rename_i known
            refine ⟨_, .repeated ⟨flush, named, by simpa using unversioned⟩ ?_,
              failAt_eq_error_iff.1 read⟩
            rwa [← Entries.has_eq_true_iff]
          · contradiction
  · rintro ⟨cause, fault, rfl⟩
    cases fault with
    | indented indented => simp [indented]
    | identifier flush refused =>
        simp [flush, refused,
          Failure.locate_eq_of_line_eq_none (Identifier.refuses_of_ofText refused).1]
    | versioned flush named versioned =>
        simp [flush, named, Option.isSome_iff_ne_none.2 versioned]
    | repeated targetLine known =>
        rw [← Entries.has_eq_true_iff] at known
        simp [targetLine.flush, targetLine.named, targetLine.unversioned, known]

theorem readKindLine_eq_error_iff {this : Option Text} {number : Nat} {line : Text}
    {failure : Failure} :
    readKindLine this number line = .error failure ↔
      ∃ cause, KindFault this line cause ∧ ⟨cause, some (number : Int)⟩ = failure := by
  simp only [readKindLine]
  constructor
  · intro read
    split at read
    · rename_i noColon
      rw [Text.splitFirst?_eq_none_iff] at noColon
      exact ⟨_, .noColon noColon, failAt_eq_error_iff.1 read⟩
    · rename_i before after split
      rw [Text.splitFirst?_eq_some_iff] at split
      split at read
      · rename_i refused
        exact ⟨_, .range split.1 split.2 refused, failAt_eq_error_iff.1 read⟩
      · rename_i range ranged
        split at read
        · rename_i noKind
          exact ⟨_, .noKind split.1 split.2 ranged noKind, failAt_eq_error_iff.1 read⟩
        · split at read
          · rename_i refusal refused
            rcases Except.error.inj read with rfl
            rcases forM_eq_error_iff.1 refused with ⟨earlier, kind, later, kinds, passed, failed⟩
            refine ⟨_, .kind split.1 split.2 ranged kinds passed failed, ?_⟩
            rw [Failure.locate_eq_of_line_eq_none (Dependency.refused_of_checkKind failed).1]
          · contradiction
  · rintro ⟨cause, fault, rfl⟩
    cases fault with
    | noColon noColon => simp [Text.splitFirst?_eq_none_iff.2 noColon]
    | range split noColon refused =>
        simp [Text.splitFirst?_eq_some_iff.2 ⟨split, noColon⟩, refused]
    | noKind split noColon ranged noKind =>
        simp [Text.splitFirst?_eq_some_iff.2 ⟨split, noColon⟩, ranged, noKind]
    | kind split noColon ranged kinds passed failed =>
        have refused := forM_eq_error_iff.2 ⟨_, _, _, kinds, passed, failed⟩
        simp only [Text.splitFirst?_eq_some_iff.2 ⟨split, noColon⟩, ranged]
        split
        · simp_all
        · rw [refused]
          simp [Failure.locate_eq_of_line_eq_none (Dependency.refused_of_checkKind failed).1]

theorem readMetadataName_eq_error_iff {known : List (Text × Text)} {line : Line}
    {failure : Failure} :
    readMetadataName known line = .error failure ↔
      ∃ cause, MetadataFault known line.text cause ∧
        ⟨cause, some (line.number : Int)⟩ = failure := by
  simp only [readMetadataName]
  constructor
  · intro read
    split at read
    · rename_i noColon
      rw [Text.splitFirst?_eq_none_iff] at noColon
      exact ⟨_, .noColon noColon, failAt_eq_error_iff.1 read⟩
    · rename_i before tail split
      rw [Text.splitFirst?_eq_some_iff] at split
      split at read
      · rename_i empty
        exact ⟨_, .noName split.1 split.2 empty, failAt_eq_error_iff.1 read⟩
      · rename_i nonempty
        split at read
        · rename_i noWord
          exact ⟨_, .noWord split.1 split.2 nonempty (by simpa using noWord),
            failAt_eq_error_iff.1 read⟩
        · rename_i isName
          rw [Bool.not_eq_true', Bool.not_eq_false] at isName
          split at read
          · rename_i used
            rw [Entries.has_eq_true_iff] at used
            exact ⟨_, .repeated split.1 split.2 isName used, failAt_eq_error_iff.1 read⟩
          · rename_i fresh
            rw [Entries.has_eq_true_iff] at fresh
            split at read
            · rename_i reserved
              exact ⟨_, .reserved split.1 split.2 isName fresh reserved,
                failAt_eq_error_iff.1 read⟩
            · contradiction
  · rintro ⟨cause, fault, rfl⟩
    have named {name : Text} (isName : Dependency.isMetadataName name = true) : name ≠ [] :=
      Dependency.ne_nil_of_isWord isName
    cases fault with
    | noColon noColon => simp [Text.splitFirst?_eq_none_iff.2 noColon]
    | noName split noColon empty =>
        simp [Text.splitFirst?_eq_some_iff.2 ⟨split, noColon⟩, empty]
    | noWord split noColon nonempty noWord =>
        simp [Text.splitFirst?_eq_some_iff.2 ⟨split, noColon⟩, nonempty, noWord]
    | repeated split noColon isName used =>
        rw [← Entries.has_eq_true_iff] at used
        simp [Text.splitFirst?_eq_some_iff.2 ⟨split, noColon⟩, named isName, isName, used]
    | reserved split noColon isName fresh reserved =>
        rw [← Entries.has_eq_true_iff, Bool.not_eq_true] at fresh
        simp [Text.splitFirst?_eq_some_iff.2 ⟨split, noColon⟩, named isName, isName, fresh,
          reserved]

/-! ## One step -/

theorem State.expect_eq_error_iff {state : State} {next : Option Line} {failure : Failure} :
    state.expect next = .error failure ↔
      ∃ number cause, Missing state next number cause ∧
        ⟨cause, some (number : Int)⟩ = failure := by
  constructor
  · intro refused
    rcases state with ⟨entries, place⟩
    cases place with
    | outside => contradiction
    | announced target number =>
        simp only [expect] at refused
        split at refused
        · contradiction
        · rename_i undescribed
          refine ⟨_, _, .description ?_, failAt_eq_error_iff.1 refused⟩
          intro line found
          rcases Option.mem_def.1 found with rfl
          simpa using undescribed
    | inside block =>
        simp only [expect] at refused
        split at refused
        · rename_i position
          exact ⟨_, _, .quote position, failAt_eq_error_iff.1 refused⟩
        · contradiction
  · rintro ⟨number, cause, missing, rfl⟩
    cases missing with
    | description flush => cases next <;> simp_all [expect]
    | quote position => simp [expect, position]

theorem exists_fault_of_consume_inside {declaring : Option Identifier}
    {entries : List (Identifier × DependencyList)} {block : Block} {line : Line}
    {failure : Failure} (settled : block.Settled)
    (refused : State.consume declaring ⟨entries, .inside block⟩ line = .error failure) :
    ∃ cause, LineFault declaring ⟨entries, .inside block⟩ line.text cause ∧
      ⟨cause, some (line.number : Int)⟩ = failure := by
  simp only [State.consume, State.consumeInside_of_settled settled] at refused
  split at refused
  · rename_i deeper found
    rw [map_eq_error_iff, Block.readMetadataLine] at refused
    split at refused
    · rename_i indented
      exact ⟨_, .metadataIndentation settled found indented, failAt_eq_error_iff.1 refused⟩
    · rename_i indented
      rw [Decidable.not_not] at indented
      simp only [bind_eq_error_iff, pure_ne_error, and_false, exists_false, or_false,
        readMetadataName_eq_error_iff] at refused
      rcases refused with ⟨cause, fault, located⟩
      have awaits := Block.awaits_of_metadataIndentation?_eq_some settled found
      exact ⟨cause, .metadata (indented ▸ awaits) fault, located⟩
  · rename_i noMetadata
    split at refused
    · rename_i initial
      rw [List.isPrefixOf_iff_prefix] at initial
      rw [map_eq_error_iff, Block.readNextKindLine] at refused
      split at refused
      · rename_i indented
        exact ⟨_, .kindIndentation settled noMetadata initial indented,
          failAt_eq_error_iff.1 refused⟩
      · rename_i indented
        rw [Decidable.not_not] at indented
        simp only [bind_eq_error_iff, pure_ne_error, and_false, exists_false, or_false,
          readKindLine_eq_error_iff] at refused
        rcases refused with ⟨cause, fault, located⟩
        exact ⟨cause, .nextKind settled indented fault, located⟩
    · rename_i noKind
      rw [List.isPrefixOf_iff_prefix] at noKind
      rcases readTarget_eq_error_iff.1 refused with ⟨cause, fault, located⟩
      exact ⟨cause, .target ⟨settled, noMetadata, noKind⟩ fault, located⟩

theorem exists_fault_of_consume {declaring : Option Identifier} {state : State} {line : Line}
    {failure : Failure} (expected : state.expect (some line) = .ok ())
    (refused : state.consume declaring line = .error failure) :
    ∃ cause, LineFault declaring state line.text cause ∧
      ⟨cause, some (line.number : Int)⟩ = failure := by
  rcases state with ⟨entries, place⟩
  cases place with
  | outside =>
      rcases readTarget_eq_error_iff.1 refused with ⟨cause, fault, located⟩
      exact ⟨cause, .target trivial fault, located⟩
  | announced target number =>
      simp only [State.consume, bind_eq_error_iff, pure_ne_error, and_false, exists_false, or_false,
        readKindLine_eq_error_iff] at refused
      rcases refused with ⟨cause, fault, located⟩
      refine ⟨cause, .firstKind ?_ fault, located⟩
      intro flush
      simp [State.expect, flush] at expected
  | inside block =>
      by_cases settled : block.Settled
      · exact exists_fault_of_consume_inside settled refused
      · rcases block with ⟨target, indentation, complete, current, position⟩
        cases position with
        | kindLine => exact absurd trivial settled
        | metadata known => exact absurd trivial settled
        | openValue known name content number => contradiction

/-- Nothing is missing in front of a line with a fault. -/
theorem LineFault.expect_eq_ok {declaring : Option Identifier} {state : State} {line : Line}
    {cause : Cause} (fault : LineFault declaring state line.text cause) :
    state.expect (some line) = .ok () := by
  cases fault with
  | target left fault => exact State.expect_of_ready left.ready
  | firstKind indented fault => simp [State.expect, indented]
  | kindIndentation settled => exact State.expect_some_of_inside _ _ line
  | nextKind settled => exact State.expect_some_of_inside _ _ line
  | metadataIndentation settled => exact State.expect_some_of_inside _ _ line
  | metadata awaits => exact State.expect_some_of_inside _ _ line

/-- A line with a fault is refused for it. -/
theorem LineFault.consume_eq_error {declaring : Option Identifier} {state : State} {line : Line}
    {cause : Cause} (fault : LineFault declaring state line.text cause)
    (indented : state.Indented) :
    state.consume declaring line = .error ⟨cause, some (line.number : Int)⟩ := by
  cases fault with
  | target left fault =>
      rw [State.consume_of_leftBy left, readTarget_eq_error_iff]
      exact ⟨cause, fault, rfl⟩
  | firstKind nonempty fault =>
      simp only [State.consume, bind_eq_error_iff]
      exact .inl (readKindLine_eq_error_iff.2 ⟨cause, fault, rfl⟩)
  | kindIndentation settled noMetadata initial differs =>
      simp only [State.consume, State.consumeInside_of_settled settled, noMetadata]
      rw [if_pos (List.isPrefixOf_iff_prefix.2 initial), map_eq_error_iff]
      simp [Block.readNextKindLine, differs]
  | @nextKind entries block _ _ settled same fault =>
      have shallow : Text.indentation line.text <+: block.indentation :=
        same ▸ List.prefix_rfl
      have noMetadata := Block.metadataIndentation?_eq_none (indented block rfl) shallow
      have initial : block.indentation <+: line.text := same ▸ List.takeWhile_prefix _
      simp only [State.consume, State.consumeInside_of_settled settled, noMetadata]
      rw [if_pos (List.isPrefixOf_iff_prefix.2 initial), map_eq_error_iff]
      simp only [Block.readNextKindLine, same, ne_eq, not_true_eq_false, if_false,
        bind_eq_error_iff]
      exact .inl (readKindLine_eq_error_iff.2 ⟨cause, fault, rfl⟩)
  | metadataIndentation settled found differs =>
      simp only [State.consume, State.consumeInside_of_settled settled, found, map_eq_error_iff]
      simp [Block.readMetadataLine, differs]
  | metadata awaits fault =>
      have found := Block.metadataIndentation?_eq_some_of_awaits awaits rfl
      simp only [State.consume, State.consumeInside_of_settled awaits.settled, found,
        map_eq_error_iff, Block.readMetadataLine, ne_eq, not_true_eq_false, if_false,
        bind_eq_error_iff]
      exact .inl (readMetadataName_eq_error_iff.2 ⟨cause, fault, rfl⟩)

/-- A step fails if and only if something is missing in front of its line or the line has a fault.
-/
theorem State.step_eq_error_iff {declaring : Option Identifier} {state : State} {line : Line}
    {failure : Failure} (indented : state.Indented) :
    state.step declaring line = .error failure ↔
      (∃ number cause, Missing state (some line) number cause ∧
        ⟨cause, some (number : Int)⟩ = failure) ∨
      ∃ cause, LineFault declaring state line.text cause ∧
        ⟨cause, some (line.number : Int)⟩ = failure := by
  rw [State.step, bind_eq_error_iff, State.expect_eq_error_iff]
  refine or_congr_right ⟨?_, ?_⟩
  · rintro ⟨⟨⟩, expected, refused⟩
    exact exists_fault_of_consume expected refused
  · rintro ⟨cause, fault, rfl⟩
    exact ⟨(), fault.expect_eq_ok, fault.consume_eq_error indented⟩

end Declarations

end BundleDecl
