import BundleDecl.Declarations.Interruption
import BundleDecl.Proofs.Declarations.Location
import BundleDecl.Proofs.Delivery
import BundleDecl.Proofs.Range.Limits

/-!
# Reading declarations within the limits of a host

A text is read, it is refused at one of its lines, or the host interrupts its reading, and which of
these it is can be told from the lines: the reader is interrupted when it comes to a kind line the
range of which it cannot read on this host.
-/

namespace BundleDecl

namespace Declarations

variable {host : Host} {declaring : Option Identifier}

/-! ## Ranges of kind lines -/

theorem readKindLine_of_kindRangeText? {this : Option Text} {text range : Text}
    (comes : kindRangeText? this text = some range) (number : Nat) :
    (∀ failure, Range.ofText range = .error failure →
      readKindLine this number text =
        failAt number (.malformedKindRange (Text.strip range) range)) ∧
    ∀ dependency, readKindLine this number text = .ok dependency →
      Range.ofText range = .ok dependency.range := by
  rcases Option.map_eq_some_iff.1 comes with ⟨⟨before, tail⟩, split, rfl⟩
  rw [readKindLine, split]
  constructor
  · intro failure refused
    simp only [refused]
  · intro dependency read
    dsimp only at read
    split at read
    · contradiction
    · rename_i ranged
      split at read
      · contradiction
      · split at read
        · contradiction
        · rcases Except.ok.inj read with rfl
          exact ranged

theorem Block.rangeText?_of_settled {block : Block} (settled : block.Settled)
    (this : Option Text) (line : Text) :
    block.rangeText? this line =
      match block.metadataIndentation? line with
      | some _ => none
      | none =>
        if Text.indentation line = block.indentation then
          kindRangeText? this (line.drop block.indentation.length)
        else
          none := by
  rcases block with ⟨target, indentation, complete, current, position⟩
  cases position with
  | kindLine => rfl
  | metadata known => rfl
  | openValue known name content number => exact False.elim settled

theorem Block.settled_of_rangeText? {block : Block} {this : Option Text} {line range : Text}
    (comes : block.rangeText? this line = some range) : block.Settled := by
  rcases block with ⟨target, indentation, complete, current, position⟩
  cases position with
  | kindLine => trivial
  | metadata known => trivial
  | openValue known name content number => contradiction

theorem Block.of_rangeText? {block : Block} {this : Option Text} {line range : Text}
    (comes : block.rangeText? this line = some range) :
    block.metadataIndentation? line = none ∧ Text.indentation line = block.indentation ∧
      kindRangeText? this (line.drop block.indentation.length) = some range := by
  rw [Block.rangeText?_of_settled (Block.settled_of_rangeText? comes)] at comes
  split at comes
  · contradiction
  · rename_i noMetadata
    split at comes
    · rename_i indented
      exact ⟨noMetadata, indented, comes⟩
    · contradiction

/-- A line with a range text is read as a kind line: everything else about it follows from that. -/
theorem State.exists_consume_eq {state : State} {line : Line} {range : Text}
    (comes : state.rangeText? declaring line.text = some range) :
    ∃ this text, ∃ make : Dependency → Block, kindRangeText? this text = some range ∧
      (∀ dependency, (make dependency).current = dependency) ∧
      state.consume declaring line =
        (readKindLine this line.number text).map fun dependency =>
          state.within (make dependency) := by
  rcases state with ⟨entries, place⟩
  cases place with
  | outside => contradiction
  | announced target number => exact ⟨_, _, _, comes, fun _ => rfl, rfl⟩
  | inside block =>
      have settled := Block.settled_of_rangeText? comes
      rcases Block.of_rangeText? comes with ⟨noMetadata, indented, comes⟩
      refine ⟨_, _, block.begin, comes, fun _ => rfl, ?_⟩
      have inside : block.indentation.isPrefixOf line.text = true := by
        rw [List.isPrefixOf_iff_prefix, ← indented]
        exact List.takeWhile_prefix _
      simp only [State.consume, State.consumeInside_of_settled settled, noMetadata, inside, if_true,
        Block.readNextKindLine, indented, ne_eq, not_true_eq_false, if_false]
      cases readKindLine (thisVersion declaring block.target) line.number
        (line.text.drop block.indentation.length) <;> rfl

/-- A line with a range text fails if that text denotes no range, and otherwise it can only make a
dependency with the range that the text denotes. -/
theorem State.consume_of_rangeText? {state : State} {line : Line} {range : Text}
    (comes : state.rangeText? declaring line.text = some range) :
    (∀ failure, Range.ofText range = .error failure →
      state.consume declaring line =
        failAt line.number (.malformedKindRange (Text.strip range) range)) ∧
    ∀ next, state.consume declaring line = .ok next →
      ∃ block, next.place = .inside block ∧ Range.ofText range = .ok block.current.range := by
  rcases State.exists_consume_eq comes with ⟨this, text, make, comes, current, consumed⟩
  rcases readKindLine_of_kindRangeText? comes line.number with ⟨refused, read⟩
  rw [consumed]
  constructor
  · intro failure unranged
    rw [refused failure unranged]
    rfl
  · intro next made
    rcases map_eq_ok_iff.1 made with ⟨dependency, kindLine, rfl⟩
    exact ⟨make dependency, rfl, by rw [current]; exact read dependency kindLine⟩

theorem KindLine.exists_kindRangeText? {this : Option Text} {indentation line : Text}
    {kinds : List Text} {range : Range} (kindLine : KindLine this indentation line kinds range) :
    ∃ text, kindRangeText? this (line.drop indentation.length) = some text := by
  rcases kindLine.split with ⟨before, after, split, noColon, -, -⟩
  refine ⟨rangeText this after, ?_⟩
  rw [split, List.drop_left, kindRangeText?, Text.splitFirst?_eq_some_iff.2 ⟨rfl, noColon⟩]
  rfl

theorem Block.position_takeValue_ne_kindLine (block : Block) (indentation name : Text)
    (number : Nat) (start : MetadataValue.Start) :
    (block.takeValue indentation name number start).position ≠ .kindLine := by
  cases start <;> nofun

/-- A step that makes a dependency of a kind line reads a range text. -/
theorem Step.exists_rangeText? {state next : State} {line : Line} (indented : state.Indented)
    (step : Step declaring state line next) {block : Block} (inside : next.place = .inside block)
    (made : block.position = .kindLine) :
    ∃ range, state.rangeText? declaring line.text = some range := by
  cases step with
  | target ready targetLine fresh => contradiction
  | firstKind nonempty kindLine =>
      rw [State.rangeText?, kindLine.indented]
      exact kindLine.exists_kindRangeText?
  | @nextKind entries known _ kinds range settled kindLine =>
      have noMetadata : known.metadataIndentation? line.text = none := by
        apply Block.metadataIndentation?_eq_none (indented known rfl)
        rw [kindLine.indented]
      simp only [State.rangeText?, Block.rangeText?_of_settled settled, noMetadata,
        kindLine.indented, if_true]
      exact kindLine.exists_kindRangeText?
  | metadata awaits metadataLine fresh =>
      rcases Place.inside.inj inside with rfl
      exact absurd made (Block.position_takeValue_ne_kindLine _ _ _ _ _)
  | value position =>
      rcases Place.inside.inj inside with rfl
      exact absurd made (Block.position_takeValue_ne_kindLine _ _ _ _ _)

/-- The range text of a line is what is read as a range when that line is consumed. -/
structure ReadsRange (declaring : Option Identifier) (state : State) (line : Line) : Prop where
  /-- The line fails if its range text denotes no range. -/
  refused : ∀ range failure, state.rangeText? declaring line.text = some range →
    Range.ofText range = .error failure →
      state.consume declaring line =
        failAt line.number (.malformedKindRange (Text.strip range) range)
  /-- Otherwise it can only make a dependency with the range that the text denotes. -/
  read : ∀ range next, state.rangeText? declaring line.text = some range →
    state.consume declaring line = .ok next →
      ∃ block, next.place = .inside block ∧ Range.ofText range = .ok block.current.range
  /-- No other line makes a dependency of a kind line. -/
  only : ∀ next block, state.step declaring line = .ok next → next.place = .inside block →
    block.position = .kindLine → ∃ range, state.rangeText? declaring line.text = some range

theorem readsRange_of_foldlM {lines : List Line} {state : State}
    (steps : lines.foldlM (State.step declaring) .initial = .ok state) (line : Line) :
    ReadsRange declaring state line where
  refused _ failure comes := (State.consume_of_rangeText? comes).1 failure
  read _ next comes := (State.consume_of_rangeText? comes).2 next
  only _ _ step inside made :=
    (Step.of_step step).exists_rangeText? (nested_of_foldlM steps).indented inside made

/-! ## Interruptions -/

/-- The reader within the limits of a host comes to a line whose range text it cannot read. -/
inductive Interrupted (host : Host) (declaring : Option Identifier) (lines : List Line) :
    Interruption → Prop where
  | intro {read unread : List Line} {line : Line} {state : State} {range : Text}
      {interruption : Interruption} (split : read ++ line :: unread = lines)
      (steps : read.foldlM (stepWithin (State.interruption? host declaring) (State.step declaring))
        .initial = .ok state)
      (expected : state.expect (some line) = .ok ())
      (comes : state.rangeText? declaring line.text = some range)
      (cut : Range.interruption? host range = some interruption) :
      Interrupted host declaring lines interruption

theorem State.interruption?_eq_some_iff {state : State} {line : Line}
    {interruption : Interruption} :
    state.interruption? host declaring line = some interruption ↔
      state.expect (some line) = .ok () ∧
        ∃ range, state.rangeText? declaring line.text = some range ∧
          Range.interruption? host range = some interruption := by
  rw [State.interruption?]
  cases expected : state.expect (some line) with
  | error failure => simp
  | ok done => simp [Option.bind_eq_some_iff]

theorem interruption?_eq_some_iff {lines : List Line} {interruption : Interruption} :
    (Declarations.interruption? host declaring lines).map Prod.fst = some interruption ↔
      Interrupted host declaring lines interruption := by
  rw [Declarations.interruption?, firstInterruption?_eq_some_iff]
  simp only [State.interruption?_eq_some_iff]
  constructor
  · rintro ⟨read, line, unread, state, split, steps, expected, range, comes, cut⟩
    exact .intro split steps expected comes cut
  · rintro ⟨split, steps, expected, comes, cut⟩
    exact ⟨_, _, _, _, split, steps, expected, _, comes, cut⟩

theorem ofDeliveredWithin_of_valid (lines : List Text) :
    ofDeliveredWithin host declaring ⟨lines, false⟩ =
      interruptedBy
        ((Declarations.interruption? host declaring (Line.nonBlank lines)).map Prod.fst)
        (ofPhysicalLines declaring lines) := by
  rw [ofDeliveredWithin, ofDelivered_of_valid]
  cases Declarations.interruption? host declaring (Line.nonBlank lines) <;> rfl

theorem ofTextWithin_eq (text : Text) :
    ofTextWithin host declaring text =
      interruptedBy ((Declarations.interruption? host declaring
        (Line.nonBlank (Text.lines text))).map Prod.fst) (ofText declaring text) := by
  have delivered : Delivered.ofChunks (Source.text text).toChunks = ⟨Text.lines text, false⟩ :=
    Delivered.ofChunks_of_whole rfl
  rw [ofTextWithin, ofSourceWithin, delivered, ofDeliveredWithin_of_valid,
    ofText_eq_ofPhysicalLines]

theorem ofTextWithin_eq_interrupted_iff {text : Text} {interruption : Interruption} :
    ofTextWithin host declaring text = .error (.interrupted interruption) ↔
      Interrupted host declaring (Line.nonBlank (Text.lines text)) interruption := by
  rw [ofTextWithin_eq, interruptedBy_eq_interrupted_iff, interruption?_eq_some_iff]

/-- What the reading of a text as declarations results in on a host. -/
structure Outcome (host : Host) (declaring : Option Identifier) (text : Text) : Prop where
  /-- The text is read, it is refused at one of its lines that is not blank, for one of the causes
  that lines have, or its reading is interrupted. -/
  total : (∃ declarations, ofTextWithin host declaring text = .ok declarations) ∨
    (∃ line cause,
      ofTextWithin host declaring text = .error (.refused ⟨cause, some (line.number : Int)⟩) ∧
        Designates text line ∧ cause.failureClass ∈ readerClasses) ∨
    ∃ interruption, ofTextWithin host declaring text = .error (.interrupted interruption)
  /-- The reading is interrupted exactly if the reader comes to a range text that it cannot read on
  this host. -/
  interrupted_iff : ∀ interruption,
    ofTextWithin host declaring text = .error (.interrupted interruption) ↔
      Interrupted host declaring (Line.nonBlank (Text.lines text)) interruption
  /-- Without an interruption, the text is refused exactly if a line is; the cause of an identifier
  or a kind is the one for which it is refused on its own, only the line is added. -/
  refused_iff : ∀ failure, ofTextWithin host declaring text = .error (.refused failure) ↔
    (∀ interruption, ¬Interrupted host declaring (Line.nonBlank (Text.lines text)) interruption) ∧
      ∃ line cause, Refused declaring (Line.nonBlank (Text.lines text)) line cause ∧
        ⟨cause, some (line.number : Int)⟩ = failure
  /-- Neither the parts of a dependency nor the complete targets are ever refused later, and no
  range but the range text of a line is read. -/
  steps : ∀ read unread state, read ++ unread = Line.nonBlank (Text.lines text) →
    read.foldlM (State.step declaring) .initial = .ok state →
    state.Assembled declaring (read.map Line.text) ∧
      (state.Ready → ofEntries state.allEntries = .ok ⟨state.allEntries⟩) ∧
      ∀ line, ReadsRange declaring state line

/-- On every host, a text is read, it is refused at one of its lines, or the reading of one of its
ranges is interrupted. -/
theorem outcome_ofTextWithin (host : Host) (declaring : Option Identifier) (text : Text) :
    Outcome host declaring text := by
  have unlimited := ofText_eq_ok_or_error declaring text
  refine ⟨?_, fun _ => ofTextWithin_eq_interrupted_iff, ?_, ?_⟩
  · rw [ofTextWithin_eq]
    cases (Declarations.interruption? host declaring
        (Line.nonBlank (Text.lines text))).map Prod.fst with
    | some interruption => exact .inr (.inr ⟨interruption, rfl⟩)
    | none =>
        rcases unlimited.1 with ⟨declarations, read⟩ | ⟨line, cause, refused, located⟩
        · exact .inl ⟨declarations, interruptedBy_eq_ok_iff.2 ⟨rfl, read⟩⟩
        · exact .inr (.inl ⟨line, cause, interruptedBy_eq_refused_iff.2 ⟨rfl, refused⟩, located⟩)
  · intro failure
    rw [ofTextWithin_eq, interruptedBy_eq_refused_iff, unlimited.2.1]
    simp only [Option.eq_none_iff_forall_ne_some, Ne, interruption?_eq_some_iff]
  · intro read unread state split steps
    rcases unlimited.2.2 read unread state split steps with ⟨assembled, complete⟩
    exact ⟨assembled, complete, readsRange_of_foldlM steps⟩

theorem outcome_ofTextWithin_two_versions :
    let text := "\nlib-v1-v2\n".toList
    let cause : Cause := .severalVersions "lib".toList "v1".toList "v2".toList
    Identifier.ofText "lib-v1-v2".toList = .error ⟨cause, none⟩ ∧
      ∃ line, ofTextWithin .usual none text =
          .error (.refused ⟨cause, some (line.number : Int)⟩) ∧ Designates text line := by
  intro text cause
  have read : ofTextWithin .usual none text = .error (.refused ⟨cause, some 2⟩) := rfl
  refine ⟨rfl, ?_⟩
  rcases (outcome_ofTextWithin .usual none text).total with
    ⟨declarations, other⟩ | ⟨line, other, refused, designated, -⟩ | ⟨interruption, cut⟩
  · rw [read] at other
    contradiction
  · rcases Failure.mk.inj (Halt.refused.inj (Except.error.inj (read.symm.trans refused))) with
      ⟨rfl, number⟩
    exact ⟨line, refused, designated⟩
  · exact absurd (Except.error.inj (read.symm.trans cut)) nofun

/-! ## A kind line that cannot be read -/

/-- The text of declarations with one kind line. -/
def requiring (range : Text) : Text :=
  "lib\n\truntime:".toList ++ (range ++ ['\n'])

theorem lines_requiring {range : Text} (noReturn : '\r' ∉ range) (noFeed : '\n' ∉ range) :
    Text.lines (requiring range) = ["lib".toList, "\truntime:".toList ++ range] := by
  have kindReturn : '\r' ∉ "\truntime:".toList ++ range := by
    rw [List.mem_append, not_or]
    exact ⟨by decide, noReturn⟩
  have kindFeed : '\n' ∉ "\truntime:".toList ++ range := by
    rw [List.mem_append, not_or]
    exact ⟨by decide, noFeed⟩
  have feeds : requiring range =
      ["lib".toList, "\truntime:".toList ++ range].flatMap (· ++ ['\n']) := by
    rw [List.flatMap_cons, List.flatMap_singleton, List.append_assoc "\truntime:".toList]
    rfl
  have noReturns : ∀ line ∈ ["lib".toList, "\truntime:".toList ++ range], '\r' ∉ line :=
    List.forall_mem_cons.2 ⟨by decide, List.forall_mem_singleton.2 kindReturn⟩
  rw [feeds, Text.lines_flatMap noReturns, List.flatMap_cons, List.flatMap_singleton,
    Text.splitLines_eq_singleton kindReturn kindFeed]
  rfl

/-- The reader is interrupted on a kind line as it is on the range of that line. -/
theorem ofTextWithin_requiring {range : Text} {interruption : Interruption}
    (noReturn : '\r' ∉ range) (noFeed : '\n' ∉ range)
    (cut : Range.interruption? host range = some interruption) :
    ofTextWithin host none (requiring range) = .error (.interrupted interruption) := by
  rw [ofTextWithin_eq_interrupted_iff, lines_requiring noReturn noFeed]
  have steps : [Line.mk 1 "lib".toList].foldlM
      (stepWithin (State.interruption? host none) (State.step none)) .initial =
        .ok ⟨[], .announced ⟨"lib".toList, [], none⟩ 1⟩ := rfl
  have split : [⟨1, "lib".toList⟩] ++ ⟨2, "\truntime:".toList ++ range⟩ :: [] =
      Line.nonBlank ["lib".toList, "\truntime:".toList ++ range] := rfl
  exact .intro split steps rfl rfl cut

theorem ofTextWithin_requiring_long {count : Nat} (long : Text.longestNumber < count)
    (holds : host.holds (.range (Range.upTo (Range.ones count))) = true) :
    ofTextWithin host none (requiring (Range.upTo (Range.ones count))) =
      .error (.interrupted (.conversion count)) :=
  ofTextWithin_requiring (Range.notMem_upTo_ones (by decide)) (Range.notMem_upTo_ones (by decide))
    (Range.interruption?_upTo_ones long holds)

/-- A kind line with a bound of too many digits is neither read nor refused. -/
theorem ofTextWithin_long_kind_line :
    ofTextWithin .usual none (requiring (Range.upTo (Range.ones 4301))) =
      .error (.interrupted (.conversion 4301)) :=
  ofTextWithin_requiring_long (by decide) rfl

end Declarations

end BundleDecl
