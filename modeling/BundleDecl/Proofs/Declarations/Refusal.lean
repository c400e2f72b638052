import BundleDecl.Proofs.Declarations.Acceptance
import BundleDecl.Proofs.Declarations.Fault

/-!
# Refused declarations

Lines are refused if and only if after some of them, which are read without a failure, the next one
has a fault or something is missing. Nothing else is reported, and only one line after the reported
one can matter.
-/

namespace BundleDecl

namespace Declarations

variable {declaring : Option Identifier}

/-! ## Indentations of the lines that were read -/

/-- The indentation of the metadata lines that are being read. -/
def Position.indentation? : Position → Option Text
  | .kindLine => none
  | .metadata indentation => some indentation
  | .openValue indentation _ _ _ => some indentation

/-- The indentations of a block are blank, and that of its metadata, unfinished values included,
continues that of its kinds. -/
structure Block.Nested (block : Block) : Prop where
  nonempty : block.indentation ≠ []
  blank : Text.isBlank block.indentation = true
  deeper : ∀ indentation ∈ block.position.indentation?,
    Deepens block.indentation indentation ∧ Text.isBlank indentation = true

theorem Block.Nested.takeValue {block : Block} (nested : block.Nested) {indentation : Text}
    (deepens : Deepens block.indentation indentation) (blank : Text.isBlank indentation = true)
    (name : Text) (number : Nat) (start : MetadataValue.Start) :
    (block.takeValue indentation name number start).Nested := by
  have deeper (other : Text) (found : other ∈ some indentation) :
      Deepens block.indentation other ∧ Text.isBlank other = true := by
    rcases Option.some.inj found with rfl
    exact ⟨deepens, blank⟩
  cases start with
  | complete value => exact ⟨nested.nonempty, nested.blank, deeper⟩
  | unclosed content => exact ⟨nested.nonempty, nested.blank, deeper⟩

theorem Block.Nested.deepens_of_awaits {block : Block} (nested : block.Nested) {indentation : Text}
    (awaits : block.Awaits indentation) : Deepens block.indentation indentation := by
  rcases block with ⟨target, own, complete, current, position⟩
  cases position with
  | kindLine => exact awaits
  | metadata known =>
      rcases awaits with rfl
      exact (nested.deeper _ rfl).1
  | openValue known name content number => exact False.elim awaits

/-- The block that is being read, if there is one, is indented as blocks are. -/
def State.Nested (state : State) : Prop :=
  ∀ block, state.place = .inside block → block.Nested

theorem State.Nested.indented {state : State} (nested : state.Nested) : state.Indented := by
  intro block inside
  rcases nested block inside with ⟨nonempty, blank, deeper⟩
  refine ⟨nonempty, blank, ?_⟩
  intro indentation position
  exact deeper indentation (by rw [position]; rfl)

/-- Every step keeps to the indentations. -/
theorem Step.nested {state next : State} {line : Line} (step : Step declaring state line next)
    (nested : state.Nested) : next.Nested := by
  intro block inside
  cases step with
  | target ready targetLine fresh => contradiction
  | firstKind nonempty kindLine =>
      rcases Place.inside.inj inside with rfl
      have blank := kindLine.indented ▸ Text.isBlank_indentation line.text
      exact ⟨nonempty, blank, nofun⟩
  | nextKind settled kindLine =>
      rcases Place.inside.inj inside with rfl
      have known := nested _ rfl
      exact ⟨known.nonempty, known.blank, nofun⟩
  | metadata awaits metadataLine fresh =>
      rcases Place.inside.inj inside with rfl
      have known := nested _ rfl
      have blank := metadataLine.indented ▸ Text.isBlank_indentation line.text
      exact known.takeValue (known.deepens_of_awaits awaits) blank _ _ _
  | value position =>
      rcases Place.inside.inj inside with rfl
      have known := nested _ rfl
      rcases known.deeper _ (by rw [position]; rfl) with ⟨deepens, blank⟩
      exact known.takeValue deepens blank _ _ _

theorem nested_of_foldlM {lines : List Line} {state : State}
    (steps : lines.foldlM (State.step declaring) .initial = .ok state) : state.Nested :=
  invariant_of_foldlM (fun _ state => state.Nested) nofun
    (fun _ _ _ _ nested step => step.nested nested) steps

/-! ## Runs -/

theorem mapError_stopAt {Result : Type} {unread : List Line} (outcome : Except Failure Result) :
    (stopAt unread outcome).mapError Stop.failure = outcome := by
  cases outcome <;> rfl

/-- A run takes one step after the other, and at the end it looks for what is missing. -/
theorem mapError_run (state : State) (lines : List Line) :
    (run declaring state lines).mapError Stop.failure = do
      let final ← lines.foldlM (State.step declaring) state
      final.expect none
      return final := by
  induction lines generalizing state with
  | nil =>
      simp only [run, mapError_bind, mapError_stopAt, List.foldlM_nil, pure_bind]
      rfl
  | cons line lines ih =>
      simp only [run, mapError_bind, mapError_stopAt, ih, List.foldlM_cons, State.step, bind_assoc]

/-- Declarations are what is complete after all steps if nothing is missing then. -/
theorem ofPhysicalLines_eq (lines : List Text) :
    ofPhysicalLines declaring lines = (do
      let final ← (Line.nonBlank lines).foldlM (State.step declaring) .initial
      final.expect none
      ofEntries final.allEntries) := by
  rw [ofPhysicalLines, ofLines, mapError_bind, mapError_run]
  simp only [mapError_stopAt, bind_assoc, pure_bind]

/-- A line with a fault, or a line that needs something that is missing after it. -/
inductive Refused (declaring : Option Identifier) (lines : List Line) : Line → Cause → Prop where
  | fault {read unread : List Line} {line : Line} {state : State} {cause : Cause} :
      read ++ line :: unread = lines → read.foldlM (State.step declaring) .initial = .ok state →
      LineFault declaring state line.text cause → Refused declaring lines line cause
  | missing {read unread : List Line} {line : Line} {state : State} {cause : Cause} :
      read ++ line :: unread = lines →
      (read ++ [line]).foldlM (State.step declaring) .initial = .ok state →
      Missing state unread.head? line.number cause → Refused declaring lines line cause

theorem Block.number_eq_of_takeValue {block : Block}
    {indentation name deeper other content : Text} {line number : Nat}
    {start : MetadataValue.Start}
    (position : (block.takeValue indentation name line start).position =
      .openValue deeper other content number) : number = line := by
  cases start with
  | complete value => contradiction
  | unclosed content => exact (Position.openValue.inj position).2.2.2.symm

/-- What is missing is needed by the line that was read last. -/
theorem Missing.number_eq {state next : State} {line : Line} {following : Option Line}
    {number : Nat} {cause : Cause} (missing : Missing next following number cause)
    (step : Step declaring state line next) : number = line.number := by
  cases missing with
  | description flush => cases step; rfl
  | quote position =>
      cases step with
      | firstKind nonempty kindLine => contradiction
      | nextKind settled kindLine => contradiction
      | metadata awaits metadataLine fresh => exact Block.number_eq_of_takeValue position
      | value known => exact Block.number_eq_of_takeValue position

/-- Something can be missing only after a line was read. -/
theorem Missing.exists_last {state : State} {read : List Line} {following : Option Line}
    {number : Nat} {cause : Cause} (missing : Missing state following number cause)
    (steps : read.foldlM (State.step declaring) .initial = .ok state) :
    ∃ before line, read = before ++ [line] ∧ number = line.number := by
  rcases List.eq_nil_or_concat read with rfl | ⟨before, line, rfl⟩
  · rcases Except.ok.inj steps with rfl
    cases missing
  · rw [List.concat_eq_append] at steps ⊢
    rcases foldlM_step_concat.1 steps with ⟨state, _, step⟩
    exact ⟨before, line, rfl, missing.number_eq (.of_step step)⟩

/-- Lines are refused if and only if one of them has a fault or needs something that is missing. -/
theorem ofPhysicalLines_eq_error_iff {lines : List Text} {failure : Failure} :
    ofPhysicalLines declaring lines = .error failure ↔
      ∃ line cause, Refused declaring (Line.nonBlank lines) line cause ∧
        ⟨cause, some (line.number : Int)⟩ = failure := by
  rw [ofPhysicalLines_eq, bind_eq_error_iff, foldlM_eq_error_iff]
  constructor
  · rintro (⟨read, line, unread, state, split, steps, refused⟩ | ⟨state, steps, refused⟩)
    · -- A refused step is the fault of its line, or the line before it needs something.
      rw [State.step_eq_error_iff (nested_of_foldlM steps).indented] at refused
      rcases refused with ⟨number, cause, missing, located⟩ | ⟨cause, fault, located⟩
      · rcases missing.exists_last steps with ⟨before, last, rfl, rfl⟩
        rw [List.append_assoc] at split
        exact ⟨last, cause, .missing split steps missing, located⟩
      · exact ⟨line, cause, .fault split steps fault, located⟩
    · -- After the last step only that line can need something: complete targets are accepted.
      rw [bind_eq_error_iff, State.expect_eq_error_iff] at refused
      rcases refused with ⟨number, cause, missing, located⟩ | ⟨⟨⟩, expected, refused⟩
      · rcases missing.exists_last steps with ⟨before, last, split, rfl⟩
        exact ⟨last, cause, .missing split.symm (split ▸ steps) missing, located⟩
      · rw [ofEntries_eq_ok_of_foldlM steps (State.ready_of_expect_none expected)] at refused
        contradiction
  · rintro ⟨line, cause, refused, rfl⟩
    cases refused with
    | @fault read unread _ state _ split steps fault =>
        refine .inl ⟨read, line, unread, state, split, steps, ?_⟩
        rw [State.step_eq_error_iff (nested_of_foldlM steps).indented]
        exact .inr ⟨cause, fault, rfl⟩
    | @missing read unread _ state _ split steps missing =>
        cases unread with
        | nil =>
            refine .inr ⟨state, split ▸ steps, ?_⟩
            rw [bind_eq_error_iff, State.expect_eq_error_iff]
            exact .inl ⟨_, _, missing, rfl⟩
        | cons next unread =>
            refine .inl ⟨read ++ [line], next, unread, state, ?_, steps, ?_⟩
            · rw [← split, List.append_assoc, List.singleton_append]
            · rw [State.step_eq_error_iff (nested_of_foldlM steps).indented]
              exact .inl ⟨_, _, missing, rfl⟩

end Declarations

end BundleDecl
