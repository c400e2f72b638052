import BundleDecl.Proofs.Declarations
import BundleDecl.Proofs.Declarations.Completeness
import BundleDecl.Proofs.Declarations.Soundness

/-!
# The language of the reader

The texts that the reader accepts are those whose non-blank lines are declarations according to the
grammar, and what it reads is what they stand for. The grammar never stands for a versioned target
or a target without dependencies, so nothing is refused or left out after the last line.
-/

namespace BundleDecl

/-- Every item of a sequence has its own lines among those of the sequence. -/
theorem Sequence.exists_of_mem {Item : Type} {piece : List Text → Item → Prop} {lines : List Text}
    {items : List Item} (pieces : Sequence piece lines items) {item : Item}
    (member : item ∈ items) : ∃ part, piece part item ∧ part ⊆ lines := by
  induction pieces with
  | nil => simp at member
  | cons first others ih =>
      rcases List.mem_cons.1 member with rfl | member
      · exact ⟨_, first, List.subset_append_left _ _⟩
      · rcases ih member with ⟨part, written, subset⟩
        exact ⟨part, written, List.subset_append_of_subset_right _ subset⟩

namespace Declarations

variable {declaring : Option Identifier}

/-- Written entries are declarations as they are. -/
theorem Written.ofEntries_eq_ok {lines : List Text} {entries : List (Identifier × DependencyList)}
    (written : Written declaring lines entries) : ofEntries entries = .ok ⟨entries⟩ := by
  have described (entry : Identifier × DependencyList) (member : entry ∈ entries) :
      entry.1.version = none ∧ entry.2.isEmpty = false := by
    rcases written.blocks.exists_of_mem member with ⟨part, targetLines, _⟩
    cases targetLines with
    | intro targetLine _ nonempty _ =>
        exact ⟨targetLine.unversioned, DependencyList.isEmpty_ofList nonempty⟩
  exact ofEntries_eq_self (fun entry member => (described entry member).1)
    (fun entry member => (described entry member).2)

/-- The declarations on physical lines. -/
def ofPhysicalLines (declaring : Option Identifier) (lines : List Text) :
    Except Failure Declarations :=
  (ofLines declaring (Line.nonBlank lines)).mapError Stop.failure

theorem ofText_eq_ofPhysicalLines (declaring : Option Identifier) (text : Text) :
    ofText declaring text = ofPhysicalLines declaring (Text.lines text) := rfl

/-- Nothing is refused or left out after the last line. -/
theorem ofEntries_eq_ok_of_foldlM {lines : List Line} {state : State}
    (steps : lines.foldlM (State.step declaring) .initial = .ok state) (ready : state.Ready) :
    ofEntries state.allEntries = .ok ⟨state.allEntries⟩ :=
  ((stateRead_of_foldlM steps).written ready).ofEntries_eq_ok

/-- Physical lines are read as some declarations if and only if those of them that are not blank are
written for these declarations. -/
theorem ofPhysicalLines_eq_ok_iff {lines : List Text} {declarations : Declarations} :
    ofPhysicalLines declaring lines = .ok declarations ↔
      Written declaring (lines.filter fun line => !Text.isBlank line) declarations.entries := by
  have texts : (Line.nonBlank lines).map Line.text = lines.filter fun line => !Text.isBlank line :=
    Line.map_text_nonBlankFrom 0 lines
  rw [ofPhysicalLines, mapError_eq_ok_iff, ofLines, bind_eq_ok_iff]
  simp only [stopAt_eq_ok_iff, run_eq_ok_iff]
  constructor
  · rintro ⟨state, ⟨steps, expected⟩, made⟩
    have ready := State.ready_of_expect_none expected
    rw [ofEntries_eq_ok_of_foldlM steps ready] at made
    rcases Except.ok.inj made with rfl
    have written := (stateRead_of_foldlM steps).written ready
    rwa [texts] at written
  · intro written
    rcases leads_of_written written _ texts with ⟨state, steps, declared⟩
    refine ⟨state, ⟨steps, declared.expect_none⟩, ?_⟩
    rw [declared.allEntries, written.ofEntries_eq_ok]

/-- The lines of a text that are not blank. -/
def contentLines (text : Text) : List Text :=
  (Text.lines text).filter fun line => !Text.isBlank line

/-- A text is read as some declarations if and only if its lines are written for them. -/
theorem ofText_eq_ok_iff {text : Text} {declarations : Declarations} :
    ofText declaring text = .ok declarations ↔
      Written declaring (contentLines text) declarations.entries :=
  ofPhysicalLines_eq_ok_iff

/-- The reader accepts a text if and only if its non-blank lines follow the grammar. -/
theorem exists_ofText_iff_exists_written (declaring : Option Identifier) (text : Text) :
    (∃ declarations, ofText declaring text = .ok declarations) ↔
      ∃ entries, Written declaring ((Text.lines text).filter fun line => !Text.isBlank line)
        entries := by
  constructor
  · rintro ⟨declarations, read⟩
    exact ⟨declarations.entries, ofText_eq_ok_iff.1 read⟩
  · rintro ⟨entries, written⟩
    exact ⟨⟨entries⟩, ofText_eq_ok_iff.2 written⟩

end Declarations

end BundleDecl
