import BundleDecl.Proofs.Declarations.Refusal
import BundleDecl.Proofs.Dependency.Builder

/-!
# Locations of failures

Whatever the reader refuses it refuses at a line that is not blank, for one of the causes that lines
have. What it makes of the lines, the parts of dependencies and the declarations as a whole, is
never refused: it has been checked before, line by line.
-/

namespace BundleDecl

namespace Declarations

variable {declaring : Option Identifier}

/-! ## Lines -/

/-- The classes of the failures of the reader. -/
def readerClasses : List FailureClass :=
  [.format, .unterminated, .structural, .ambiguousVersion]

theorem TargetFault.failureClass_mem {entries : List (Identifier × DependencyList)} {line : Text}
    {cause : Cause} (fault : TargetFault entries line cause) :
    cause.failureClass ∈ readerClasses := by
  cases fault with
  | indented indented => simp [readerClasses, Cause.failureClass]
  | identifier flush refused =>
      have known : [FailureClass.format, .ambiguousVersion] ⊆ readerClasses := by
        simp [readerClasses]
      exact known (Identifier.refuses_of_ofText refused).2
  | versioned flush named versioned => simp [readerClasses, Cause.failureClass]
  | repeated targetLine known => simp [readerClasses, Cause.failureClass]

theorem KindFault.failureClass_mem {this : Option Text} {line : Text} {cause : Cause}
    (fault : KindFault this line cause) : cause.failureClass ∈ readerClasses := by
  cases fault with
  | noColon noColon => simp [readerClasses, Cause.failureClass]
  | range split noColon refused => simp [readerClasses, Cause.failureClass]
  | noKind split noColon ranged noKind => simp [readerClasses, Cause.failureClass]
  | kind split noColon ranged kinds passed failed =>
      have known : [FailureClass.format, .structural] ⊆ readerClasses := by
        simp [readerClasses]
      exact known (Dependency.refused_of_checkKind failed).2

theorem MetadataFault.failureClass_mem {known : List (Text × Text)} {line : Text} {cause : Cause}
    (fault : MetadataFault known line cause) : cause.failureClass ∈ readerClasses := by
  cases fault <;> simp [readerClasses, Cause.failureClass]

theorem Missing.failureClass_mem {state : State} {next : Option Line} {number : Nat} {cause : Cause}
    (missing : Missing state next number cause) : cause.failureClass ∈ readerClasses := by
  cases missing <;> simp [readerClasses, Cause.failureClass]

theorem Refused.failureClass_mem {lines : List Line} {line : Line} {cause : Cause}
    (refused : Refused declaring lines line cause) : cause.failureClass ∈ readerClasses := by
  cases refused with
  | fault split steps fault =>
      cases fault with
      | target left fault => exact fault.failureClass_mem
      | firstKind nonempty fault => exact fault.failureClass_mem
      | kindIndentation settled noMetadata initial differs =>
          simp [readerClasses, Cause.failureClass]
      | nextKind settled same fault => exact fault.failureClass_mem
      | metadataIndentation settled found differs => simp [readerClasses, Cause.failureClass]
      | metadata awaits fault => exact fault.failureClass_mem
  | missing split steps missing => exact missing.failureClass_mem

theorem Refused.mem {lines : List Line} {line : Line} {cause : Cause}
    (refused : Refused declaring lines line cause) : line ∈ lines := by
  cases refused with
  | fault split steps fault => simp [← split]
  | missing split steps missing => simp [← split]

/-- A line of a text that is not blank. -/
structure Designates (text : Text) (line : Line) : Prop where
  first : 1 ≤ line.number
  last : line.number ≤ (Text.lines text).length
  stands : (Text.lines text)[line.number - 1]? = some line.text
  notBlank : Text.isBlank line.text = false

theorem designates_of_mem {text : Text} {line : Line}
    (member : line ∈ Line.nonBlank (Text.lines text)) : Designates text line := by
  rcases Line.exists_split_of_mem_nonBlankFrom member with ⟨content, before, after, split, number⟩
  rw [Nat.zero_add] at number
  refine ⟨?_, ?_, ?_, content⟩
  · omega
  · rw [← split, List.length_append, List.length_cons]
    omega
  · rw [← split, number]
    simp

/-! ## What is made of the lines -/

/-- The dependencies of the block that is being read can be built from the parts on its kind lines
and metadata lines. -/
def State.Assembled (declaring : Option Identifier) (lines : List Text) (state : State) : Prop :=
  ∀ block, state.place = .inside block → ∀ dependency ∈ block.complete ++ [block.current],
    ∃ line ∈ lines, ∃ kinds,
      KindLine (thisVersion declaring block.target) block.indentation line kinds dependency.range ∧
      Builder.assemble dependency.range kinds dependency.metadata = .ok dependency

theorem checkMetadataName_of_entryLines {deeper : Text} {lines : List Text}
    {metadata : List (Text × Text)} (written : Sequence (EntryLines deeper) lines metadata) :
    ∀ name ∈ metadata.map Prod.fst, Dependency.checkMetadataName name = .ok () := by
  intro name member
  rcases List.mem_map.1 member with ⟨entry, entryMem, rfl⟩
  rcases written.exists_of_mem entryMem with ⟨part, entryLines, subset⟩
  cases entryLines with
  | intro metadataLine valueLines =>
      exact Dependency.checkMetadataName_eq_ok_iff.2
        ⟨metadataLine.isName, metadataLine.notReserved⟩

theorem MetadataRead.checkMetadataName {indentation : Text} {lines : List Text}
    {metadata : List (Text × Text)} {position : Position}
    (read : MetadataRead indentation lines metadata position) :
    ∀ name ∈ metadata.map Prod.fst, Dependency.checkMetadataName name = .ok () := by
  cases read with
  | kindLine => exact nofun
  | metadata deepens written => exact checkMetadataName_of_entryLines written
  | openValue deepens written fresh opens => exact checkMetadataName_of_entryLines written

/-- The parts on a kind line and of metadata entries with its indentation make a dependency. -/
theorem KindLine.assemble_eq_ok {this : Option Text} {indentation line : Text} {kinds : List Text}
    {range : Range} (kindLine : KindLine this indentation line kinds range)
    {metadata : List (Text × Text)}
    (named : ∀ name ∈ metadata.map Prod.fst, Dependency.checkMetadataName name = .ok ())
    (distinct : (metadata.map Prod.fst).Nodup) :
    Builder.assemble range kinds metadata = .ok ⟨SortedSet.ofList kinds, range, metadata⟩ := by
  apply Builder.assemble_eq_ok kindLine.nonempty _ named distinct
  intro kind member
  exact Dependency.checkKind_eq_ok_iff.2
    ⟨kindLine.isKind kind member, kindLine.notReserved kind member⟩

theorem BlockRead.assembled {this : Option Text} {block : Block} {lines : List Text}
    (read : BlockRead this block lines) {dependency : Dependency}
    (member : dependency ∈ block.complete ++ [block.current]) :
    ∃ line ∈ lines, ∃ kinds,
      KindLine this block.indentation line kinds dependency.range ∧
      Builder.assemble dependency.range kinds dependency.metadata = .ok dependency := by
  rcases read with @⟨_, more, read, metadata, distinct⟩
  rcases read with @⟨lines, line, kinds, range, nonempty, complete, kindLine, sameKinds, sameRange⟩
  rcases List.mem_append.1 member with member | member
  · rcases complete.exists_of_mem member with ⟨part, written, subset⟩
    cases written with
    | @intro line _ rest kinds _ _ kindLine deepens written distinct =>
        refine ⟨line, ?_, kinds, kindLine, ?_⟩
        · simp [subset List.mem_cons_self]
        · exact kindLine.assemble_eq_ok (checkMetadataName_of_entryLines written) distinct
  · rcases List.mem_singleton.1 member with rfl
    rcases sameRange with rfl
    refine ⟨line, by simp, kinds, kindLine, ?_⟩
    rw [kindLine.assemble_eq_ok metadata.checkMetadataName distinct, ← sameKinds]

theorem assembled_of_foldlM {lines : List Line} {state : State}
    (steps : lines.foldlM (State.step declaring) .initial = .ok state) :
    state.Assembled declaring (lines.map Line.text) := by
  intro block inside dependency member
  have read := stateRead_of_foldlM steps
  generalize lines.map Line.text = texts at read
  cases read with
  | outside => contradiction
  | announced written targetLine fresh => contradiction
  | inside written targetLine fresh same read =>
      rcases Place.inside.inj inside with rfl
      rcases same with rfl
      rcases read.assembled member with ⟨line, lineMem, built⟩
      exact ⟨line, by simp [lineMem], built⟩

/-! ## Texts -/

/-- Where no host sets limits, a text is read or it is refused at one of its lines that is not
blank. The causes are those that lines have; those of an identifier or a kind are the ones for which
it is refused on its own, only the line is added. Neither the parts of a dependency nor the complete
targets are ever refused later. -/
theorem ofText_eq_ok_or_error (declaring : Option Identifier) (text : Text) :
    ((∃ declarations, ofText declaring text = .ok declarations) ∨
      ∃ line cause, ofText declaring text = .error ⟨cause, some (line.number : Int)⟩ ∧
        Designates text line ∧ cause.failureClass ∈ readerClasses) ∧
    (∀ failure, ofText declaring text = .error failure ↔
      ∃ line cause, Refused declaring (Line.nonBlank (Text.lines text)) line cause ∧
        ⟨cause, some (line.number : Int)⟩ = failure) ∧
    ∀ read unread state, read ++ unread = Line.nonBlank (Text.lines text) →
      read.foldlM (State.step declaring) .initial = .ok state →
      state.Assembled declaring (read.map Line.text) ∧
        (state.Ready → ofEntries state.allEntries = .ok ⟨state.allEntries⟩) := by
  refine ⟨?_, fun failure => ofPhysicalLines_eq_error_iff, ?_⟩
  · cases outcome : ofText declaring text with
    | ok declarations => exact .inl ⟨declarations, rfl⟩
    | error failure =>
        rcases ofPhysicalLines_eq_error_iff.1 outcome with ⟨line, cause, refused, rfl⟩
        exact .inr ⟨line, cause, rfl, designates_of_mem refused.mem, refused.failureClass_mem⟩
  · intro read unread state split steps
    exact ⟨assembled_of_foldlM steps, ofEntries_eq_ok_of_foldlM steps⟩

end Declarations

end BundleDecl
