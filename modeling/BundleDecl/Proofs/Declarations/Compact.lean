import BundleDecl.Proofs.Declarations.Location

/-!
# Blank lines

Lines are read as they are without the blank ones among them, wherever these stand, also inside a
quoted value. What is reported for a line is reported for the same line then; only the number of the
line differs, which counts the blank lines in front of it.

The reader looks at the numbers of lines nowhere. So if all lines are given other numbers, it goes
through the same states, in which the other numbers stand.
-/

namespace BundleDecl

namespace Line

/-- The line under another number. -/
def renumber (change : Nat → Nat) (line : Line) : Line :=
  { line with number := change line.number }

/-- Lines without a blank one among them are numbered one by one. -/
theorem nonBlankFrom_of_content {lines : List Text}
    (content : ∀ line ∈ lines, Text.isBlank line = false) (seen : Nat) :
    nonBlankFrom seen lines = lines.mapIdx fun index text => ⟨seen + index + 1, text⟩ := by
  induction lines generalizing seen with
  | nil => rfl
  | cons text lines ih =>
      rw [List.forall_mem_cons] at content
      rw [nonBlankFrom, if_neg (by simp [content.1]), ih content.2, List.mapIdx_cons]
      simp only [Nat.add_zero, Nat.add_assoc, Nat.add_comm 1]

/-- Without the blank lines the same texts are numbered one by one. -/
theorem nonBlank_compact (lines : List Text) :
    nonBlank (Text.compact lines) =
      (nonBlank lines).mapIdx fun index line => ⟨index + 1, line.text⟩ := by
  have content : ∀ line ∈ Text.compact lines, Text.isBlank line = false := by
    intro line member
    simpa using (List.mem_filter.1 member).2
  have texts : Text.compact lines = (nonBlank lines).map text :=
    (map_text_nonBlankFrom 0 lines).symm
  rw [nonBlank, nonBlankFrom_of_content content 0, texts]
  apply List.ext_getElem
  · simp
  · simp

/-- The number of the line that stands at the given place among those that are not blank. -/
def original (lines : List Text) (place : Nat) : Nat :=
  ((nonBlank lines)[place - 1]?.map number).getD 0

theorem map_renumber_original (lines : List Text) :
    (nonBlank (Text.compact lines)).map (renumber (original lines)) = nonBlank lines := by
  rw [nonBlank_compact]
  apply List.ext_getElem
  · simp
  · intro index _ inRange
    simp [renumber, original, inRange]

/-- A line that is left without the blank lines stands behind the blank ones in front of it, too. -/
theorem exists_split_of_mem_compact {lines : List Text} {line : Line}
    (member : line ∈ nonBlank (Text.compact lines)) :
    ∃ before after, lines = before ++ line.text :: after ∧ Text.isBlank line.text = false ∧
      original lines line.number = before.length + 1 ∧
      line.number = (Text.compact before).length + 1 := by
  rw [nonBlank_compact, List.mem_mapIdx] at member
  rcases member with ⟨index, inRange, rfl⟩
  have split : nonBlankFrom 0 lines =
      (nonBlank lines).take index ++ (nonBlank lines)[index] :: (nonBlank lines).drop (index + 1) :=
    by rw [List.getElem_cons_drop, List.take_append_drop, nonBlank]
  rcases exists_split_of_nonBlankFrom split with ⟨before, after, whole, content, number, same⟩
  have texts : (Text.compact before).length = index := by
    rw [Text.compact, ← map_text_nonBlankFrom 0, same, List.length_map, List.length_take]
    omega
  refine ⟨before, after, whole, content, ?_, ?_⟩
  · simp [original, inRange, number]
  · rw [texts]

end Line

namespace Declarations

variable {declaring : Option Identifier} {state next : State} {line : Line} {cause : Cause}

/-! ## Other numbers -/

/-- The place among the lines of a dependency, under other numbers. -/
def Position.renumber (change : Nat → Nat) : Position → Position
  | .kindLine => .kindLine
  | .metadata indentation => .metadata indentation
  | .openValue indentation name content line => .openValue indentation name content (change line)

/-- The block under other numbers. -/
def Block.renumber (change : Nat → Nat) (block : Block) : Block :=
  { block with position := block.position.renumber change }

/-- What was read last, under other numbers. -/
def Place.renumber (change : Nat → Nat) : Place → Place
  | .outside => .outside
  | .announced target line => .announced target (change line)
  | .inside block => .inside (block.renumber change)

/-- The state under other numbers. -/
def State.renumber (change : Nat → Nat) (state : State) : State :=
  { state with place := state.place.renumber change }

namespace Block

variable {block : Block} {change : Nat → Nat}

theorem settled_renumber (settled : block.Settled) : (block.renumber change).Settled := by
  rcases block with ⟨target, own, complete, current, position⟩
  cases position with
  | kindLine => trivial
  | metadata known => trivial
  | openValue known name content number => exact False.elim settled

theorem awaits_renumber {indentation : Text} (awaits : block.Awaits indentation) :
    (block.renumber change).Awaits indentation := by
  rcases block with ⟨target, own, complete, current, position⟩
  cases position with
  | kindLine => exact awaits
  | metadata known => exact awaits
  | openValue known name content number => exact False.elim awaits

theorem metadataIndentation?_renumber (line : Text) :
    (block.renumber change).metadataIndentation? line = block.metadataIndentation? line := by
  rcases block with ⟨target, own, complete, current, position⟩
  cases position <;> rfl

theorem renumber_takeValue {indentation name : Text} {number : Nat} (start : MetadataValue.Start) :
    (block.takeValue indentation name number start).renumber change =
      (block.renumber change).takeValue indentation name (change number) start := by
  cases start <;> rfl

end Block

theorem State.ready_renumber {change : Nat → Nat} (ready : state.Ready) :
    (state.renumber change).Ready := by
  rcases state with ⟨entries, place⟩
  cases place with
  | outside => trivial
  | announced target number => exact False.elim ready
  | inside block => exact Block.settled_renumber ready

theorem State.allEntries_renumber (change : Nat → Nat) :
    (state.renumber change).allEntries = state.allEntries := by
  rcases state with ⟨entries, place⟩
  cases place <;> rfl

theorem State.leftBy_renumber {change : Nat → Nat} {text : Text} (left : state.LeftBy text) :
    (state.renumber change).LeftBy text := by
  rcases state with ⟨entries, place⟩
  cases place with
  | outside => trivial
  | announced target number => exact False.elim left
  | inside block =>
      rcases left with ⟨settled, noMetadata, noKind⟩
      exact ⟨Block.settled_renumber settled,
        (Block.metadataIndentation?_renumber text).trans noMetadata, noKind⟩

/-- Under other numbers the same steps are taken. -/
theorem Step.renumber (step : Step declaring state line next) (change : Nat → Nat) :
    Step declaring (state.renumber change) (line.renumber change) (next.renumber change) := by
  cases step with
  | target ready targetLine fresh =>
      rw [← State.allEntries_renumber change] at fresh ⊢
      exact .target (State.ready_renumber ready) targetLine fresh
  | firstKind nonempty kindLine => exact .firstKind nonempty kindLine
  | @nextKind entries block _ _ _ settled kindLine =>
      have settled : (block.renumber change).Settled := Block.settled_renumber settled
      exact .nextKind settled kindLine
  | metadata awaits metadataLine fresh =>
      simp only [State.renumber, Place.renumber, Block.renumber_takeValue]
      exact .metadata (Block.awaits_renumber awaits) metadataLine fresh
  | value position =>
      simp only [State.renumber, Place.renumber, Block.renumber_takeValue]
      exact .value (by rw [Block.renumber, position]; rfl)

/-- Under other numbers lines have the same faults. -/
theorem LineFault.renumber {text : Text} (fault : LineFault declaring state text cause)
    (change : Nat → Nat) : LineFault declaring (state.renumber change) text cause := by
  cases fault with
  | target left fault =>
      rw [← State.allEntries_renumber change] at fault
      exact .target (State.leftBy_renumber left) fault
  | firstKind indented fault => exact .firstKind indented fault
  | @kindIndentation entries block _ settled noMetadata initial differs =>
      have settled : (block.renumber change).Settled := Block.settled_renumber settled
      exact .kindIndentation settled
        ((Block.metadataIndentation?_renumber text).trans noMetadata) initial differs
  | @nextKind entries block _ _ settled same fault =>
      have settled : (block.renumber change).Settled := Block.settled_renumber settled
      exact .nextKind settled same fault
  | @metadataIndentation entries block _ _ settled found differs =>
      have settled : (block.renumber change).Settled := Block.settled_renumber settled
      exact .metadataIndentation settled
        ((Block.metadataIndentation?_renumber text).trans found) differs
  | @metadata entries block _ _ awaits fault =>
      have awaits : (block.renumber change).Awaits (Text.indentation text) :=
        Block.awaits_renumber awaits
      exact .metadata awaits fault

/-- Under other numbers the same is missing. -/
theorem Missing.renumber {following : Option Line} {number : Nat}
    (missing : Missing state following number cause) (change : Nat → Nat) :
    Missing (state.renumber change) (following.map (Line.renumber change)) (change number)
      cause := by
  cases missing with
  | description flush =>
      refine .description ?_
      intro line found
      rcases Option.map_eq_some_iff.1 found with ⟨original, member, rfl⟩
      exact flush original member
  | quote position => exact .quote (by rw [Block.renumber, position]; rfl)

/-- Under other numbers all lines are read as before. -/
theorem foldlM_renumber {lines : List Line}
    (steps : lines.foldlM (State.step declaring) .initial = .ok state) (change : Nat → Nat) :
    (lines.map (Line.renumber change)).foldlM (State.step declaring) .initial =
      .ok (state.renumber change) := by
  induction lines using List.reverseRecOn generalizing state with
  | nil =>
      rcases Except.ok.inj steps with rfl
      rfl
  | append_singleton lines line ih =>
      rcases foldlM_step_concat.1 steps with ⟨before, earlier, step⟩
      have earlier := ih earlier
      rw [List.map_append, List.map_singleton, foldlM_step_concat]
      exact ⟨_, earlier, ((Step.of_step step).renumber change).step_eq_ok
        (nested_of_foldlM earlier).indented⟩

/-- Under other numbers the same line is refused for the same cause. -/
theorem Refused.renumber {lines : List Line} (refused : Refused declaring lines line cause)
    (change : Nat → Nat) :
    Refused declaring (lines.map (Line.renumber change)) (line.renumber change) cause := by
  cases refused with
  | fault split steps fault =>
      have split := congrArg (List.map (Line.renumber change)) split
      rw [List.map_append, List.map_cons] at split
      exact .fault split (foldlM_renumber steps change) (fault.renumber change)
  | missing split steps missing =>
      have split := congrArg (List.map (Line.renumber change)) split
      have steps := foldlM_renumber steps change
      have missing := missing.renumber change
      rw [List.map_append, List.map_cons] at split
      rw [List.map_append, List.map_singleton] at steps
      rw [← List.head?_map] at missing
      exact .missing split steps missing

/-! ## Without blank lines -/

/-- Blank lines do not matter: with and without them the same declarations are read, or the same
line is refused for the same cause, under its number among the lines that were given. -/
theorem ofPhysicalLines_compact (declaring : Option Identifier) (lines : List Text) :
    (∃ declarations, ofPhysicalLines declaring lines = .ok declarations ∧
      ofPhysicalLines declaring (Text.compact lines) = .ok declarations) ∨
    ∃ before line after cause, lines = before ++ line :: after ∧ Text.isBlank line = false ∧
      ofPhysicalLines declaring lines =
        .error ⟨cause, some ((before.length + 1 : Nat) : Int)⟩ ∧
      ofPhysicalLines declaring (Text.compact lines) =
        .error ⟨cause, some (((Text.compact before).length + 1 : Nat) : Int)⟩ := by
  rcases outcome : ofPhysicalLines declaring (Text.compact lines) with failure | declarations
  · right
    rcases ofPhysicalLines_eq_error_iff.1 outcome with ⟨line, cause, refused, rfl⟩
    have original := refused.renumber (Line.original lines)
    rw [Line.map_renumber_original] at original
    rcases Line.exists_split_of_mem_compact refused.mem with
      ⟨before, after, split, content, place, number⟩
    refine ⟨before, line.text, after, cause, split, content, ?_, ?_⟩
    · rw [ofPhysicalLines_eq_error_iff]
      refine ⟨_, cause, original, ?_⟩
      rw [Line.renumber, place]
    · rw [number]
  · left
    refine ⟨declarations, ?_, rfl⟩
    rw [ofPhysicalLines_eq_ok_iff] at outcome ⊢
    simpa only [Text.compact, List.filter_filter, Bool.and_self] using outcome

end Declarations

end BundleDecl
