import BundleDecl.Proofs.Declarations.Step
import BundleDecl.Proofs.Entries
import BundleDecl.Proofs.MetadataValue

/-!
# Completeness of the reader

Lines that the grammar allows are read without a failure, and what is read is what they stand for.
The states between two targets, between two dependencies and between two metadata entries are
described by what has been read up to there; every rule of the grammar leads from one such state to
the next one.
-/

namespace BundleDecl

namespace Declarations

variable {declaring : Option Identifier}

/-- Lines of the given texts, whatever their numbers are, lead from a state to a certain state. -/
def Leads (declaring : Option Identifier) (state : State) (texts : List Text)
    (goal : State → Prop) : Prop :=
  ∀ lines : List Line, lines.map Line.text = texts →
    ∃ next, lines.foldlM (State.step declaring) state = .ok next ∧ goal next

namespace Leads

variable {state : State} {goal : State → Prop}

theorem nil (reached : goal state) : Leads declaring state [] goal := by
  intro lines texts
  rw [List.map_eq_nil_iff] at texts
  subst texts
  exact ⟨state, rfl, reached⟩

theorem cons {text : Text} {texts : List Text}
    (step : ∀ number, ∃ next, state.step declaring ⟨number, text⟩ = .ok next ∧
      Leads declaring next texts goal) : Leads declaring state (text :: texts) goal := by
  intro lines split
  rcases List.map_eq_cons_iff.1 split with ⟨⟨number, written⟩, others, rfl, rfl, rfl⟩
  rcases step number with ⟨next, stepped, leads⟩
  rcases leads others rfl with ⟨final, others, reached⟩
  refine ⟨final, ?_, reached⟩
  rw [List.foldlM_cons, bind_eq_ok_iff]
  exact ⟨next, stepped, others⟩

theorem append {texts others : List Text} {middle : State → Prop}
    (first : Leads declaring state texts middle)
    (second : ∀ next, middle next → Leads declaring next others goal) :
    Leads declaring state (texts ++ others) goal := by
  intro lines split
  rcases List.map_eq_append_iff.1 split with ⟨left, right, rfl, leftTexts, rightTexts⟩
  rcases first left leftTexts with ⟨next, read, between⟩
  rcases second next between right rightTexts with ⟨final, others, reached⟩
  refine ⟨final, ?_, reached⟩
  rw [List.foldlM_append, bind_eq_ok_iff]
  exact ⟨next, read, others⟩

theorem weaken {texts : List Text} {other : State → Prop} (leads : Leads declaring state texts goal)
    (implies : ∀ next, goal next → other next) : Leads declaring state texts other := by
  intro lines split
  rcases leads lines split with ⟨next, read, reached⟩
  exact ⟨next, read, implies next reached⟩

/-- Pieces that lead one by one from what has been read to one item more lead on all together, as
long as what has been read stays allowed. -/
theorem sequence {Item : Type} {piece : List Text → Item → Prop} (allowed : List Item → Prop)
    {reached : List Item → State → Prop}
    (prefixes : ∀ before after, allowed (before ++ after) → allowed before)
    (each : ∀ before lines item state, allowed (before ++ [item]) → piece lines item →
      reached before state → Leads declaring state lines (reached (before ++ [item])))
    {lines : List Text} {items : List Item} (pieces : Sequence piece lines items)
    (before : List Item) (all : allowed (before ++ items)) (start : reached before state) :
    Leads declaring state lines (reached (before ++ items)) := by
  induction pieces generalizing before state with
  | nil => exact nil (by rwa [List.append_nil])
  | @cons lines rest item items first others ih =>
      rw [List.append_cons] at all
      have leads := each before lines item state (prefixes _ _ all) first start
      refine leads.append fun next between => ?_
      rw [List.append_cons]
      exact ih _ all between

end Leads

/-! ## Metadata entries -/

theorem takeValue_takeValue_unclosed (block : Block) (indentation name content : Text)
    (number next : Nat) (start : MetadataValue.Start) :
    (block.takeValue indentation name number (.unclosed content)).takeValue indentation name next
      start = block.takeValue indentation name next start := by
  cases start <;> rfl

section

variable {entries : List (Identifier × DependencyList)} {block : Block} {indentation name : Text}

/-- A quoted value is complete after its last line. -/
theorem leads_of_quotedLines {line value content : Text} {lines : List Text} {number : Nat}
    (quoted : MetadataValue.QuotedLines (line :: lines) value) :
    Leads declaring
      ⟨entries, .inside (block.takeValue indentation name number
        (MetadataValue.extend content line))⟩ lines
      (· = ⟨entries, .inside (block.addMetadata indentation name (content ++ value))⟩) := by
  generalize written : line :: lines = all at quoted
  induction quoted generalizing content line lines number with
  | last closes =>
      rcases List.cons.inj written with ⟨rfl, rfl⟩
      rw [MetadataValue.extend_of_closes closes]
      exact Leads.nil rfl
  | @more first value others goesOn quoted ih =>
      rcases List.cons.inj written with ⟨rfl, rfl⟩
      rw [MetadataValue.extend_of_not_closes goesOn]
      cases lines with
      | nil => nomatch quoted
      | cons next others =>
          refine Leads.cons fun number => ⟨_, step_eq_ok_of_openValue rfl, ?_⟩
          have leads :=
            @ih next (content ++ MetadataValue.openLine line ++ ['\n']) others number rfl
          rw [takeValue_takeValue_unclosed]
          simpa only [List.append_assoc, List.singleton_append] using leads

theorem leads_of_valueLines {tail value : Text} {lines : List Text} {number : Nat}
    (written : MetadataValue.ValueLines (tail :: lines) value) :
    Leads declaring
      ⟨entries, .inside (block.takeValue indentation name number (MetadataValue.start tail))⟩ lines
      (· = ⟨entries, .inside (block.addMetadata indentation name value)⟩) := by
  cases written with
  | plain plain =>
      rw [MetadataValue.start_of_not_quote plain]
      exact Leads.nil rfl
  | quoted blank quoted =>
      rw [MetadataValue.start_of_quote blank]
      exact leads_of_quotedLines quoted

/-- The lines of a metadata entry add it to the dependency. -/
theorem leads_of_entryLines {value : Text} {lines : List Text}
    (written : EntryLines indentation lines (name, value)) (awaits : block.Awaits indentation)
    (fresh : name ∉ block.current.metadata.map Prod.fst) :
    Leads declaring ⟨entries, .inside block⟩ lines
      (· = ⟨entries, .inside (block.addMetadata indentation name value)⟩) := by
  cases written with
  | intro metadataLine valueLines =>
      refine Leads.cons fun number =>
        ⟨_, step_eq_ok_of_metadataLine awaits metadataLine fresh, ?_⟩
      exact leads_of_valueLines valueLines

end

/-! ## Dependencies -/

/-- A dependency may end at the position. -/
def Position.Within (indentation : Text) (position : Position) : Prop :=
  match position with
  | .kindLine => True
  | .metadata deeper => Deepens indentation deeper ∧ Text.isBlank deeper = true
  | .openValue _ _ _ _ => False

/-- The given dependencies of a target have been read. -/
def Between (entries : List (Identifier × DependencyList)) (target : Identifier)
    (indentation : Text) (dependencies : List Dependency) (state : State) : Prop :=
  Text.isBlank indentation = true ∧ ∃ complete current position,
    complete ++ [current] = dependencies ∧ position.Within indentation ∧
    state = ⟨entries, .inside ⟨target, indentation, complete, current, position⟩⟩

section

variable {entries : List (Identifier × DependencyList)} {target : Identifier}
  {indentation : Text} {complete : List Dependency}

theorem Position.Within.settled {current : Dependency} {position : Position}
    (within : position.Within indentation) :
    (Block.mk target indentation complete current position).Settled := by
  cases position with
  | kindLine => trivial
  | metadata deeper => trivial
  | openValue deeper name content line => exact False.elim within

theorem Position.Within.indented {current : Dependency} {position : Position}
    (within : position.Within indentation) (nonempty : indentation ≠ [])
    (blank : Text.isBlank indentation = true) :
    (Block.mk target indentation complete current position).Indented := by
  refine ⟨nonempty, blank, ?_⟩
  rintro deeper rfl
  exact within

/-- The block with other metadata of its current dependency. -/
def Block.collect (block : Block) (metadata : List (Text × Text)) (position : Position) : Block :=
  { block with current := { block.current with metadata := metadata }, position := position }

/-- The given metadata of a dependency have been read, and more may follow. -/
def Collected (entries : List (Identifier × DependencyList)) (block : Block) (deeper : Text)
    (metadata : List (Text × Text)) (state : State) : Prop :=
  ∃ position, position.Within block.indentation ∧ (block.collect metadata position).Awaits deeper ∧
    state = ⟨entries, .inside (block.collect metadata position)⟩

/-- The metadata lines after a kind line complete its dependency. -/
theorem leads_of_entries {block : Block} {lines : List Text} {deeper : Text}
    {metadata : List (Text × Text)} (blank : Text.isBlank block.indentation = true)
    (position : block.position = .kindLine)
    (empty : block.current.metadata = []) (deepens : Deepens block.indentation deeper)
    (written : Sequence (EntryLines deeper) lines metadata)
    (distinct : (metadata.map Prod.fst).Nodup) :
    Leads declaring ⟨entries, .inside block⟩ lines (Between entries block.target block.indentation
      (block.complete ++ [{ block.current with metadata := metadata }])) := by
  have each (before : List (Text × Text)) (lines : List Text) (entry : Text × Text) (state : State)
      (allowed : ((before ++ [entry]).map Prod.fst).Nodup)
      (entryLines : EntryLines deeper lines entry)
      (collected : Collected entries block deeper before state) :
      Leads declaring state lines (Collected entries block deeper (before ++ [entry])) := by
    rcases collected with ⟨position, within, awaits, rfl⟩
    have blank : Text.isBlank deeper = true := by
      rcases entryLines with ⟨metadataLine, _⟩
      exact metadataLine.indented ▸ Text.isBlank_indentation _
    refine (leads_of_entryLines entryLines awaits (Entries.nodup_concat_iff.1 allowed).2).weaken ?_
    rintro next rfl
    exact ⟨.metadata deeper, ⟨deepens, blank⟩, rfl, rfl⟩
  have start : Collected entries block deeper [] ⟨entries, .inside block⟩ := by
    refine ⟨.kindLine, trivial, deepens, ?_⟩
    rw [Block.collect, ← position, ← empty]
  have leads := Leads.sequence (fun metadata => (metadata.map Prod.fst).Nodup)
    (fun _ _ => Entries.nodup_of_append) each written [] distinct start
  refine leads.weaken ?_
  rintro next ⟨position, within, awaits, rfl⟩
  exact ⟨blank, _, _, position, rfl, within, rfl⟩

/-- The lines of a further dependency add it to the target. -/
theorem leads_of_dependencyLines {lines : List Text} {dependencies : List Dependency}
    {dependency : Dependency} {state : State}
    (between : Between entries target indentation dependencies state) (nonempty : indentation ≠ [])
    (written : DependencyLines (thisVersion declaring target) indentation lines dependency) :
    Leads declaring state lines
      (Between entries target indentation (dependencies ++ [dependency])) := by
  rcases between with ⟨blank, complete, current, position, rfl, within, rfl⟩
  cases written with
  | intro kindLine deepens written distinct =>
      refine Leads.cons fun number =>
        ⟨_, Step.step_eq_ok (.nextKind within.settled kindLine) ?_, ?_⟩
      · rintro block ⟨⟩
        exact within.indented nonempty blank
      · exact leads_of_entries blank rfl rfl deepens written distinct

/-- The lines of the dependencies of a target lead to the end of the target. -/
theorem leads_of_dependencies {lines : List Text} {dependencies : List Dependency} {number : Nat}
    (nonempty : indentation ≠ []) (some : dependencies ≠ [])
    (written : Sequence (DependencyLines (thisVersion declaring target) indentation) lines
      dependencies) :
    Leads declaring ⟨entries, .announced target number⟩ lines
      (Between entries target indentation dependencies) := by
  cases written with
  | nil => contradiction
  | @cons lines rest dependency dependencies first others =>
      have leads : Leads declaring ⟨entries, .announced target number⟩ lines
          (Between entries target indentation [dependency]) := by
        cases first with
        | intro kindLine deepens written distinct =>
            refine Leads.cons fun number =>
              ⟨_, Step.step_eq_ok (.firstKind nonempty kindLine) ?_, ?_⟩
            · rintro block ⟨⟩
            · have blank : Text.isBlank indentation = true :=
                kindLine.indented ▸ Text.isBlank_indentation _
              exact leads_of_entries blank rfl rfl deepens written distinct
      refine leads.append fun next between => ?_
      exact Leads.sequence (fun _ => True) (fun _ _ _ => trivial)
        (fun _ _ _ _ _ written between => leads_of_dependencyLines between nonempty written)
        others _ trivial between

end

/-! ## Targets -/

/-- The given targets have been read, and another one may follow. -/
structure Declared (entries : List (Identifier × DependencyList)) (state : State) : Prop where
  ready : state.Ready
  indented : state.Indented
  allEntries : state.allEntries = entries

/-- The lines of a target add it to the declarations. -/
theorem leads_of_targetLines {entries : List (Identifier × DependencyList)} {lines : List Text}
    {entry : Identifier × DependencyList} {state : State} (declared : Declared entries state)
    (fresh : entry.1 ∉ entries.map Prod.fst) (written : TargetLines declaring lines entry) :
    Leads declaring state lines (Declared (entries ++ [entry])) := by
  rcases declared with ⟨ready, indented, rfl⟩
  cases written with
  | intro targetLine nonempty some written =>
      refine Leads.cons fun number =>
        ⟨_, Step.step_eq_ok (.target ready targetLine fresh) indented, ?_⟩
      refine (leads_of_dependencies nonempty some written).weaken ?_
      rintro next ⟨blank, complete, current, position, rfl, within, rfl⟩
      refine ⟨within.settled, ?_, rfl⟩
      rintro block ⟨⟩
      exact within.indented nonempty blank

/-- The lines of declarations are read without a failure. -/
theorem leads_of_written {lines : List Text} {entries : List (Identifier × DependencyList)}
    (written : Written declaring lines entries) :
    Leads declaring .initial lines (Declared entries) := by
  have start : Declared [] .initial := by
    refine ⟨trivial, ?_, rfl⟩
    rintro block ⟨⟩
  refine Leads.sequence (fun entries => (entries.map Prod.fst).Nodup)
    (fun _ _ => Entries.nodup_of_append) ?_ written.blocks [] written.distinct start
  intro before lines entry state allowed targetLines declared
  exact leads_of_targetLines declared (Entries.nodup_concat_iff.1 allowed).2 targetLines

/-- Nothing is missing after the lines of a target. -/
theorem Declared.expect_none {entries : List (Identifier × DependencyList)} {state : State}
    (declared : Declared entries state) : state.expect none = .ok () := by
  rcases state with ⟨complete, place⟩
  have ready := declared.ready
  cases place with
  | outside => rfl
  | announced target number => exact False.elim ready
  | inside block =>
      rcases block with ⟨target, indentation, complete, current, position⟩
      cases position with
      | kindLine => rfl
      | metadata deeper => rfl
      | openValue deeper name content line => exact False.elim ready

end Declarations

end BundleDecl
