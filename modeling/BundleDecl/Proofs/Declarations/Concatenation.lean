import BundleDecl.Proofs.Declarations.Refusal
import BundleDecl.Proofs.DependencyList
import BundleDecl.Proofs.Range.RoundTrip
import Mathlib.Data.List.Perm.Basic

/-!
# Lines one after the other

Declarations may be read one after the other or all at once: the reader keeps nothing of a complete
target but its entry. So lines that follow others are read as they are read alone, unless they
declare a target again, and the lines of the targets may stand in any order.
-/

namespace BundleDecl

theorem Sequence.append {Item : Type} {piece : List Text → Item → Prop} {lines others : List Text}
    {items more : List Item} (first : Sequence piece lines items)
    (second : Sequence piece others more) : Sequence piece (lines ++ others) (items ++ more) := by
  induction first with
  | nil => exact second
  | cons own rest ih =>
      rw [List.append_assoc]
      exact .cons own ih

namespace Declarations

variable {declaring : Option Identifier}

/-! ## Targets that have been declared -/

theorem TargetLine.notBlank {line : Text} {target : Identifier}
    (targetLine : TargetLine line target) : Text.isBlank line = false := by
  cases line with
  | nil =>
      have named := targetLine.named
      contradiction
  | cons character line =>
      have flush := targetLine.flush
      rw [Text.indentation, List.takeWhile_cons] at flush
      split at flush
      · contradiction
      · rename_i other
        simp [Text.isBlank, other]

/-- A line names one target. -/
theorem TargetLine.unique {line : Text} {target other : Identifier}
    (targetLine : TargetLine line target) (otherLine : TargetLine line other) : target = other :=
  Except.ok.inj (targetLine.named.symm.trans otherLine.named)

/-- The targets whose lines have been read. -/
def State.targets (state : State) : List Identifier :=
  match state.place with
  | .outside => state.entries.map Prod.fst
  | .announced target _ => state.entries.map Prod.fst ++ [target]
  | .inside block => state.entries.map Prod.fst ++ [block.target]

theorem State.targets_of_ready {state : State} (ready : state.Ready) :
    state.targets = state.allEntries.map Prod.fst := by
  rcases state with ⟨entries, place⟩
  cases place with
  | outside => rfl
  | announced target number => exact False.elim ready
  | inside block => simp [targets, allEntries, Block.entry]

/-- No step forgets a target. -/
theorem Step.targets_grow {state next : State} {line : Line}
    (step : Step declaring state line next) : state.targets <+: next.targets := by
  cases step with
  | target ready targetLine fresh =>
      rw [State.targets_of_ready ready]
      exact List.prefix_append _ _
  | firstKind nonempty kindLine => exact List.prefix_rfl
  | nextKind settled kindLine => exact List.prefix_rfl
  | metadata awaits metadataLine fresh =>
      simp only [State.targets, takeValue_target]
      exact List.prefix_rfl
  | value position =>
      simp only [State.targets, takeValue_target]
      exact List.prefix_rfl

theorem targets_grow_of_foldlM {lines : List Line} {state final : State}
    (steps : lines.foldlM (State.step declaring) state = .ok final) :
    state.targets <+: final.targets := by
  induction lines generalizing state with
  | nil =>
      rcases Except.ok.inj steps with rfl
      exact List.prefix_rfl
  | cons line lines ih =>
      rw [List.foldlM_cons, bind_eq_ok_iff] at steps
      rcases steps with ⟨next, step, steps⟩
      exact (Step.of_step step).targets_grow.trans (ih steps)

/-- After accepted lines another target may follow. -/
theorem exists_declared_of_ofPhysicalLines {lines : List Text} {declarations : Declarations}
    (read : ofPhysicalLines declaring lines = .ok declarations) :
    ∃ state, (Line.nonBlank lines).foldlM (State.step declaring) .initial = .ok state ∧
      Declared declarations.entries state :=
  leads_of_written (ofPhysicalLines_eq_ok_iff.1 read) _ (Line.map_text_nonBlankFrom 0 lines)

/-! ## Blocks of targets -/

/-- Physical lines that declare one target, the first of them being the line of the target. -/
structure TargetBlock (declaring : Option Identifier) (block : List Text)
    (entry : Identifier × DependencyList) : Prop where
  begins : ∃ line rest, block = line :: rest ∧ TargetLine line entry.1
  read : ofPhysicalLines declaring block = .ok ⟨[entry]⟩

/-- Written lines are cut in front of every line of a target; blank lines belong to the block that
they follow. -/
theorem exists_blocks {lines texts : List Text} {entries : List (Identifier × DependencyList)}
    (written : Sequence (TargetLines declaring) texts entries)
    (content : lines.filter (fun line => !Text.isBlank line) = texts) :
    ∃ blanks blocks, lines = blanks ++ blocks.flatten ∧
      (∀ line ∈ blanks, Text.isBlank line = true) ∧
      List.Forall₂ (TargetBlock declaring) blocks entries := by
  induction written generalizing lines with
  | nil =>
      refine ⟨lines, [], by simp, ?_, .nil⟩
      simpa [List.filter_eq_nil_iff] using content
  | cons own rest ih =>
      rcases List.filter_eq_append_iff.1 content with ⟨front, back, rfl, frontTexts, backTexts⟩
      rcases ih backTexts with ⟨blanks, blocks, rfl, blank, following⟩
      cases own with
      | @intro line indentation target more dependencies targetLine nonempty some written =>
          rcases List.filter_eq_cons_iff.1 frontTexts with
            ⟨gap, behind, rfl, gapBlank, lineContent, behindTexts⟩
          -- The blank lines in front of the next block are the last ones of this block.
          refine ⟨gap, (line :: (behind ++ blanks)) :: blocks, by simp, by simpa using gapBlank, ?_⟩
          refine .cons ⟨⟨line, _, rfl, targetLine⟩, ?_⟩ following
          have block := TargetLines.intro targetLine nonempty some written
          rw [ofPhysicalLines_eq_ok_iff, List.filter_cons, if_pos lineContent, List.filter_append,
            behindTexts, Text.filter_content_eq_nil blank]
          exact ⟨Sequence.cons block .nil, List.nodup_singleton _⟩

/-- Blocks of different targets are read one after the other. -/
theorem ofPhysicalLines_eq_ok_of_blocks {blanks : List Text} {blocks : List (List Text)}
    {entries : List (Identifier × DependencyList)}
    (blank : ∀ line ∈ blanks, Text.isBlank line = true)
    (single : List.Forall₂ (TargetBlock declaring) blocks entries)
    (distinct : (entries.map Prod.fst).Nodup) :
    ofPhysicalLines declaring (blanks ++ blocks.flatten) = .ok ⟨entries⟩ := by
  rw [ofPhysicalLines_eq_ok_iff, List.filter_append, Text.filter_content_eq_nil blank,
    List.nil_append]
  refine ⟨?_, distinct⟩
  clear distinct
  induction single with
  | nil => exact .nil
  | cons own others ih =>
      rw [List.flatten_cons, List.filter_append, ← List.singleton_append]
      exact (ofPhysicalLines_eq_ok_iff.1 own.read).blocks.append ih

/-! ## Lines that declare a target -/

/-- A line declares a target in some lines: the given lines in front of it are complete, and it
names the target. -/
structure Declares (declaring : Option Identifier) (lines before : List Text)
    (target : Identifier) : Prop where
  complete : ∃ declarations, ofPhysicalLines declaring before = .ok declarations
  stands : ∃ line after, lines = before ++ line :: after ∧ TargetLine line target

/-- What a line declares depends on the lines in front of it and on itself. -/
theorem Declares.of_append {lines rest before : List Text} {target : Identifier}
    (declares : Declares declaring (lines ++ rest) before target)
    (shorter : before.length < lines.length) : Declares declaring lines before target := by
  rcases declares with ⟨complete, line, after, split, targetLine⟩
  refine ⟨complete, ?_⟩
  rcases List.append_eq_append_iff.1 split with ⟨between, rfl, _⟩ | ⟨between, rfl, later⟩
  · rw [List.length_append] at shorter
    omega
  · cases between with
    | nil => simp at shorter
    | cons own between =>
        rcases List.cons.inj later with ⟨rfl, _⟩
        exact ⟨line, between, rfl, targetLine⟩

/-- What a line of accepted lines declares is among what is read. -/
theorem Declares.mem {lines before : List Text} {declarations : Declarations} {target : Identifier}
    (declares : Declares declaring lines before target)
    (read : ofPhysicalLines declaring lines = .ok declarations) :
    target ∈ declarations.entries.map Prod.fst := by
  rcases declares with ⟨⟨earlier, readBefore⟩, line, after, rfl, targetLine⟩
  rcases exists_declared_of_ofPhysicalLines readBefore with ⟨state, stepsBefore, declared⟩
  rcases exists_declared_of_ofPhysicalLines read with ⟨final, steps, complete⟩
  rw [Line.nonBlank_append_cons _ _ targetLine.notBlank, List.foldlM_append, stepsBefore] at steps
  change List.foldlM _ state _ = _ at steps
  rw [List.foldlM_cons, bind_eq_ok_iff] at steps
  rcases steps with ⟨next, step, steps⟩
  have left := State.leftBy_of_flush declared.ready declared.indented targetLine.flush
  rw [State.step_eq_ok_iff, State.consume_of_leftBy left, readTarget_eq_ok_iff] at step
  rcases step with ⟨expected, other, otherLine, fresh, rfl⟩
  rcases targetLine.unique otherLine with rfl
  have kept := (targets_grow_of_foldlM steps).subset
  rw [State.targets_of_ready complete.ready, complete.allEntries] at kept
  apply kept
  simp [State.targets]

/-- Everything that is read from accepted lines is declared by one of them. -/
theorem exists_declares {lines : List Text} {earlier later : List (Identifier × DependencyList)}
    {entry : Identifier × DependencyList}
    (read : ofPhysicalLines declaring lines = .ok ⟨earlier ++ entry :: later⟩) :
    ∃ before, ofPhysicalLines declaring before = .ok ⟨earlier⟩ ∧
      Declares declaring lines before entry.1 := by
  rcases ofPhysicalLines_eq_ok_iff.1 read with ⟨written, distinct⟩
  rcases exists_blocks written rfl with ⟨blanks, blocks, rfl, blank, single⟩
  have initial := List.forall₂_take_append _ _ _ single
  have final := List.forall₂_drop_append _ _ _ single
  rcases List.forall₂_cons_right_iff.1 final with ⟨block, others, own, _, split⟩
  have readBefore := ofPhysicalLines_eq_ok_of_blocks blank initial
    (Entries.nodup_of_append distinct)
  rcases own.begins with ⟨line, rest, rfl, targetLine⟩
  refine ⟨_, readBefore, ⟨_, readBefore⟩, line, rest ++ others.flatten, ?_, targetLine⟩
  calc
    blanks ++ blocks.flatten
      = blanks ++ (blocks.take earlier.length ++ blocks.drop earlier.length).flatten := by
        rw [List.take_append_drop]
    _ = blanks ++ (blocks.take earlier.length).flatten ++ line :: (rest ++ others.flatten) := by
        rw [List.flatten_append, split, List.flatten_cons, List.cons_append, List.append_assoc]

/-- A target is refused at its line if it has been declared before, whatever follows. -/
theorem ofPhysicalLines_eq_error_of_repeated {before : List Text} {declarations : Declarations}
    {line : Text} {target : Identifier}
    (read : ofPhysicalLines declaring before = .ok declarations)
    (targetLine : TargetLine line target) (known : target ∈ declarations.entries.map Prod.fst)
    (after : List Text) :
    ofPhysicalLines declaring (before ++ line :: after) =
      .error ⟨.repeatedTarget target.toText, some ((before.length + 1 : Nat) : Int)⟩ := by
  rcases exists_declared_of_ofPhysicalLines read with ⟨state, steps, declared⟩
  rw [ofPhysicalLines_eq_error_iff, Line.nonBlank_append_cons _ _ targetLine.notBlank]
  rw [← declared.allEntries] at known
  have left := State.leftBy_of_flush declared.ready declared.indented targetLine.flush
  exact ⟨_, _, .fault rfl steps (.target left (.repeated targetLine known)), rfl⟩

/-! ## Two parts -/

section

variable {first second : List Text} {left right : Declarations}

/-- Lines that declare other targets add their entries. -/
theorem ofPhysicalLines_append_of_disjoint (readFirst : ofPhysicalLines declaring first = .ok left)
    (readSecond : ofPhysicalLines declaring second = .ok right)
    (disjoint : ∀ target ∈ right.entries.map Prod.fst, target ∉ left.entries.map Prod.fst) :
    ofPhysicalLines declaring (first ++ second) = .ok ⟨left.entries ++ right.entries⟩ := by
  rw [ofPhysicalLines_eq_ok_iff] at readFirst readSecond ⊢
  rw [List.filter_append]
  refine ⟨readFirst.blocks.append readSecond.blocks, ?_⟩
  rw [List.map_append, List.nodup_append]
  refine ⟨readFirst.distinct, readSecond.distinct, ?_⟩
  rintro target leftMem _ rightMem rfl
  exact disjoint target rightMem leftMem

/-- Lines that declare a target again are refused at the first line that does so. -/
theorem ofPhysicalLines_append_of_shared (readFirst : ofPhysicalLines declaring first = .ok left)
    (readSecond : ofPhysicalLines declaring second = .ok right)
    (shared : ∃ target ∈ right.entries.map Prod.fst, target ∈ left.entries.map Prod.fst) :
    ∃ before target, Declares declaring second before target ∧
      target ∈ left.entries.map Prod.fst ∧
      (∀ earlier known, Declares declaring second earlier known →
        known ∈ left.entries.map Prod.fst → before.length ≤ earlier.length) ∧
      ofPhysicalLines declaring (first ++ second) =
        .error ⟨.repeatedTarget target.toText,
          some ((first.length + before.length + 1 : Nat) : Int)⟩ := by
  rcases right with ⟨entries⟩
  rcases Entries.exists_first (· ∈ left.entries.map Prod.fst) shared with
    ⟨earlier, entry, later, rfl, known, disjoint⟩
  rcases exists_declares readSecond with ⟨before, readBefore, declares⟩
  have stands := declares.stands
  rcases stands with ⟨line, after, rfl, targetLine⟩
  refine ⟨before, entry.1, declares, known, ?_, ?_⟩
  · -- What an earlier line declares is read from the lines in front of this one.
    intro former target formerDeclares knownBefore
    by_contra shorter
    rw [Nat.not_le] at shorter
    exact disjoint target ((formerDeclares.of_append shorter).mem readBefore) knownBefore
  · have readBoth := ofPhysicalLines_append_of_disjoint readFirst readBefore disjoint
    have knownBoth : entry.1 ∈ (left.entries ++ earlier).map Prod.fst := by
      rw [List.map_append]
      exact List.mem_append_left _ known
    have refused := ofPhysicalLines_eq_error_of_repeated readBoth targetLine knownBoth after
    rwa [List.length_append, List.append_assoc] at refused

end

/-! ## Orders of blocks -/

/-- The entries that are read from blocks one after the other are those of the blocks. -/
theorem entries_eq_of_blocks {blocks : List (List Text)}
    {entries : List (Identifier × DependencyList)}
    (single : List.Forall₂ (TargetBlock declaring) blocks entries) {before : List Text}
    {earlier declarations : Declarations}
    (readBefore : ofPhysicalLines declaring before = .ok earlier)
    (read : ofPhysicalLines declaring (before ++ blocks.flatten) = .ok declarations) :
    declarations.entries = earlier.entries ++ entries := by
  induction single generalizing before earlier with
  | nil =>
      rw [List.flatten_nil, List.append_nil, readBefore] at read
      rcases Except.ok.inj read with rfl
      rw [List.append_nil]
  | @cons block entry blocks entries own others ih =>
      rcases own with ⟨⟨line, rest, rfl, targetLine⟩, readOwn⟩
      by_cases known : entry.1 ∈ earlier.entries.map Prod.fst
      · -- The line of the block would be refused, whatever the later blocks are.
        have refused := ofPhysicalLines_eq_error_of_repeated readBefore targetLine known
          (rest ++ blocks.flatten)
        rw [List.flatten_cons, List.cons_append, refused] at read
        contradiction
      · have readBoth := ofPhysicalLines_append_of_disjoint readBefore readOwn
          (by simpa using known)
        rw [List.flatten_cons, ← List.append_assoc] at read
        rw [ih readBoth read, List.append_assoc, List.singleton_append]

/-- Declarations with the same entries in any order are the same. -/
theorem same_of_perm {left right : Declarations} (perm : left.entries.Perm right.entries)
    (distinct : (right.entries.map Prod.fst).Nodup) : left.same right = true := by
  rw [same, Bool.and_eq_true, beq_iff_eq, List.all_eq_true]
  refine ⟨perm.length_eq, ?_⟩
  rintro ⟨target, list⟩ member
  have found := Entries.get?_of_mem distinct (perm.subset member)
  simp [get?, found, list.same_refl]

/-- The blocks of accepted lines may stand in any order. -/
theorem exists_ofPhysicalLines_of_perm {blanks : List Text} {blocks others : List (List Text)}
    {entries : List (Identifier × DependencyList)} {declarations : Declarations}
    (read : ofPhysicalLines declaring (blanks ++ blocks.flatten) = .ok declarations)
    (blank : ∀ line ∈ blanks, Text.isBlank line = true)
    (single : List.Forall₂ (TargetBlock declaring) blocks entries) (perm : others.Perm blocks) :
    ∃ permuted, ofPhysicalLines declaring (blanks ++ others.flatten) = .ok permuted ∧
      permuted.entries.Perm declarations.entries ∧ permuted.same declarations = true := by
  have readBlanks : ofPhysicalLines declaring blanks = .ok ⟨[]⟩ := by
    simpa using ofPhysicalLines_eq_ok_of_blocks blank .nil List.nodup_nil
  have entriesEq := entries_eq_of_blocks single readBlanks read
  rw [List.nil_append] at entriesEq
  rcases entriesEq with rfl
  have distinct := (ofPhysicalLines_eq_ok_iff.1 read).distinct
  rcases List.perm_comp_forall₂ perm single with ⟨permuted, othersSingle, entriesPerm⟩
  have permutedDistinct := (entriesPerm.map Prod.fst).nodup_iff.2 distinct
  refine ⟨⟨permuted⟩, ofPhysicalLines_eq_ok_of_blocks blank othersSingle permutedDistinct,
    entriesPerm, same_of_perm entriesPerm distinct⟩

/-- Lines one after the other are accepted if and only if they declare different targets, and then
they have the entries of both parts in order; otherwise the first line that declares a target again
is refused. So accepted lines may be cut into the blocks of their targets, and with these blocks in
any other order they are read as the same declarations. -/
theorem ofPhysicalLines_append (declaring : Option Identifier) :
    (∀ first second left right, ofPhysicalLines declaring first = .ok left →
      ofPhysicalLines declaring second = .ok right →
      ((∃ both, ofPhysicalLines declaring (first ++ second) = .ok both) ↔
        ∀ target ∈ right.entries.map Prod.fst, target ∉ left.entries.map Prod.fst) ∧
      (∀ both, ofPhysicalLines declaring (first ++ second) = .ok both →
        both.entries = left.entries ++ right.entries) ∧
      ((∃ target ∈ right.entries.map Prod.fst, target ∈ left.entries.map Prod.fst) →
        ∃ before target, Declares declaring second before target ∧
          target ∈ left.entries.map Prod.fst ∧
          (∀ earlier known, Declares declaring second earlier known →
            known ∈ left.entries.map Prod.fst → before.length ≤ earlier.length) ∧
          ∃ failure, ofPhysicalLines declaring (first ++ second) = .error failure ∧
            failure.cause = .repeatedTarget target.toText ∧
            failure.cause.failureClass = .structural ∧
            failure.line = some ((first.length + before.length + 1 : Nat) : Int))) ∧
    ∀ lines declarations, ofPhysicalLines declaring lines = .ok declarations →
      (∃ blanks blocks, lines = blanks ++ blocks.flatten ∧
        (∀ line ∈ blanks, Text.isBlank line = true) ∧
        List.Forall₂ (TargetBlock declaring) blocks declarations.entries) ∧
      ∀ blanks blocks entries, lines = blanks ++ blocks.flatten →
        (∀ line ∈ blanks, Text.isBlank line = true) →
        List.Forall₂ (TargetBlock declaring) blocks entries →
        ∀ others : List (List Text), others.Perm blocks →
          ∃ permuted, ofPhysicalLines declaring (blanks ++ others.flatten) = .ok permuted ∧
            permuted.entries.Perm declarations.entries ∧ permuted.same declarations = true := by
  constructor
  · intro first second left right readFirst readSecond
    have refused := ofPhysicalLines_append_of_shared readFirst readSecond
    have accepted := ofPhysicalLines_append_of_disjoint readFirst readSecond
    have disjoint {both : Declarations}
        (read : ofPhysicalLines declaring (first ++ second) = .ok both) :
        ∀ target ∈ right.entries.map Prod.fst, target ∉ left.entries.map Prod.fst := by
      intro target member known
      rcases refused ⟨target, member, known⟩ with ⟨_, _, _, _, _, failed⟩
      rw [read] at failed
      contradiction
    refine ⟨⟨?_, fun different => ⟨_, accepted different⟩⟩, ?_, ?_⟩
    · rintro ⟨both, read⟩
      exact disjoint read
    · intro both read
      rw [accepted (disjoint read)] at read
      rcases Except.ok.inj read with rfl
      rfl
    · intro shared
      rcases refused shared with ⟨before, target, declares, known, least, failed⟩
      exact ⟨before, target, declares, known, least, _, failed, rfl, rfl, rfl⟩
  · intro lines declarations read
    constructor
    · exact exists_blocks (ofPhysicalLines_eq_ok_iff.1 read).blocks rfl
    · rintro blanks blocks entries rfl blank single others perm
      exact exists_ofPhysicalLines_of_perm read blank single perm

theorem ofPhysicalLines_append_twice :
    let lines := ["lib".toList, " api:[1)".toList]
    let entry : Identifier × DependencyList :=
      (⟨"lib".toList, [], none⟩, .ofList [⟨["api".toList], .minimum ['1'], []⟩])
    ofPhysicalLines none lines = .ok ⟨[entry]⟩ ∧
      (∃ failure, ofPhysicalLines none (lines ++ lines) = .error failure ∧
        failure.cause = .repeatedTarget "lib".toList) ∧
      ∃ permuted, ofPhysicalLines none (["".toList] ++ [lines].flatten) = .ok permuted ∧
        permuted.same ⟨[entry]⟩ = true := by
  intro lines entry
  have normal : Range.Normal (.minimum ['1']) := .minimum rfl
  have range : Range.ofText ([] ++ "[1)".toList) = .ok (.minimum ['1']) := normal.ofText_append rfl
  have kindLine : KindLine none [' '] " api:[1)".toList ["api".toList] (.minimum ['1']) :=
    ⟨rfl, ⟨"api".toList, "[1)".toList, rfl, by decide, by decide, range⟩, by decide, by decide,
      by decide⟩
  have deepens : Deepens [' '] [' ', ' '] := ⟨by decide, by decide⟩
  have targetLine : TargetLine "lib".toList entry.1 := ⟨rfl, rfl, rfl⟩
  have dependency : DependencyLines (thisVersion none entry.1) [' '] [" api:[1)".toList]
      ⟨["api".toList], .minimum ['1'], []⟩ := .intro kindLine deepens .nil .nil
  have own : TargetLines none lines entry :=
    .intro targetLine (List.cons_ne_nil ' ' []) (List.cons_ne_nil _ [])
      (Sequence.cons dependency .nil)
  have written : Written none lines [entry] := ⟨Sequence.cons own .nil, List.nodup_singleton _⟩
  have read : ofPhysicalLines none lines = .ok ⟨[entry]⟩ := ofPhysicalLines_eq_ok_iff.2 written
  have readBehindBlank : ofPhysicalLines none (["".toList] ++ [lines].flatten) = .ok ⟨[entry]⟩ :=
    ofPhysicalLines_eq_ok_iff.2 written
  have block : TargetBlock none lines entry := ⟨⟨_, _, rfl, targetLine⟩, read⟩
  have both := (ofPhysicalLines_append none).1 lines lines _ _ read read
  have blocks := (ofPhysicalLines_append none).2 _ _ readBehindBlank
  refine ⟨read, ?_, ?_⟩
  · rcases both.2.2 ⟨entry.1, List.mem_cons_self, List.mem_cons_self⟩ with
      ⟨before, target, declares, known, least, failure, refused, cause, _⟩
    rcases List.mem_singleton.1 known with rfl
    exact ⟨failure, refused, cause⟩
  · rcases blocks.2 _ _ _ rfl (by simp [Text.isBlank]) (.cons block .nil) _ (List.Perm.refl _) with
      ⟨permuted, readPermuted, perm, same⟩
    exact ⟨permuted, readPermuted, same⟩

end Declarations

end BundleDecl
