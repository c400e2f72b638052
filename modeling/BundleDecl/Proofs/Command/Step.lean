import BundleDecl.Proofs.Command.Recorded

/-!
# Steps of a task

What the steps of a task yield, and what they do to the world: reading declarations changes nothing
but the log, and a result is written only when everything that goes before it has succeeded. Neither
does an interruption by the host leave more than records behind.
-/

namespace BundleDecl

namespace Command

variable {First Second : Type}

theorem run_bind (first : Step First) (next : First → Step Second) (world : World) :
    (first >>= next).run world = match first.run world with
      | (.ok value, after) => (next value).run after
      | (.error trouble, after) => (.error trouble, after) := by
  change (ExceptT.bindCont next (first.run world).1 : StateM World _) (first.run world).2 = _
  rcases first.run world with ⟨outcome, after⟩
  cases outcome <;> rfl

theorem run_get (world : World) : (get : Step World).run world = (.ok world, world) :=
  rfl

theorem run_failure (outcome : Except Failure First) (world : World) :
    (liftM outcome : Step First).run world = (outcome.mapError .failure, world) := by
  cases outcome <;> rfl

theorem run_file (outcome : Except FileProblem First) (world : World) :
    (liftM outcome : Step First).run world = (outcome.mapError .file, world) := by
  cases outcome <;> rfl

theorem run_halt (outcome : Except (Halt Failure) First) (world : World) :
    (liftM outcome : Step First).run world = (outcome.mapError .ofHalt, world) := by
  cases outcome <;> rfl

/-- The declarations that are read from a file of a tree. -/
def load (host : Host) (declaring : Option Text) (withoutOptionals : Bool) (files : FileTree)
    (name : Text) : Except Trouble Declarations := do
  let content ← (files.read name).mapError .file
  let bundle ← (declaring.mapM Identifier.ofText).mapError .failure
  let declarations ←
    (Declarations.ofSourceWithin host bundle (.byteStream content)).mapError .ofHalt
  return if withoutOptionals then declarations.withoutOptionals.value else declarations

/-- The record of declarations that were read. Which ones they are does not show in the log. -/
def readRecord : Log.Record :=
  .plain .debug "Parsed dependency declarations"

theorem liftM_mapM_ofText (declaring : Option Text) :
    (liftM (declaring.mapM Identifier.ofText) : Step (Option Identifier)) =
      match declaring with
      | none => pure none
      | some text => some <$> (Identifier.ofText text : Step Identifier) := by
  cases declaring with
  | none => rfl
  | some text =>
      simp only [Option.mapM_some]
      cases Identifier.ofText text <;> rfl

theorem run_readDeclarations (host : Host) (declaring : Option Text) (withoutOptionals : Bool)
    (name : Text) (world : World) :
    (readDeclarations host declaring withoutOptionals name).run world =
      match load host declaring withoutOptionals world.files name with
      | .ok declarations => (.ok declarations, world.log readRecord)
      | .error trouble => (.error trouble, world) := by
  have steps : readDeclarations host declaring withoutOptionals name = (do
      let content ← (← get).files.read name
      let bundle ← (declaring.mapM Identifier.ofText : Except Failure _)
      let declarations ← Declarations.ofSourceWithin host bundle (.byteStream content)
      log (Log.declarationsRead bundle declarations)
      return if withoutOptionals then declarations.withoutOptionals.value else declarations) := by
    rw [liftM_mapM_ofText]
    cases declaring <;> rfl
  rw [steps]
  simp only [load, run_bind, run_get, run_file, run_failure, run_halt]
  rcases world.files.read name with problem | content
  · rfl
  · simp only [Except.mapError, bind, Except.bind]
    rcases declaring.mapM Identifier.ofText with failure | bundle
    · rfl
    · simp only
      rcases Declarations.ofSourceWithin host bundle (.byteStream content) with halt | declarations
      · rfl
      · rfl

theorem run_emit_none (host : Host) (text : Text) (world : World) :
    (emit host text none).run world =
      if host.prints text then (.ok (), world.print text) else (.error .unprintable, world) := by
  rw [emit]
  cases prints : host.prints text <;> simp [Option.filter] <;> rfl

/-- The name of the file to write to that a value gives; an empty name stands for none. -/
def nameIn (value : Option CommandLine.Value) : Option Text :=
  (value.bind CommandLine.Value.text?).filter (!·.isEmpty)

/-- A result is written to where it belongs, or else nothing happens. -/
theorem run_emit (host : Host) (text : Text) (output : Option CommandLine.Value) (world : World) :
    (emit host text (output.bind CommandLine.Value.text?)).run world =
      match nameIn output with
      | none =>
        if host.prints text then (.ok (), world.print text) else (.error .unprintable, world)
      | some name =>
        match world.files.write name (Text.Utf8.encode text) with
        | .error problem => (.error (.file problem), world)
        | .ok files =>
          (.ok (), { world with files := files }.log
            (.plain .info ("Output written to " ++ name))) := by
  cases named : nameIn output with
  | none =>
      rw [nameIn] at named
      rw [← run_emit_none, emit, emit, named]
      rfl
  | some name =>
      rw [nameIn] at named
      rw [emit, named]
      simp only [run_bind, run_get, run_file]
      cases world.files.write name (Text.Utf8.encode text) <;> rfl

theorem run_mapM_failure {Item Value : Type} (step : Item → Except Failure Value)
    (items : List Item) (world : World) :
    (items.mapM fun item => (liftM (step item) : Step Value)).run world =
      ((items.mapM step).mapError .failure, world) := by
  induction items with
  | nil => rfl
  | cons item items ih =>
      rw [List.mapM_cons, List.mapM_cons, run_bind, run_failure]
      rcases step item with failure | value
      · rfl
      · simp only [Except.mapError, run_bind, ih]
        rcases items.mapM step with failure | values
        · rfl
        · rfl

/-- The result of a task that has one, before it is written. -/
def resultOf (host : Host) (files : FileTree) (declaring : Option Text) :
    Task → Except Trouble Text
  | .check .. => .ok []
  | .format name _ withoutOptionals => do
    let declarations ← load host declaring withoutOptionals files name
    (written host Declarations.toText declarations).mapError .ofHalt
  | .exportJson name _ => do
    let declarations ← load host declaring false files name
    (written host exported declarations).mapError .ofHalt
  | .identifier texts =>
    ((texts.mapM Identifier.ofText).map fun identifiers =>
      linesText (identifiers.flatMap identifierLines)).mapError .failure
  | .compare left right qualifiers =>
    ((compareValues qualifiers left right).map fun order =>
      linesText [orderText order]).mapError .ofHalt

/-- The file that a task was given for its result. -/
def outputOf : Task → Option CommandLine.Value
  | .format _ output _ | .exportJson _ output => output
  | .check .. | .identifier _ | .compare .. => none

/-- What a task logs before it writes its result. -/
def recordsOf : Task → List Log.Record
  | .format .. | .exportJson .. => [readRecord]
  | .check .. | .identifier _ | .compare .. => []

/-- The steps of a task that reads one file and writes it in some form. -/
theorem exists_run_readDeclarations_written (host : Host) (declaring : Option Text)
    (withoutOptionals : Bool) (name : Text) (form : Declarations → Text)
    (output : Option CommandLine.Value) (world : World) :
    ∃ records,
      (do let declarations ← readDeclarations host declaring withoutOptionals name
          emit host (← written host form declarations)
            (output.bind CommandLine.Value.text?) : Step Unit).run world =
        match load host declaring withoutOptionals world.files name >>= fun declarations =>
          (written host form declarations).mapError Trouble.ofHalt with
        | .error trouble => (.error trouble, world.recorded records)
        | .ok text =>
          (emit host text (output.bind CommandLine.Value.text?)).run (world.log readRecord) := by
  rw [run_bind, run_readDeclarations]
  rcases load host declaring withoutOptionals world.files name with trouble | declarations
  · exact ⟨[], rfl⟩
  · refine ⟨[readRecord], ?_⟩
    simp only [bind, Except.bind]
    cases written host form declarations <;> rfl

/-- A task with one result finds it first, which changes nothing but the log, and writes it then. -/
theorem exists_run_perform (host : Host) {task : Task} (single : ∀ names withoutOptionals,
    task ≠ .check names withoutOptionals) (declaring : Option Text) (world : World) :
    ∃ records, (perform host declaring task).run world =
      match resultOf host world.files declaring task with
      | .error trouble => (.error trouble, world.recorded records)
      | .ok text =>
        (emit host text ((outputOf task).bind CommandLine.Value.text?)).run
          (world.recorded (recordsOf task)) := by
  cases task with
  | check names withoutOptionals => exact absurd rfl (single names withoutOptionals)
  | format name output withoutOptionals =>
      exact exists_run_readDeclarations_written host declaring withoutOptionals name
        Declarations.toText output world
  | exportJson name output =>
      exact exists_run_readDeclarations_written host declaring false name exported output world
  | identifier texts =>
      refine ⟨[], ?_⟩
      rw [perform, run_bind, run_mapM_failure, resultOf]
      cases texts.mapM Identifier.ofText <;> rfl
  | compare left right qualifiers =>
      refine ⟨[], ?_⟩
      rw [perform, run_bind, run_halt, resultOf]
      cases compareValues qualifiers left right <;> rfl

end Command

end BundleDecl
