import BundleDecl.Command
import BundleDecl.Proofs.FileTree

/-!
# What logging changes

Logging writes to the console and to the log file. It leaves alone what was written to the standard
output, how records are written, and every file but the log file.
-/

namespace BundleDecl

namespace World

/-- The world after some records were logged one after the other. -/
def recorded (records : List Log.Record) (world : World) : World :=
  records.foldl (fun world record => world.log record) world

theorem recorded_append (earlier later : List Log.Record) (world : World) :
    world.recorded (earlier ++ later) = (world.recorded earlier).recorded later :=
  List.foldl_append

theorem exists_writeTo_eq (world : World) (written : Log.Outlet × Text) :
    ∃ files console, world.writeTo written = ⟨files, world.logging, world.output, console⟩ := by
  rcases written with ⟨outlet, text⟩
  cases outlet with
  | console => exact ⟨_, _, rfl⟩
  | file name =>
      rw [writeTo]
      split <;> exact ⟨_, _, rfl⟩

/-- Logging changes files and the console only. -/
theorem exists_log_eq (record : Log.Record) (world : World) :
    ∃ files console, world.log record = ⟨files, world.logging, world.output, console⟩ := by
  refine List.foldlRecOn (motive := fun after => ∃ files console,
    after = ⟨files, world.logging, world.output, console⟩) (world.logging.emit record) writeTo ?_ ?_
  · exact ⟨world.files, world.console, rfl⟩
  · rintro after ⟨files, console, same⟩ written -
    rcases after.exists_writeTo_eq written with ⟨nextFiles, nextConsole, next⟩
    exact ⟨nextFiles, nextConsole, by rw [next, same]⟩

@[simp]
theorem output_log (record : Log.Record) (world : World) :
    (world.log record).output = world.output := by
  rcases world.exists_log_eq record with ⟨files, console, same⟩
  rw [same]

@[simp]
theorem output_recorded (records : List Log.Record) (world : World) :
    (world.recorded records).output = world.output := by
  induction records generalizing world with
  | nil => rfl
  | cons record records ih => exact (ih (world.log record)).trans (output_log record world)

theorem writeTo_print (written : Log.Outlet × Text) (text : Text) (world : World) :
    (world.print text).writeTo written = (world.writeTo written).print text := by
  rcases written with ⟨outlet, line⟩
  cases outlet with
  | console => rfl
  | file name =>
      have sameFiles : (world.print text).files = world.files := rfl
      rw [writeTo, writeTo, sameFiles]
      cases world.files.append name (Text.Utf8.encode line) <;> rfl

/-- Logging and writing to the standard output do not depend on each other. -/
theorem log_print (record : Log.Record) (text : Text) (world : World) :
    (world.print text).log record = (world.log record).print text := by
  apply List.foldl_hom (print text)
  intro world written
  exact writeTo_print written text world

theorem recorded_print (records : List Log.Record) (text : Text) (world : World) :
    (world.print text).recorded records = (world.recorded records).print text := by
  apply List.foldl_hom (print text)
  intro world record
  exact log_print record text world

theorem print_print (first second : Text) (world : World) :
    (world.print first).print second = world.print (first ++ second) := by
  simp [print]

/-! ## The log file -/

/-- Every log file can be written, and it lies under the given path. -/
def LogsTo (changed : Option Path) (tree : FileTree) (outlets : List Log.Outlet) : Prop :=
  ∀ name, .file name ∈ outlets →
    ∃ path content, changed = some path ∧ tree.writable name = .ok (path, content)

/-- The files of a world differ from a tree at most in the log file. -/
structure Keeps (changed : Option Path) (tree : FileTree) (world : World) : Prop where
  agree : FileTree.AgreeExcept changed tree world.files
  outlets : LogsTo changed tree world.logging.outlets

namespace Keeps

variable {changed : Option Path} {tree : FileTree} {world : World}

theorem print (keeps : Keeps changed tree world) (text : Text) :
    Keeps changed tree (world.print text) :=
  ⟨keeps.agree, keeps.outlets⟩

theorem writeTo (keeps : Keeps changed tree world) {outlet : Log.Outlet} (text : Text)
    (known : outlet = .console ∨ outlet ∈ world.logging.outlets) :
    Keeps changed tree (world.writeTo (outlet, text)) := by
  cases outlet with
  | console => exact ⟨keeps.agree, keeps.outlets⟩
  | file name =>
      rcases known with console | known
      · contradiction
      · rcases keeps.outlets name known with ⟨path, content, rfl, writable⟩
        rcases keeps.agree.append writable (Text.Utf8.encode text) with ⟨files, appended, agree⟩
        rw [World.writeTo, appended]
        exact ⟨agree, keeps.outlets⟩

theorem log (keeps : Keeps changed tree world) (record : Log.Record) :
    Keeps changed tree (world.log record) := by
  have known : ∀ written ∈ world.logging.emit record,
      written.1 = .console ∨ written.1 ∈ world.logging.outlets := by
    intro written member
    rw [Log.Setup.emit] at member
    split at member
    · contradiction
    · split at member
      · rcases List.mem_singleton.1 member with rfl
        exact Or.inl rfl
      · rcases List.mem_map.1 member with ⟨outlet, outletMem, rfl⟩
        exact Or.inr outletMem
  -- The outlets stay the same while they are written to, one after the other.
  have every : Keeps changed tree (world.log record) ∧
      (world.log record).logging = world.logging := by
    refine List.foldlRecOn (motive := fun after => Keeps changed tree after ∧
      after.logging = world.logging) (world.logging.emit record) World.writeTo ?_ ?_
    · exact ⟨keeps, rfl⟩
    · rintro after ⟨keepsAfter, same⟩ ⟨outlet, text⟩ member
      rw [← same] at known
      refine ⟨keepsAfter.writeTo text (known _ (same ▸ member)), ?_⟩
      rcases after.exists_writeTo_eq (outlet, text) with ⟨files, console, next⟩
      rw [next, same]
  exact every.1

theorem recorded (keeps : Keeps changed tree world) (records : List Log.Record) :
    Keeps changed tree (world.recorded records) := by
  apply List.foldlRecOn (motive := Keeps changed tree) records
  · exact keeps
  · intro after keepsAfter record _
    exact keepsAfter.log record

end Keeps

end World

end BundleDecl
