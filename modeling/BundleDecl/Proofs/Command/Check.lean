import BundleDecl.Proofs.Command.Step

/-!
# Checking files

A check reads its files one after the other and reports each of them at once. It stops at the first
file that cannot be read or reported, and nothing is reported of that one.
-/

namespace BundleDecl

namespace Command

/-- The world when so many files have been read, apart from what was reported of them. -/
def atTurn (world : World) (turn : Nat) : World :=
  world.recorded (List.replicate turn readRecord)

theorem atTurn_print (world : World) (text : Text) (turn : Nat) :
    atTurn (world.print text) turn = (atTurn world turn).print text :=
  World.recorded_print _ text world

/-- The reports on the files whose declarations could be read. -/
def reports (names : List Text) (loaded : List Declarations) : Text :=
  (names.zip loaded).flatMap fun (name, declarations) => linesText (checkLines name declarations)

/-- How the files of a check are tried. -/
abbrev Loader := FileTree → Text → Except Trouble Declarations

/-- Declarations are read from a file, and the standard output takes the report on it. -/
def loadReported (host : Host) (declaring : Option Text) (withoutOptionals : Bool) : Loader :=
  fun files name => do
    let declarations ← load host declaring withoutOptionals files name
    if host.prints (linesText (checkLines name declarations)) then return declarations
    else .error .unprintable

theorem loadReported_of_prints {host : Host} (takes : ∀ text, host.prints text = true)
    (declaring : Option Text) (withoutOptionals : Bool) :
    loadReported host declaring withoutOptionals = load host declaring withoutOptionals := by
  funext files name
  rw [loadReported]
  rcases load host declaring withoutOptionals files name with trouble | declarations
  · rfl
  · simp [takes, bind, Except.bind, pure, Except.pure]

/-- Declarations were read from the first of some files, each at its turn. -/
structure LoadedFrom (loader : Loader) (world : World) (names : List Text)
    (loaded : List Declarations) : Prop where
  length_le : loaded.length ≤ names.length
  load_eq : ∀ turn name declarations, names[turn]? = some name →
    loaded[turn]? = some declarations → loader (atTurn world turn).files name = .ok declarations

/-- How a check ends that has read declarations: all files were read, or the next one cannot be. -/
inductive Stops (loader : Loader) (world : World) (names : List Text)
    (loaded : List Declarations) : Except Trouble Unit → Prop where
  | done (all : loaded.length = names.length) : Stops loader world names loaded (.ok ())
  | failed {name : Text} {trouble : Trouble} (next : names[loaded.length]? = some name)
      (refused : loader (atTurn world loaded.length).files name = .error trouble) :
      Stops loader world names loaded (.error trouble)

/-- A file can be loaded when so many files have been read before it. -/
def LoadsAt (loader : Loader) (world : World) (turn : Nat) (name : Text) : Prop :=
  ∃ declarations, loader (atTurn world turn).files name = .ok declarations

section

variable {loader : Loader} {world : World} {names : List Text} {loaded : List Declarations}

theorem LoadedFrom.loadsAt (loadedFrom : LoadedFrom loader world names loaded) {turn : Nat}
    {name : Text} (inside : turn < loaded.length) (next : names[turn]? = some name) :
    LoadsAt loader world turn name :=
  ⟨_, loadedFrom.load_eq turn name _ next (List.getElem?_eq_getElem inside)⟩

/-- Declarations were read from all files before the first one that cannot be loaded. -/
theorem LoadedFrom.length_eq (loadedFrom : LoadedFrom loader world names loaded)
    (stopped : ∀ name, names[loaded.length]? = some name →
      ¬LoadsAt loader world loaded.length name)
    {turn : Nat} {name : Text} (next : names[turn]? = some name)
    (earlier : ∀ before other, before < turn → names[before]? = some other →
      LoadsAt loader world before other)
    (refused : ¬LoadsAt loader world turn name) : loaded.length = turn := by
  have inside : turn < names.length := (List.getElem?_eq_some_iff.1 next).1
  rcases Nat.lt_trichotomy loaded.length turn with short | equal | long
  · have found := List.getElem?_eq_getElem (Nat.lt_trans short inside)
    exact absurd (earlier _ _ short found) (stopped _ found)
  · exact equal
  · exact absurd (loadedFrom.loadsAt long next) refused

variable {outcome : Except Trouble Unit}

theorem Stops.not_loadsAt (stops : Stops loader world names loaded outcome) {name : Text}
    (next : names[loaded.length]? = some name) : ¬LoadsAt loader world loaded.length name := by
  rintro ⟨declarations, loads⟩
  cases stops with
  | done all =>
      rw [all, List.getElem?_eq_none (Nat.le_refl _)] at next
      contradiction
  | failed other refused =>
      rcases Option.some.inj (other.symm.trans next) with rfl
      rw [refused] at loads
      contradiction

/-- A check is done exactly when each of its files can be loaded at its turn. -/
theorem Stops.eq_ok_iff (loadedFrom : LoadedFrom loader world names loaded)
    (stops : Stops loader world names loaded outcome) :
    outcome = .ok () ↔
      ∀ turn name, names[turn]? = some name → LoadsAt loader world turn name := by
  constructor
  · rintro rfl turn name next
    cases stops with
    | done all =>
        apply loadedFrom.loadsAt _ next
        rw [all]
        exact (List.getElem?_eq_some_iff.1 next).1
  · intro every
    have ends := fun {name : Text} (next : names[loaded.length]? = some name) =>
      stops.not_loadsAt next (every _ _ next)
    cases stops with
    | done all => rfl
    | failed next refused => exact (ends next).elim

variable {name text : Text} {declarations : Declarations}

theorem LoadedFrom.cons (first : loader world.files name = .ok declarations)
    (following : LoadedFrom loader (world.log readRecord) names loaded) :
    LoadedFrom loader world (name :: names) (declarations :: loaded) where
  length_le := Nat.succ_le_succ following.length_le
  load_eq turn other found otherName otherFound := by
    cases turn with
    | zero =>
        rcases Option.some.inj otherName with rfl
        rcases Option.some.inj otherFound with rfl
        exact first
    | succ turn => exact following.load_eq turn other found otherName otherFound

theorem Stops.cons (following : Stops loader (world.log readRecord) names loaded outcome) :
    Stops loader world (name :: names) (declarations :: loaded) outcome := by
  cases following with
  | done all => exact .done (congrArg Nat.succ all)
  | failed next refused => exact .failed next refused

theorem files_atTurn_print (world : World) (text : Text) (turn : Nat) :
    (atTurn (world.print text) turn).files = (atTurn world turn).files := by
  rw [atTurn_print]
  rfl

theorem LoadedFrom.of_print (printed : LoadedFrom loader (world.print text) names loaded) :
    LoadedFrom loader world names loaded where
  length_le := printed.length_le
  load_eq turn name declarations named found := by
    rw [← files_atTurn_print world text]
    exact printed.load_eq turn name declarations named found

theorem Stops.of_print (printed : Stops loader (world.print text) names loaded outcome) :
    Stops loader world names loaded outcome := by
  cases printed with
  | done all => exact .done all
  | failed next refused =>
      rw [files_atTurn_print] at refused
      exact .failed next refused

end

theorem print_nil (world : World) : world.print [] = world := by
  simp [World.print]

/-- The steps of a check on one file: it is loaded and then reported. -/
theorem exists_run_file (host : Host) (declaring : Option Text) (withoutOptionals : Bool)
    (name : Text) (world : World) :
    ∃ records,
      (do let declarations ← readDeclarations host declaring withoutOptionals name
          emit host (linesText (checkLines name declarations)) none : Step Unit).run world =
        match loadReported host declaring withoutOptionals world.files name with
        | .error trouble => (.error trouble, world.recorded records)
        | .ok declarations =>
          (.ok (), (world.log readRecord).print (linesText (checkLines name declarations))) := by
  rw [run_bind, run_readDeclarations, loadReported]
  rcases load host declaring withoutOptionals world.files name with trouble | declarations
  · exact ⟨[], rfl⟩
  · refine ⟨[readRecord], ?_⟩
    simp only [run_emit_none, bind, Except.bind]
    cases host.prints (linesText (checkLines name declarations)) <;> rfl

/--
A check reports the files that it reads, and it stops at the first one that cannot be read or
reported.
-/
theorem exists_run_check (host : Host) (declaring : Option Text) (names : List Text)
    (withoutOptionals : Bool) (world : World) :
    ∃ loaded outcome records,
      LoadedFrom (loadReported host declaring withoutOptionals) world names loaded ∧
        Stops (loadReported host declaring withoutOptionals) world names loaded outcome ∧
        (perform host declaring (.check names withoutOptionals)).run world =
          (outcome, (world.recorded records).print (reports names loaded)) := by
  rw [perform]
  induction names generalizing world with
  | nil =>
      refine ⟨[], .ok (), [], ⟨Nat.le_refl 0, by simp⟩, .done rfl, ?_⟩
      exact congrArg (Prod.mk (Except.ok ())) (print_nil world).symm
  | cons name names ih =>
      rcases exists_run_file host declaring withoutOptionals name world with ⟨records, first⟩
      rw [List.forM, run_bind, first]
      rcases outcome : loadReported host declaring withoutOptionals world.files name with
        trouble | declarations
      · refine ⟨[], .error trouble, records, ⟨Nat.zero_le _, by simp⟩, .failed rfl outcome, ?_⟩
        exact congrArg (Prod.mk (Except.error trouble)) (print_nil _).symm
      · -- The report of this file is in the way of the following ones, but it changes no file.
        rcases ih ((world.log readRecord).print (linesText (checkLines name declarations))) with
          ⟨loaded, ending, later, loadedFrom, stops, run⟩
        refine ⟨declarations :: loaded, ending, readRecord :: later,
          loadedFrom.of_print.cons outcome, stops.of_print.cons, ?_⟩
        dsimp only
        rw [run, World.recorded_print, World.print_print]
        rfl

end Command

end BundleDecl
