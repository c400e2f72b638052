import BundleDecl.FileTree
import BundleDecl.Proofs.Failure

/-!
# What writing to a file changes

A name leads to the same place in two trees that differ in the content of one file only, since no
name leads on from a file. So writing to that file once more changes that file alone, and reading
any other file gives the same content as before.
-/

namespace BundleDecl

namespace FileTree

/-- A path that can be written to: no directory is there, and writing is admitted. -/
structure IsOutlet (tree : FileTree) (path : Path) : Prop where
  file : tree.node? path ≠ some .directory
  admits : tree.admits path = true

/-- A tree differs from another one at most in a file under the given path, if one is given. -/
structure AgreeExcept (changed : Option Path) (before after : FileTree) : Prop where
  directory : after.directory = before.directory
  home : after.home = before.home
  node : ∀ path, changed ≠ some path → after.node? path = before.node? path
  search : ∀ path, after.denies .search path = before.denies .search path
  readable : ∀ path, changed ≠ some path → after.denies .read path = before.denies .read path
  outlet : ∀ path, changed = some path → before.IsOutlet path ∧ after.IsOutlet path

namespace AgreeExcept

variable {changed : Option Path} {before middle after : FileTree}

theorem refl {tree : FileTree} (outlet : ∀ path, changed = some path → tree.IsOutlet path) :
    AgreeExcept changed tree tree :=
  ⟨rfl, rfl, fun _ _ => rfl, fun _ => rfl, fun _ _ => rfl,
    fun path given => ⟨outlet path given, outlet path given⟩⟩

theorem symm (agree : AgreeExcept changed before after) : AgreeExcept changed after before :=
  ⟨agree.directory.symm, agree.home.symm, fun path other => (agree.node path other).symm,
    fun path => (agree.search path).symm, fun path other => (agree.readable path other).symm,
    fun path given => (agree.outlet path given).symm⟩

theorem trans (first : AgreeExcept changed before middle)
    (second : AgreeExcept changed middle after) : AgreeExcept changed before after where
  directory := second.directory.trans first.directory
  home := second.home.trans first.home
  node path other := (second.node path other).trans (first.node path other)
  search path := (second.search path).trans (first.search path)
  readable path other := (second.readable path other).trans (first.readable path other)
  outlet path given := ⟨(first.outlet path given).1, (second.outlet path given).2⟩

end AgreeExcept

theorem node?_put {tree : FileTree} {path : Path} (file : tree.node? path ≠ some .directory)
    (content : List UInt8) (other : Path) :
    (tree.put path content).node? other =
      if other = path ∧ path ≠ sinkPath then some (.file content) else tree.node? other := by
  rw [put]
  by_cases sink : path = sinkPath
  · simp [sink]
  · have inside : path.isPrefixOf sinkPath = false := by
      by_contra way
      rw [Bool.not_eq_false] at way
      exact file (by rw [node?, if_neg sink, if_pos way])
    by_cases same : other = path
    · rw [if_neg sink, if_pos ⟨same, sink⟩, same, node?, if_neg sink]
      simp [inside, Entries.get?_set]
    · simp [sink, same, node?, Entries.get?_set]

/-- Whoever makes a file may read and write it; nothing else is refused or granted by that. -/
theorem denies_put (tree : FileTree) (path : Path) (content : List UInt8) (access : Access)
    (other : Path) :
    (tree.put path content).denies access other =
      (tree.denies access other &&
        ((tree.node? path).isSome || other ≠ path || access = .search)) := by
  rw [put]
  by_cases sink : path = sinkPath
  · simp [sink, node?]
  · cases there : (tree.node? path).isSome with
    | true => simp [sink, denies, deniedWith, there]
    | false => simp [sink, denies, deniedWith, there, List.contains_eq_mem, Bool.decide_and]

theorem IsOutlet.put {tree : FileTree} {path : Path} (outlet : tree.IsOutlet path)
    (content : List UInt8) : (tree.put path content).IsOutlet path := by
  have there : ((tree.put path content).node? path).isSome = true := by
    rw [node?_put outlet.file]
    by_cases sink : path = sinkPath
    · simp [sink, node?]
    · simp [sink]
  refine ⟨?_, ?_⟩
  · rw [node?_put outlet.file]
    split
    · simp
    · exact outlet.file
  · have admits := outlet.admits
    rw [FileTree.admits] at admits ⊢
    rw [there, if_pos rfl, denies_put]
    cases known : (tree.node? path).isSome with
    | true => simpa [known] using admits
    | false => simp

/-- Setting the content of a file changes that file alone. -/
theorem agreeExcept_put {tree : FileTree} {path : Path} (outlet : tree.IsOutlet path)
    (content : List UInt8) : AgreeExcept (some path) tree (tree.put path content) where
  directory := by
    rw [put]
    split <;> rfl
  home := by
    rw [put]
    split <;> rfl
  node other different := by
    rw [node?_put outlet.file, if_neg]
    rintro ⟨rfl, -⟩
    exact different rfl
  search other := by simp [denies_put]
  readable other different := by
    have elsewhere : other ≠ path := fun same => different (congrArg some same.symm)
    simp [denies_put, elsewhere]
  outlet other same := by
    rcases Option.some.inj same with rfl
    exact ⟨outlet, outlet.put content⟩

/-- A step of a name that leads into no directory entry. -/
def IsStill (step : Text) : Prop :=
  step = [] ∨ step = ['.'] ∨ step = ['.', '.']

/-- A directory that a step leads on from must admit it; an empty step leads nowhere. -/
def Admits (tree : FileTree) (path : Path) (next : Text) : Prop :=
  next = [] ∨ tree.denies .search path = false

/-- A walk goes on over directories, and it may end at anything that is none. -/
theorem walk_cons_eq_ok_iff {tree : FileTree} {name : Text} {path : Path} {next : Text}
    {rest : List Text} {destination : Destination} :
    tree.walk name path (next :: rest) = .ok destination ↔
      Admits tree path next ∧
        ((IsStill next ∧ tree.walk name (path.step next) rest = .ok destination) ∨
          (¬IsStill next ∧ (Text.Utf8.encode next).length ≤ longestStep ∧
            ((tree.node? (path.step next) = some .directory ∧
                tree.walk name (path.step next) rest = .ok destination) ∨
              (tree.node? (path.step next) ≠ some .directory ∧ rest = [] ∧
                destination = (path.step next, tree.node? (path.step next)))))) := by
  rw [walk]
  by_cases denied : next ≠ [] ∧ tree.denies .search path = true
  · have refused : ¬Admits tree path next := by simpa [Admits] using denied
    simp only [if_pos denied, refused, false_and, iff_false]
    nofun
  · have admitted : Admits tree path next := by
      simp only [Admits, ← Bool.not_eq_true]
      tauto
    simp only [if_neg denied, admitted, true_and]
    by_cases still : next = [] ∨ next = ['.'] ∨ next = ['.', '.']
    · simp [still, IsStill]
    · by_cases long : longestStep < (Text.Utf8.encode next).length
      · simp [still, long, IsStill, Nat.not_le.2 long]
      · simp only [still, long, IsStill, if_false, false_and, not_false_eq_true, true_and, false_or,
          Nat.not_lt.1 long]
        cases tree.node? (path.step next) with
        | none => by_cases last : rest = [] <;> simp [last, eq_comm]
        | some node =>
            cases node with
            | directory => simp
            | file content => by_cases last : rest = [] <;> simp [last, eq_comm]
            | sink => by_cases last : rest = [] <;> simp [last, eq_comm]

/-- A walk leads to what there is, or to a directory that one of its steps leads back to. -/
theorem node_of_walk {tree : FileTree} {name : Text} {path : Path} {steps : List Text}
    {reached : Path} {node : Option Node}
    (walked : tree.walk name path steps = .ok (reached, node)) :
    node = some .directory ∨ node = tree.node? reached := by
  induction steps generalizing path with
  | nil =>
      rw [walk, Except.ok.injEq, Prod.mk.injEq] at walked
      exact Or.inl walked.2.symm
  | cons next rest ih =>
      rcases walk_cons_eq_ok_iff.1 walked with
        ⟨-, ⟨-, walked⟩ | ⟨-, -, ⟨-, walked⟩ | ⟨-, -, destination⟩⟩⟩
      · exact ih walked
      · exact ih walked
      · rcases Prod.mk.inj destination with ⟨rfl, rfl⟩
        exact Or.inr rfl

/-- A text that the file system takes for a name. -/
def IsName (name : Text) : Prop :=
  '\x00' ∉ name ∧ name ≠ [] ∧ (Text.Utf8.encode name).length ≤ longestName

theorem resolve_eq_ok_iff {tree : FileTree} {name : Text} {destination : Destination} :
    tree.resolve name = .ok destination ↔
      IsName name ∧
        tree.walk name (tree.start name) (Text.splitOn '/' (Text.trimEnd (· = '/') name)) =
          .ok destination := by
  rw [resolve, IsName]
  by_cases null : '\x00' ∈ name
  · simp [null]
  · by_cases empty : name = []
    · simp [empty]
    · by_cases long : longestName < (Text.Utf8.encode name).length
      · simp [null, empty, long, Nat.not_le.2 long]
      · simp [null, empty, long, Nat.not_lt.1 long]

/-- What two walks to the same place find there, of which only one may know what has changed. -/
def Corresponds (changed : Option Path) (before after : FileTree) (reached : Path)
    (node other : Option Node) : Prop :=
  other = node ∨
    changed = some reached ∧ node = before.node? reached ∧ other = after.node? reached

namespace AgreeExcept

variable {changed : Option Path} {before after : FileTree}

theorem walk (agree : AgreeExcept changed before after) {name : Text} {path : Path}
    {steps : List Text} {reached : Path} {node : Option Node}
    (walked : before.walk name path steps = .ok (reached, node)) :
    ∃ other, after.walk name path steps = .ok (reached, other) ∧
      Corresponds changed before after reached node other := by
  -- A step that leads on leads to a directory, so only the last one can lead to the changed file.
  induction steps generalizing path with
  | nil => exact ⟨node, walked, Or.inl rfl⟩
  | cons next rest ih =>
      rcases walk_cons_eq_ok_iff.1 walked with ⟨admitted, goesOn⟩
      have admittedAfter : Admits after path next := by rwa [Admits, agree.search]
      rcases goesOn with
        ⟨still, walked⟩ | ⟨moves, short, ⟨directory, walked⟩ | ⟨last, rfl, destination⟩⟩
      · rcases ih walked with ⟨other, found, corresponds⟩
        exact ⟨other, walk_cons_eq_ok_iff.2 ⟨admittedAfter, .inl ⟨still, found⟩⟩, corresponds⟩
      · rcases ih walked with ⟨other, found, corresponds⟩
        refine ⟨other, ?_, corresponds⟩
        have elsewhere : changed ≠ some (path.step next) :=
          fun same => (agree.outlet _ same).1.file directory
        rw [← agree.node _ elsewhere] at directory
        exact walk_cons_eq_ok_iff.2 ⟨admittedAfter, .inr ⟨moves, short, .inl ⟨directory, found⟩⟩⟩
      · rcases Prod.mk.inj destination with ⟨rfl, rfl⟩
        refine ⟨after.node? (path.step next), ?_, ?_⟩
        · apply walk_cons_eq_ok_iff.2
          refine ⟨admittedAfter, .inr ⟨moves, short, .inr ⟨?_, rfl, rfl⟩⟩⟩
          by_cases here : changed = some (path.step next)
          · exact (agree.outlet _ here).2.file
          · rwa [agree.node _ here]
        · by_cases here : changed = some (path.step next)
          · exact Or.inr ⟨here, rfl, rfl⟩
          · exact Or.inl (agree.node _ here)

theorem resolve (agree : AgreeExcept changed before after) {name : Text} {reached : Path}
    {node : Option Node} (resolved : before.resolve name = .ok (reached, node)) :
    ∃ other, after.resolve name = .ok (reached, other) ∧
      Corresponds changed before after reached node other := by
  rcases resolve_eq_ok_iff.1 resolved with ⟨isName, walked⟩
  have sameStart : before.start name = after.start name := by
    rw [start, start, agree.directory]
  rw [sameStart] at walked
  rcases agree.walk walked with ⟨other, found, corresponds⟩
  exact ⟨other, resolve_eq_ok_iff.2 ⟨isName, found⟩, corresponds⟩

end AgreeExcept

/-- The content of what may be a file. -/
def contentOf : Option Node → List UInt8
  | some (.file content) => content
  | _ => []

theorem writable_eq_ok_iff {tree : FileTree} {name : Text} {path : Path} {content : List UInt8} :
    tree.writable name = .ok (path, content) ↔
      ∃ node, tree.resolve name = .ok (path, node) ∧ endsAsDirectory name = false ∧
        node ≠ some .directory ∧ tree.admits path = true ∧ content = contentOf node := by
  rw [writable, bind_eq_ok_iff]
  constructor
  · rintro ⟨⟨reached, node⟩, resolved, opened⟩
    dsimp only at opened
    split at opened
    · contradiction
    · rename_i proper
      rw [not_or, Bool.not_eq_true] at proper
      split at opened
      · contradiction
      · rename_i admitted
        rw [Bool.not_eq_true, Bool.not_eq_false'] at admitted
        refine ⟨node, ?_⟩
        cases node with
        | none => simp_all [contentOf, pure, Except.pure]
        | some found => cases found <;> simp_all [contentOf, pure, Except.pure]
  · rintro ⟨node, resolved, ends, noDirectory, admitted, rfl⟩
    refine ⟨_, resolved, ?_⟩
    cases node with
    | none => simp [ends, admitted, contentOf, pure, Except.pure]
    | some found => cases found <;> simp_all [contentOf, pure, Except.pure]

theorem isOutlet_of_writable {tree : FileTree} {name : Text} {path : Path} {content : List UInt8}
    (writable : tree.writable name = .ok (path, content)) : tree.IsOutlet path := by
  rcases writable_eq_ok_iff.1 writable with ⟨node, resolved, -, noDirectory, admitted, -⟩
  refine ⟨?_, admitted⟩
  rcases node_of_walk (resolve_eq_ok_iff.1 resolved).2 with directory | found
  · contradiction
  · rwa [← found]

theorem read_eq_ok_iff {tree : FileTree} {name : Text} {content : List UInt8} :
    tree.read name = .ok content ↔
      ∃ path node, tree.resolve name = .ok (path, node) ∧ endsAsDirectory name = false ∧
        tree.denies .read path = false ∧
        (node = some (.file content) ∨ node = some .sink ∧ content = []) := by
  rw [read, bind_eq_ok_iff]
  constructor
  · rintro ⟨⟨path, node⟩, resolved, opened⟩
    refine ⟨path, node, resolved, ?_⟩
    cases node with
    | none => simp at opened
    | some found =>
        cases denied : tree.denies .read path with
        | true => cases ends : endsAsDirectory name <;> cases found <;> simp_all
        | false =>
            cases ends : endsAsDirectory name <;> cases found <;> simp_all [pure, Except.pure]
  · rintro ⟨path, node, resolved, ends, admitted, rfl | ⟨rfl, rfl⟩⟩
    · exact ⟨_, resolved, by simp [ends, admitted, pure, Except.pure]⟩
    · exact ⟨_, resolved, by simp [ends, admitted, pure, Except.pure]⟩

namespace AgreeExcept

variable {changed : Option Path} {before after : FileTree}

/-- A file that could be written can still be written, and that changes no other file. -/
theorem append {path : Path} (agree : AgreeExcept (some path) before after) {name : Text}
    {content : List UInt8} (writable : before.writable name = .ok (path, content))
    (added : List UInt8) :
    ∃ tree, after.append name added = .ok tree ∧ AgreeExcept (some path) before tree := by
  rcases writable_eq_ok_iff.1 writable with ⟨node, resolved, ends, noDirectory, -, -⟩
  rcases agree.resolve resolved with ⟨other, found, corresponds⟩
  have outlet := (agree.outlet path rfl).2
  have file : other ≠ some .directory := by
    rcases corresponds with same | ⟨-, -, same⟩
    · rwa [same]
    · rw [same]
      exact outlet.file
  have writableAfter := writable_eq_ok_iff.2 ⟨other, found, ends, file, outlet.admits, rfl⟩
  refine ⟨after.put path (contentOf other ++ added), ?_, ?_⟩
  · rw [FileTree.append, writableAfter]
    rfl
  · exact agree.trans (agreeExcept_put outlet _)

theorem read (agree : AgreeExcept changed before after) {name : Text}
    (elsewhere : ∀ path node, before.resolve name = .ok (path, node) → changed ≠ some path)
    {content : List UInt8} (read : before.read name = .ok content) :
    after.read name = .ok content := by
  rcases read_eq_ok_iff.1 read with ⟨path, node, resolved, ends, admitted, found⟩
  have other := elsewhere path node resolved
  rw [← agree.readable path other] at admitted
  rcases agree.resolve resolved with ⟨same, resolvedAfter, rfl | ⟨here, -⟩⟩
  · exact read_eq_ok_iff.2 ⟨path, same, resolvedAfter, ends, admitted, found⟩
  · exact absurd here other

/-- Only a name that leads to the changed file may be read in another way. -/
theorem read_eq_ok_iff (agree : AgreeExcept changed before after) {name : Text}
    (elsewhere : ∀ path node, before.resolve name = .ok (path, node) → changed ≠ some path)
    {content : List UInt8} :
    after.read name = .ok content ↔ before.read name = .ok content := by
  refine ⟨agree.symm.read ?_, agree.read elsewhere⟩
  intro path node resolved
  rcases agree.symm.resolve resolved with ⟨other, resolvedBefore, -⟩
  exact elsewhere path other resolvedBefore

end AgreeExcept

/-! ## Texts that are no names -/

theorem ne_nullCharacter_of_walk {tree : FileTree} {name : Text} {path : Path}
    {steps : List Text} {problem : FileProblem}
    (refused : tree.walk name path steps = .error problem) : problem ≠ .nullCharacter := by
  induction steps generalizing path with
  | nil => contradiction
  | cons next rest ih =>
      rw [walk] at refused
      split at refused
      · rcases Except.error.inj refused with rfl
        nofun
      · split at refused
        · exact ih refused
        · dsimp only at refused
          split at refused
          · rcases Except.error.inj refused with rfl
            nofun
          · split at refused
            · exact ih refused
            · split at refused
              · contradiction
              · rcases Except.error.inj refused with rfl
                nofun
            · split at refused
              · contradiction
              · rcases Except.error.inj refused with rfl
                nofun

theorem resolve_eq_error_of_mem {name : Text} (null : '\x00' ∈ name) (tree : FileTree) :
    tree.resolve name = .error .nullCharacter := by
  simp [resolve, null]

/-- A text is no name at all exactly when it holds a null character. -/
theorem eq_nullCharacter_iff_of_resolve {tree : FileTree} {name : Text} {problem : FileProblem}
    (refused : tree.resolve name = .error problem) :
    problem = .nullCharacter ↔ '\x00' ∈ name := by
  by_cases null : '\x00' ∈ name
  · rw [resolve_eq_error_of_mem null] at refused
    simp [null, ← Except.error.inj refused]
  · simp only [null, iff_false]
    rw [resolve] at refused
    split at refused
    · simp_all
    · split at refused
      · rcases Except.error.inj refused with rfl
        nofun
      · split at refused
        · rcases Except.error.inj refused with rfl
          nofun
        · exact ne_nullCharacter_of_walk refused

theorem notMem_of_resolve {tree : FileTree} {name : Text} {destination : Destination}
    (resolved : tree.resolve name = .ok destination) : '\x00' ∉ name :=
  (resolve_eq_ok_iff.1 resolved).1.1

theorem eq_nullCharacter_iff_of_read {tree : FileTree} {name : Text} {problem : FileProblem}
    (refused : tree.read name = .error problem) :
    problem = .nullCharacter ↔ '\x00' ∈ name := by
  rw [read, bind_eq_error_iff] at refused
  rcases refused with refused | ⟨⟨path, node⟩, resolved, refused⟩
  · exact eq_nullCharacter_iff_of_resolve refused
  · simp only [notMem_of_resolve resolved, iff_false]
    rintro rfl
    cases ends : endsAsDirectory name <;> cases denied : tree.denies .read path <;>
      rcases node with _ | _ | _ | _ <;> simp_all [pure, Except.pure]

theorem eq_nullCharacter_iff_of_writable {tree : FileTree} {name : Text} {problem : FileProblem}
    (refused : tree.writable name = .error problem) :
    problem = .nullCharacter ↔ '\x00' ∈ name := by
  rw [writable, bind_eq_error_iff] at refused
  rcases refused with refused | ⟨⟨path, node⟩, resolved, refused⟩
  · exact eq_nullCharacter_iff_of_resolve refused
  · simp only [notMem_of_resolve resolved, iff_false]
    rintro rfl
    cases ends : endsAsDirectory name <;> cases admitted : tree.admits path <;>
      rcases node with _ | _ | _ | _ <;> simp_all [pure, Except.pure]

end FileTree

end BundleDecl
