import BundleDecl.Failure
import Mathlib.Data.List.Forall2

/-!
# Laws of outcomes

When a computation that may fail yields a result: each of its steps does, and no step reports a
failure. And which failure it reports otherwise: the one of its first step that fails. The items of
a list and the results for them are related one by one.
-/

namespace BundleDecl

@[simp]
theorem fail_ne_ok {Result : Type} {cause : Cause} {result : Result} :
    fail cause ≠ .ok result := by
  simp [fail]

@[simp]
theorem failAt_ne_ok {Result : Type} {line : Nat} {cause : Cause} {result : Result} :
    failAt line cause ≠ .ok result := by
  simp [failAt]

@[simp]
theorem fail_eq_error_iff {Result : Type} {cause : Cause} {failure : Failure} :
    (fail cause : Except Failure Result) = .error failure ↔ ⟨cause, none⟩ = failure := by
  simp [fail]

@[simp]
theorem failAt_eq_error_iff {Result : Type} {line : Nat} {cause : Cause} {failure : Failure} :
    (failAt line cause : Except Failure Result) = .error failure ↔
      ⟨cause, some (line : Int)⟩ = failure := by
  simp [failAt]

theorem Failure.locate_eq_of_line_eq_none {failure : Failure} (unlocated : failure.line = none)
    (line : Int) : failure.locate line = ⟨failure.cause, some line⟩ := by
  rw [locate, unlocated]

variable {Error First Second : Type}

@[simp]
theorem pure_ne_error {first : First} {failure : Error} :
    (pure first : Except Error First) ≠ .error failure := by
  simp [pure, Except.pure]

@[simp]
theorem pure_eq_ok_iff {first result : First} :
    (pure first : Except Error First) = .ok result ↔ first = result := by
  simp [pure, Except.pure]

theorem bind_eq_ok_iff {outcome : Except Error First} {next : First → Except Error Second}
    {result : Second} :
    outcome >>= next = .ok result ↔ ∃ first, outcome = .ok first ∧ next first = .ok result := by
  cases outcome <;> simp [bind, Except.bind]

theorem map_eq_ok_iff {outcome : Except Error First} {change : First → Second} {result : Second} :
    change <$> outcome = .ok result ↔ ∃ first, outcome = .ok first ∧ change first = result := by
  cases outcome <;> simp [Functor.map, Except.map]

theorem mapError_eq_ok_iff {Other : Type} {outcome : Except Error First} {change : Error → Other}
    {result : First} : outcome.mapError change = .ok result ↔ outcome = .ok result := by
  cases outcome with
  | error failure => exact ⟨nofun, nofun⟩
  | ok first =>
      change (.ok first : Except Other First) = .ok result ↔ _
      simp only [Except.ok.injEq]

theorem mapError_eq_error_iff {Other : Type} {outcome : Except Error First}
    {change : Error → Other} {other : Other} :
    outcome.mapError change = .error other ↔
      ∃ failure, outcome = .error failure ∧ change failure = other := by
  cases outcome with
  | error failure =>
      change (.error (change failure) : Except Other First) = .error other ↔ _
      simp
  | ok first => exact ⟨nofun, nofun⟩

/-- A check of all items passes if and only if it passes for each of them. -/
theorem forM_eq_ok_iff {Item : Type} {check : Item → Except Error Unit} {items : List Item} :
    items.forM check = .ok () ↔ ∀ item ∈ items, check item = .ok () := by
  induction items with
  | nil => simp [List.forM]
  | cons item items ih =>
      rw [List.forM, bind_eq_ok_iff, List.forall_mem_cons]
      constructor
      · rintro ⟨⟨⟩, checked, others⟩
        exact ⟨checked, ih.1 others⟩
      · rintro ⟨checked, others⟩
        exact ⟨(), checked, ih.2 others⟩

/-- What every step keeps holds after all steps. -/
theorem invariant_of_foldlM_eq_ok {State Item : Type} {step : State → Item → Except Error State}
    (invariant : State → Prop)
    (kept : ∀ state item next, invariant state → step state item = .ok next → invariant next)
    {state result : State} {items : List Item} (start : invariant state)
    (steps : items.foldlM step state = .ok result) : invariant result := by
  induction items generalizing state with
  | nil =>
      rcases Except.ok.inj steps with rfl
      exact start
  | cons item items ih =>
      rw [List.foldlM_cons, bind_eq_ok_iff] at steps
      rcases steps with ⟨next, taken, steps⟩
      exact ih (kept state item next start taken) steps

/-- What every step shows of its item holds of all items. -/
theorem forall_of_foldlM_eq_ok {State Item : Type} {step : State → Item → Except Error State}
    {property : Item → Prop} (shown : ∀ state item next, step state item = .ok next → property item)
    {state result : State} {items : List Item} (steps : items.foldlM step state = .ok result) :
    ∀ item ∈ items, property item := by
  induction items generalizing state with
  | nil => exact List.forall_mem_nil _
  | cons item items ih =>
      rw [List.foldlM_cons, bind_eq_ok_iff] at steps
      rcases steps with ⟨next, taken, steps⟩
      exact List.forall_mem_cons.2 ⟨shown state item next taken, ih steps⟩

/-- A step for all items succeeds with the results of the single steps. -/
theorem mapM_eq_ok_iff {Item Value : Type} {step : Item → Except Error Value} {items : List Item}
    {values : List Value} :
    items.mapM step = .ok values ↔
      List.Forall₂ (fun item value => step item = .ok value) items values := by
  induction items generalizing values with
  | nil =>
      rw [List.mapM_nil, pure_eq_ok_iff, List.forall₂_nil_left_iff, eq_comm]
  | cons item items ih =>
      simp only [List.mapM_cons, bind_eq_ok_iff, pure_eq_ok_iff, List.forall₂_cons_left_iff, ih]
      constructor
      · rintro ⟨value, taken, others, steps, rfl⟩
        exact ⟨value, others, taken, steps, rfl⟩
      · rintro ⟨value, others, taken, steps, rfl⟩
        exact ⟨value, taken, others, steps, rfl⟩

/-! ## Related lists -/

variable {Item Value : Type} {related : Item → Value → Prop}

/-- Items that are related to some value each are related to the values of some list. -/
theorem exists_forall₂ {items : List Item} (each : ∀ item ∈ items, ∃ value, related item value) :
    ∃ values, List.Forall₂ related items values := by
  induction items with
  | nil => exact ⟨[], .nil⟩
  | cons item items ih =>
      rw [List.forall_mem_cons] at each
      rcases each.1 with ⟨value, first⟩
      rcases ih each.2 with ⟨values, others⟩
      exact ⟨value :: values, .cons first others⟩

theorem exists_right_of_forall₂ {items : List Item} {values : List Value}
    (all : List.Forall₂ related items values) {item : Item} (member : item ∈ items) :
    ∃ value ∈ values, related item value := by
  induction all with
  | nil => contradiction
  | cons first _ ih =>
      rcases List.mem_cons.1 member with rfl | member
      · exact ⟨_, List.mem_cons_self, first⟩
      · rcases ih member with ⟨value, valueMem, known⟩
        exact ⟨value, List.mem_cons_of_mem _ valueMem, known⟩

theorem exists_left_of_forall₂ {items : List Item} {values : List Value}
    (all : List.Forall₂ related items values) {value : Value} (member : value ∈ values) :
    ∃ item ∈ items, related item value := by
  have flipped : List.Forall₂ (flip related) values items := all.flip
  exact exists_right_of_forall₂ flipped member

/-- Related lists are split at the same place. -/
theorem exists_split_of_forall₂ {before after : List Item} {item : Item} {values : List Value}
    (all : List.Forall₂ related (before ++ item :: after) values) :
    ∃ first value last, first ++ value :: last = values ∧
      List.Forall₂ related before first ∧ related item value ∧ List.Forall₂ related after last := by
  induction before generalizing values with
  | nil =>
      rcases List.forall₂_cons_left_iff.1 all with ⟨value, last, known, lastKnown, rfl⟩
      exact ⟨[], value, last, rfl, .nil, known, lastKnown⟩
  | cons earlier before ih =>
      rcases List.forall₂_cons_left_iff.1 all with ⟨other, others, known, rest, rfl⟩
      rcases ih rest with ⟨first, value, last, rfl, firstKnown, others⟩
      exact ⟨other :: first, value, last, rfl, .cons known firstKnown, others⟩

/-- Lists have the same image if and only if their items do one by one. -/
theorem map_eq_map_iff_forall₂ {Image : Type} {left : List Item} {right : List Value}
    {first : Item → Image} {second : Value → Image} :
    left.map first = right.map second ↔
      List.Forall₂ (fun item value => first item = second value) left right := by
  rw [← List.forall₂_eq_eq_eq, List.forall₂_map_left_iff, List.forall₂_map_right_iff]

theorem exists_item_of_mapM_eq_ok {step : Item → Except Error Value} {items : List Item}
    {values : List Value} (steps : items.mapM step = .ok values) {value : Value}
    (member : value ∈ values) : ∃ item ∈ items, step item = .ok value :=
  exists_left_of_forall₂ (mapM_eq_ok_iff.1 steps) member

/-! ## Failures -/

theorem bind_eq_error_iff {outcome : Except Error First} {next : First → Except Error Second}
    {failure : Error} :
    outcome >>= next = .error failure ↔
      outcome = .error failure ∨ ∃ first, outcome = .ok first ∧ next first = .error failure := by
  cases outcome <;> simp [bind, Except.bind]

theorem map_eq_error_iff {outcome : Except Error First} {change : First → Second}
    {failure : Error} : change <$> outcome = .error failure ↔ outcome = .error failure := by
  cases outcome <;> simp [Functor.map, Except.map]

theorem mapError_bind {Other : Type} {outcome : Except Error First}
    {next : First → Except Error Second} {change : Error → Other} :
    (outcome >>= next).mapError change =
      outcome.mapError change >>= fun first => (next first).mapError change := by
  cases outcome <;> rfl

/-- Steps one after the other fail at the first of them that fails. -/
theorem foldlM_eq_error_iff {State Item : Type} {step : State → Item → Except Error State}
    {state : State} {items : List Item} {failure : Error} :
    items.foldlM step state = .error failure ↔
      ∃ before item after middle, before ++ item :: after = items ∧
        before.foldlM step state = .ok middle ∧ step middle item = .error failure := by
  induction items generalizing state with
  | nil => simp
  | cons item items ih =>
      rw [List.foldlM_cons, bind_eq_error_iff]
      constructor
      · rintro (refused | ⟨next, taken, refused⟩)
        · exact ⟨[], item, items, state, rfl, rfl, refused⟩
        · rcases ih.1 refused with ⟨before, later, after, middle, rfl, steps, refused⟩
          refine ⟨item :: before, later, after, middle, rfl, ?_, refused⟩
          rw [List.foldlM_cons, bind_eq_ok_iff]
          exact ⟨next, taken, steps⟩
      · rintro ⟨before, later, after, middle, split, steps, refused⟩
        rcases List.append_eq_cons_iff.1 split with ⟨rfl, same⟩ | ⟨before, rfl, rfl⟩
        · rcases List.cons.inj same with ⟨rfl, rfl⟩
          rcases Except.ok.inj steps with rfl
          exact .inl refused
        · rw [List.foldlM_cons, bind_eq_ok_iff] at steps
          rcases steps with ⟨next, taken, steps⟩
          exact .inr ⟨next, taken, ih.2 ⟨before, later, after, middle, rfl, steps, refused⟩⟩

/-- A check of all items reports what is wrong with the first item that does not pass. -/
theorem forM_eq_error_iff {Item : Type} {check : Item → Except Error Unit} {items : List Item}
    {failure : Error} :
    items.forM check = .error failure ↔ ∃ before item after, items = before ++ item :: after ∧
      (∀ earlier ∈ before, check earlier = .ok ()) ∧ check item = .error failure := by
  induction items with
  | nil => simp [List.forM]
  | cons item items ih =>
      rw [List.forM, bind_eq_error_iff, ih]
      constructor
      · rintro (refused | ⟨⟨⟩, checked, before, later, after, rfl, passed, refused⟩)
        · exact ⟨[], item, items, rfl, nofun, refused⟩
        · refine ⟨item :: before, later, after, rfl, ?_, refused⟩
          exact List.forall_mem_cons.2 ⟨checked, passed⟩
      · rintro ⟨before, later, after, split, passed, refused⟩
        rcases List.cons_eq_append_iff.1 split with ⟨rfl, same⟩ | ⟨before, rfl, rfl⟩
        · rcases List.cons.inj same with ⟨rfl, rfl⟩
          exact .inl refused
        · rw [List.forall_mem_cons] at passed
          exact .inr ⟨(), passed.1, before, later, after, rfl, passed.2, refused⟩

end BundleDecl
