import BundleDecl.Host
import BundleDecl.Proofs.Failure

/-!
# Interruptions

A computation within the limits of a host has a result, is refused or is interrupted, and which of
these it is depends on its interruption and on what it results in without limits. Where each of many
steps may be interrupted, all steps together are interrupted exactly as they are one by one.
-/

namespace BundleDecl

section

variable {Error Result : Type} {interruption : Option Interruption}
  {outcome : Except Error Result}

theorem interruptedBy_eq_ok_iff {result : Result} :
    interruptedBy interruption outcome = .ok result ↔
      interruption = none ∧ outcome = .ok result := by
  cases interruption <;> cases outcome <;> simp [interruptedBy, Except.mapError]

theorem interruptedBy_eq_refused_iff {error : Error} :
    interruptedBy interruption outcome = .error (.refused error) ↔
      interruption = none ∧ outcome = .error error := by
  cases interruption <;> cases outcome <;> simp [interruptedBy, Except.mapError]

theorem interruptedBy_eq_interrupted_iff {found : Interruption} :
    interruptedBy interruption outcome = .error (.interrupted found) ↔
      interruption = some found := by
  cases interruption <;> cases outcome <;> simp [interruptedBy, Except.mapError]

end

section

variable {State Item Error : Type}

/-- A step, unless an interruption comes when it is made. -/
def stepWithin (interruption? : State → Item → Option Interruption)
    (step : State → Item → Except Error State) (state : State) (item : Item) :
    Except (Halt Error) State :=
  interruptedBy (interruption? state item) (step state item)

variable {interruption? : State → Item → Option Interruption}
  {step : State → Item → Except Error State} {state : State} {items : List Item}

/-- Steps that may be interrupted one by one lead to where the steps without interruptions do, or to
the interruption that comes first. -/
theorem foldlM_stepWithin :
    items.foldlM (stepWithin interruption? step) state =
      interruptedBy ((firstInterruption? interruption? step state items).map Prod.fst)
        (items.foldlM step state) := by
  induction items generalizing state with
  | nil => rfl
  | cons item items ih =>
      rw [List.foldlM_cons, List.foldlM_cons, firstInterruption?, stepWithin]
      cases interruption? state item with
      | some found => rfl
      | none =>
          cases step state item with
          | ok next => exact ih
          | error error => rfl

/-- The interruption that comes first comes behind items that are stepped over without one. -/
theorem firstInterruption?_eq_some_iff {interruption : Interruption} :
    (firstInterruption? interruption? step state items).map Prod.fst = some interruption ↔
      ∃ before item after reached, before ++ item :: after = items ∧
        before.foldlM (stepWithin interruption? step) state = .ok reached ∧
        interruption? reached item = some interruption := by
  have together : items.foldlM (stepWithin interruption? step) state =
        .error (.interrupted interruption) ↔
      (firstInterruption? interruption? step state items).map Prod.fst = some interruption := by
    rw [foldlM_stepWithin, interruptedBy_eq_interrupted_iff]
  rw [← together, foldlM_eq_error_iff]
  simp only [stepWithin, interruptedBy_eq_interrupted_iff]

end

end BundleDecl
