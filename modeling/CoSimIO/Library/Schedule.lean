import Mathlib.Tactic.TypeStar

/-! # Runs of a partial step function under a schedule

A schedule lists the actions in the order in which they are taken. An action
that is not enabled ends the run, so a run exists only for feasible schedules.
Since schedules are arbitrary, what holds at the end of every run holds in every
state that a run passes.
-/

namespace Schedule

set_option autoImplicit false

variable {State Action : Type*} {step : State → Action → Option State}

def run (step : State → Action → Option State) (s : State) (schedule : List Action) :
    Option State :=
  schedule.foldlM step s

@[simp] theorem run_nil (s : State) : run step s [] = some s := rfl

@[simp] theorem run_cons (s : State) (a : Action) (schedule : List Action) :
    run step s (a :: schedule) = (step s a).bind fun t => run step t schedule := rfl

theorem run_append (s : State) (first second : List Action) :
    run step s (first ++ second) = (run step s first).bind fun t => run step t second :=
  List.foldlM_append

/-- Every action of the schedule is taken in a state that allows it. -/
def Meets (step : State → Action → Option State) (allowed : State → Action → Prop) :
    State → List Action → Prop
  | _, [] => True
  | s, a :: schedule => allowed s a ∧ ∀ t, step s a = some t → Meets step allowed t schedule

instance Meets.decidable {allowed : State → Action → Prop} [∀ s a, Decidable (allowed s a)] :
    ∀ s schedule, Decidable (Meets step allowed s schedule)
  | _, [] => isTrue trivial
  | s, a :: schedule =>
    match h : step s a with
    | none => decidable_of_iff (allowed s a) (by simp [Meets, h])
    | some t =>
      have : Decidable (Meets step allowed t schedule) := Meets.decidable t schedule
      decidable_of_iff (allowed s a ∧ Meets step allowed t schedule) (by simp [Meets, h])

theorem invariant_of_meets (inv : State → Prop) {allowed : State → Action → Prop}
    (preserved : ∀ s a t, inv s → allowed s a → step s a = some t → inv t)
    {s t : State} {schedule : List Action} (hInv : inv s)
    (hMeets : Meets step allowed s schedule) (hRun : run step s schedule = some t) : inv t := by
  induction schedule generalizing s with
  | nil =>
    cases hRun
    exact hInv
  | cons a schedule ih =>
    obtain ⟨middle, hStep, hRest⟩ := Option.bind_eq_some_iff.mp hRun
    exact ih (preserved s a middle hInv hMeets.1 hStep) (hMeets.2 middle hStep) hRest

theorem meets_of_forall {allowed : State → Action → Prop} (h : ∀ s a, allowed s a) (s : State)
    (schedule : List Action) : Meets step allowed s schedule := by
  induction schedule generalizing s with
  | nil => trivial
  | cons a schedule ih => exact ⟨h s a, fun t _ => ih t⟩

theorem invariant (inv : State → Prop)
    (preserved : ∀ s a t, inv s → step s a = some t → inv t)
    {s t : State} {schedule : List Action} (hInv : inv s)
    (hRun : run step s schedule = some t) : inv t := by
  have hMeets : Meets step (fun _ _ => True) s schedule :=
    meets_of_forall (fun _ _ => trivial) s schedule
  exact invariant_of_meets inv (fun s a t hInv _ hStep => preserved s a t hInv hStep) hInv hMeets hRun

/-- An invariant that implies the restriction makes every run a restricted one. -/
theorem meets_of_invariant (inv : State → Prop) {allowed : State → Action → Prop}
    (preserved : ∀ s a t, inv s → step s a = some t → inv t)
    (permitted : ∀ s a, inv s → allowed s a) {s : State} (hInv : inv s)
    (schedule : List Action) : Meets step allowed s schedule := by
  induction schedule generalizing s with
  | nil => trivial
  | cons a schedule ih =>
    exact ⟨permitted s a hInv, fun t hStep => ih (preserved s a t hInv hStep)⟩

end Schedule
