import CoSimIO.Library.DuplexConfluence

/-! # Dialogs

Two processes have a dialog when the one sends what the other one reads at once. Then every run of
them, with segments of any length in any order, ends with the results of the dialog.
-/

namespace Duplex

set_option autoImplicit false

variable {β E E' ρ σ ρ' σ' τ : Type}

namespace Process

@[simp] theorem bind_ended (p : Process β E ρ) : p.bind .ended = p := by
  induction p with
  | ended result => rfl
  | write data next ih => rw [bind, ih]
  | read count next ih => rw [bind, funext ih]
  | report event next ih => rw [bind, ih]

theorem bind_assoc (p : Process β E ρ) (f : ρ → Process β E σ) (g : σ → Process β E τ) :
    (p.bind f).bind g = p.bind fun a => (f a).bind g := by
  induction p with
  | ended result => rfl
  | write data next ih => rw [bind, bind, bind, ih]
  | read count next ih => rw [bind, bind, bind, funext ih]
  | report event next ih => rw [bind, bind, bind, ih]

/-- The process without its reports -/
def silent : Process β E ρ → Process β E' ρ
  | .ended result => .ended result
  | .write data next => .write data (silent next)
  | .read count next => .read count fun got => silent (next got)
  | .report _ next => silent next

end Process

section Both

variable {γ : Type}

def both (x y : γ) : Party → γ
  | .one => x
  | .two => y

theorem both_self (x : γ) : both x x = fun _ => x := by
  funext a
  cases a with
  | one => rfl
  | two => rfl

theorem both_other (x y : γ) : (fun a => both x y a.other) = both y x := by
  funext a
  cases a with
  | one => rfl
  | two => rfl

theorem both_append (xs ys xs' ys' : List γ) :
    (fun a => both xs ys a ++ both xs' ys' a) = both (xs ++ xs') (ys ++ ys') := by
  funext a
  cases a with
  | one => rfl
  | two => rfl

end Both

section Swap

/-- The parties have changed their places. -/
def State.swap (s : State β E) : State β E := fun a => s a.other

variable {s t : State β E} {a : Party}

theorem State.swap_act (p : Process β E Unit) (out : List β) (events : List E) (arrived : List β) :
    (s.act a p out events arrived).swap = s.swap.act a.other p out events arrived :=
  State.ext_party (a := a) (by simp [State.swap]) (by simp [State.swap])

theorem State.swap_pass (segment rest : List β) :
    (s.pass a segment rest).swap = s.swap.pass a.other segment rest :=
  State.ext_party (a := a) (by simp [State.swap]) (by simp [State.swap])

theorem Step.swap (h : Step s t) : Step s.swap t.swap := by
  rcases step_cases h with ⟨a, q, out, got, events, p, r, hProcess, hTransition, hArrived, rfl⟩ |
    ⟨a, segment, rest, hInFlight, hSegment, rfl⟩
  · rw [State.swap_act]
    refine step_act ?_ hTransition ?_
    · simpa [State.swap] using hProcess
    · simpa [State.swap] using hArrived
  · rw [State.swap_pass]
    refine step_pass segment rest ?_ hSegment
    simpa [State.swap] using hInFlight

theorem Talks.swap {p q : Party → Process β E Unit} {events : Party → List E}
    (h : Talks p events q) :
    Talks (fun a => p a.other) (fun a => events a.other) (fun a => q a.other) := by
  intro reported
  have hRun : Relation.ReflTransGen Step (quiet p fun a => reported a.other).swap
      (quiet q fun a => reported a.other ++ events a).swap :=
    (h fun a => reported a.other).lift State.swap fun _ _ => Step.swap
  have hStart : (quiet p fun a => reported a.other).swap = quiet (fun a => p a.other) reported := by
    funext a
    simp [State.swap, quiet]
  have hEnd : (quiet q fun a => reported a.other ++ events a).swap =
      quiet (fun a => q a.other) fun a => reported a ++ events a.other := by
    funext a
    simp [State.swap, quiet]
  rwa [hStart, hEnd] at hRun

end Swap

/-- Whatever follows, the processes get to their results and report the events. -/
def Dialog (p : Process β E ρ) (q : Process β E σ) (events events' : List E) (x : ρ) (y : σ) :
    Prop :=
  ∀ (k : ρ → Process β E Unit) (l : σ → Process β E Unit),
    Talks (both (p.bind k) (q.bind l)) (both events events') (both (k x) (l y))

namespace Dialog

variable {p : Process β E ρ} {q : Process β E σ} {events events' later later' : List E}
  {x : ρ} {y : σ} {x' : ρ'} {y' : σ'}

theorem pure (x : ρ) (y : σ) : Dialog (β := β) (E := E) (.ended x) (.ended y) [] [] x y := by
  intro k l
  rw [both_self]
  exact .refl _

theorem symm (h : Dialog p q events events' x y) : Dialog q p events' events y x := by
  intro k l
  have hSwap := (h l k).swap
  simp only [both_other] at hSwap
  exact hSwap

theorem bind (h : Dialog p q events events' x y) {f : ρ → Process β E ρ'}
    {g : σ → Process β E σ'} (h' : Dialog (f x) (g y) later later' x' y') :
    Dialog (p.bind f) (q.bind g) (events ++ later) (events' ++ later') x' y' := by
  intro k l
  rw [Process.bind_assoc, Process.bind_assoc, ← both_append]
  exact (h _ _).trans (h' k l)

theorem bind_left (h : Dialog p q events events' x y) {f : ρ → Process β E ρ'} {z : σ}
    (h' : Dialog (f x) (.ended y : Process β E σ) later later' x' z) :
    Dialog (p.bind f) q (events ++ later) (events' ++ later') x' z := by
  have hAll := h.bind (g := .ended) h'
  rwa [Process.bind_ended] at hAll

theorem bind_right (h : Dialog p q events events' x y) {g : σ → Process β E σ'} {z : ρ}
    (h' : Dialog (.ended x : Process β E ρ) (g y) later later' z y') :
    Dialog p (q.bind g) (events ++ later) (events' ++ later') z y' := by
  have hAll := h.bind (f := .ended) h'
  rwa [Process.bind_ended] at hAll

theorem send (data : List β) : Dialog (E := E) (.write data (.ended ()))
    (.read data.length .ended) [] [] () data := by
  intro k l
  rw [both_self]
  exact talks_transfer (a := .one) rfl rfl rfl rfl

theorem receive (data : List β) : Dialog (E := E) (.read data.length .ended)
    (.write data (.ended ())) [] [] data () := by
  intro k l
  rw [both_self]
  exact talks_transfer (a := .two) rfl rfl rfl rfl

theorem report_left (event : E) (y : σ) :
    Dialog (β := β) (.report event (.ended ())) (.ended y) [event] [] () y := by
  intro k l
  have hEvents : (both [event] [] : Party → List E) = fun b => if b = .one then [event] else [] := by
    funext a
    cases a with
    | one => rfl
    | two => rfl
  rw [hEvents]
  exact talks_report (a := .one) rfl rfl rfl

theorem report_right (x : ρ) (event : E) :
    Dialog (β := β) (.ended x) (.report event (.ended ())) [] [event] x () := by
  intro k l
  have hEvents : (both [] [event] : Party → List E) = fun b => if b = .two then [event] else [] := by
    funext a
    cases a with
    | one => rfl
    | two => rfl
  rw [hEvents]
  exact talks_report (a := .two) rfl rfl rfl

end Dialog

/-- Two processes over a stream in each direction, which have a dialog: no run goes on for ever, what
has been reported is a part of the dialog, and where nothing can happen both have ended. -/
theorem Dialog.completes {p q : Process β E Unit} {events events' : List E}
    (h : Dialog p q events events' () ()) :
    Acc (fun t s => Step s t) (start (both p q)) ∧ ∀ s, Reachable (both p q) s →
      (∀ a, (s a).reported <+: both events events' a) ∧
      ((∀ t, ¬ Step s t) → s = quiet (fun _ => .ended ()) (both events events')) := by
  have hTalks := h .ended .ended
  rw [Process.bind_ended, Process.bind_ended, both_self] at hTalks
  exact ⟨acc_step _, fun s hReachable => hTalks.completes hReachable⟩

end Duplex
