import Mathlib.Algebra.GroupWithZero.Nat
import Mathlib.Data.Fintype.Card
import Mathlib.Logic.Function.Basic
import Mathlib.Logic.Relation
import Mathlib.Tactic.Common

/-! # Processes that meet in collective operations

Every process runs on its own until it takes part in a collective operation or ends. The
operation is performed when all processes have come to one. `Ends` follows the processes from
one operation to the next, and what it says holds for every order of the steps in between.
-/

namespace Collective

set_option autoImplicit false

variable {Q : Type} {A : Q → Type} {ε ρ σ : Type} {n : Nat}

/-- A process takes part in a collective operation and goes on with the answer it gets, or has
ended. -/
inductive Process (A : Q → Type) (ε ρ : Type)
  | ended (outcome : Except ε ρ)
  | call (request : Q) (next : A request → Process A ε ρ)

namespace Process

def bind : Process A ε ρ → (ρ → Process A ε σ) → Process A ε σ
  | .ended (.ok a), f => f a
  | .ended (.error e), _ => .ended (.error e)
  | .call request next, f => .call request fun answer => bind (next answer) f

instance : Monad (Process A ε) where
  pure a := .ended (.ok a)
  bind := bind

instance : MonadExceptOf ε (Process A ε) where
  throw e := .ended (.error e)
  tryCatch p handle := match p with
    | .ended (.error e) => handle e
    | p => p

def request (q : Q) : Process A ε (A q) := .call q pure

end Process

/-- A busy process has not come to its next operation or its end yet. -/
structure Rank (A : Q → Type) (ε ρ : Type) where
  process : Process A ε ρ
  busy : Bool

namespace Rank

variable (rank : Rank A ε ρ)

def Waiting : Prop := rank.busy = false ∧ ∃ q next, rank.process = .call q next

def Thrown : Prop := rank.busy = false ∧ ∃ e, rank.process = .ended (.error e)

def Returned (a : ρ) : Prop := rank.busy = false ∧ rank.process = .ended (.ok a)

end Rank

abbrev State (A : Q → Type) (ε ρ : Type) (n : Nat) : Type := Fin n → Rank A ε ρ

def start (programs : Fin n → Process A ε ρ) : State A ε ρ n := fun i => ⟨programs i, true⟩

/-- The answers that the processes get to their requests. -/
abbrev Perform (A : Q → Type) (n : Nat) : Type :=
  (requests : Fin n → Q) → (i : Fin n) → A (requests i)

inductive Step (perform : Perform A n) : State A ε ρ n → State A ε ρ n → Prop
  | arrive {s : State A ε ρ n} (i : Fin n) (hBusy : (s i).busy = true) :
    Step perform s (Function.update s i { s i with busy := false })
  | complete {s : State A ε ρ n} (requests : Fin n → Q)
    (next : ∀ i, A (requests i) → Process A ε ρ)
    (hCall : ∀ i, s i = ⟨.call (requests i) (next i), false⟩) :
    Step perform s (start fun i => next i (perform requests i))

def Reachable (perform : Perform A n) (programs : Fin n → Process A ε ρ) :
    State A ε ρ n → Prop :=
  Relation.ReflTransGen (Step perform) (start programs)

/-- From one operation to the next all processes make allowed requests, then all have ended. -/
inductive Ends (perform : Perform A n) (allowed : Fin n → Q → Prop) :
    (Fin n → Process A ε ρ) → (Fin n → Except ε ρ) → Prop
  | ended (outcomes : Fin n → Except ε ρ) :
    Ends perform allowed (fun i => .ended (outcomes i)) outcomes
  | call {requests : Fin n → Q} {next : ∀ i, A (requests i) → Process A ε ρ}
    {outcomes : Fin n → Except ε ρ} (hAllowed : ∀ i, allowed i (requests i))
    (hNext : Ends perform allowed (fun i => next i (perform requests i)) outcomes) :
    Ends perform allowed (fun i => .call (requests i) (next i)) outcomes

section Rules

variable {perform : Perform A n} {allowed : Fin n → Q → Prop} {p : Fin n → Process A ε ρ}
  {outcomes : Fin n → Except ε ρ} {a : Fin n → ρ}

/-- All processes go on with their results. -/
def Yields (perform : Perform A n) (allowed : Fin n → Q → Prop) (p : Fin n → Process A ε ρ)
    (a : Fin n → ρ) : Prop :=
  Ends perform allowed p fun i => .ok (a i)

theorem yields_pure (a : Fin n → ρ) :
    Yields perform allowed (fun i => (pure (a i) : Process A ε ρ)) a := .ended _

theorem ends_throw (errors : Fin n → ε) :
    Ends perform allowed (fun i => (throw (errors i) : Process A ε ρ))
      fun i => .error (errors i) := .ended _

theorem yields_call {requests : Fin n → Q} {next : ∀ i, A (requests i) → Process A ε ρ}
    (hAllowed : ∀ i, allowed i (requests i))
    (hNext : ∀ i, next i (perform requests i) = pure (a i)) :
    Yields perform allowed (fun i => .call (requests i) (next i)) a := by
  apply Ends.call hAllowed
  rw [funext hNext]
  exact yields_pure a

theorem Yields.bind {f : Fin n → ρ → Process A ε σ} {outcomes : Fin n → Except ε σ}
    (h : Yields perform allowed p a)
    (hNext : Ends perform allowed (fun i => f i (a i)) outcomes) :
    Ends perform allowed (fun i => p i >>= f i) outcomes := by
  rw [Yields] at h
  generalize hOutcomes : (fun i => (Except.ok (a i) : Except ε ρ)) = results at h
  induction h with
  | ended results =>
    obtain rfl := hOutcomes
    exact hNext
  | call hAllowed _ ih => exact .call hAllowed (ih hOutcomes)

theorem Yields.bind_yields {f : Fin n → ρ → Process A ε σ} {b : Fin n → σ}
    (h : Yields perform allowed p a) (hNext : Yields perform allowed (fun i => f i (a i)) b) :
    Yields perform allowed (fun i => p i >>= f i) b :=
  h.bind hNext

end Rules

section Runs

variable {perform : Perform A n} {allowed : Fin n → Q → Prop} {s t : State A ε ρ n}
  {programs : Fin n → Process A ε ρ} {outcomes : Fin n → Except ε ρ}

def processes (s : State A ε ρ n) : Fin n → Process A ε ρ := fun i => (s i).process

def busyRanks (s : State A ε ρ n) : Finset (Fin n) := Finset.univ.filter fun i => (s i).busy

theorem processes_start (programs : Fin n → Process A ε ρ) : processes (start programs) = programs :=
  rfl

theorem processes_arrive (s : State A ε ρ n) (i : Fin n) :
    processes (Function.update s i { s i with busy := false }) = processes s := by
  funext j
  rw [processes, processes, Function.update_apply]
  split
  · next hj => rw [hj]
  · rfl

theorem busyRanks_arrive (s : State A ε ρ n) (i : Fin n) :
    busyRanks (Function.update s i { s i with busy := false }) = (busyRanks s).erase i := by
  ext j
  rw [busyRanks, busyRanks, Finset.mem_erase, Finset.mem_filter, Finset.mem_filter,
    Function.update_apply]
  split
  · next hj => simp [hj]
  · next hj => simp [hj]

theorem next_eq_of_call_eq {requests requests' : Fin n → Q}
    {next : ∀ i, A (requests i) → Process A ε ρ} {next' : ∀ i, A (requests' i) → Process A ε ρ}
    (h : ∀ i, (.call (requests i) (next i) : Process A ε ρ) = .call (requests' i) (next' i)) :
    (fun i => next i (perform requests i)) = fun i => next' i (perform requests' i) := by
  have hRequests : requests = requests' := funext fun i => (Process.call.inj (h i)).1
  subst hRequests
  have hNext : next = next' := funext fun i => eq_of_heq (Process.call.inj (h i)).2
  rw [hNext]

/-- When one process has ended, all have. -/
theorem Ends.eq_ended {p : Fin n → Process A ε ρ} (h : Ends perform allowed p outcomes)
    {i : Fin n} {outcome : Except ε ρ} (hEnded : p i = .ended outcome) (j : Fin n) :
    p j = .ended (outcomes j) := by
  cases h with
  | ended outcomes => rfl
  | call hAllowed hNext => nomatch hEnded

theorem Ends.allowed_of_call {p : Fin n → Process A ε ρ} (h : Ends perform allowed p outcomes)
    {i : Fin n} {q : Q} {next : A q → Process A ε ρ} (hCall : p i = .call q next) :
    allowed i q := by
  cases h with
  | ended outcomes => nomatch hCall
  | call hAllowed hNext =>
    obtain ⟨rfl, -⟩ := Process.call.inj hCall
    exact hAllowed i

/-- Where no step is possible, all processes have ended. -/
theorem Ends.of_stuck (h : Ends perform allowed (processes s) outcomes)
    (hStuck : ∀ t, ¬ Step perform s t) (i : Fin n) :
    s i = ⟨.ended (outcomes i), false⟩ := by
  have hIdle : ∀ j, (s j).busy = false := by
    intro j
    by_contra hBusy
    exact hStuck _ (.arrive j (Bool.eq_true_of_not_eq_false hBusy))
  generalize hp : processes s = p at h
  have hRank : ∀ j, s j = ⟨p j, false⟩ := by
    intro j
    rw [← hp, ← hIdle j, processes]
  cases h with
  | ended outcomes => exact hRank i
  | call hAllowed hNext => exact absurd (.complete _ _ hRank) (hStuck _)

theorem acc_of_complete {p : Fin n → Process A ε ρ}
    (hComplete : ∀ (requests : Fin n → Q) (next : ∀ i, A (requests i) → Process A ε ρ),
      p = (fun i => .call (requests i) (next i)) →
        Acc (fun t s => Step perform s t) (start fun i => next i (perform requests i)))
    (hs : processes s = p) : Acc (fun t s => Step perform s t) s := by
  induction hBusy : busyRanks s using Finset.strongInduction generalizing s with
  | H busy ih =>
    constructor
    intro t hStep
    cases hStep with
    | arrive i hArrive =>
      have hMem : i ∈ busy := hBusy ▸ Finset.mem_filter.mpr ⟨Finset.mem_univ i, hArrive⟩
      have hFewer := busyRanks_arrive s i
      rw [hBusy] at hFewer
      exact ih _ (Finset.erase_ssubset hMem) ((processes_arrive s i).trans hs) hFewer
    | complete requests next hCall =>
      apply hComplete requests next
      rw [← hs]
      funext i
      rw [processes, hCall i]

/-- Every run comes to its end, where every process has its result, and makes allowed requests
only. -/
structure Completes (perform : Perform A n) (allowed : Fin n → Q → Prop)
    (programs : Fin n → Process A ε ρ) (results : Fin n → ρ) : Prop where
  requests : ∀ s, Reachable perform programs s → ∀ i q next, (s i).process = .call q next →
    allowed i q
  results : ∀ s, Reachable perform programs s → (∀ t, ¬ Step perform s t) →
    ∀ i, (s i).Returned (results i)
  terminates : Acc (fun t s => Step perform s t) (start programs)

/-- Errors are collective: no process waits for one that has thrown, and at the end either all
have a result or all have thrown. -/
structure CollectiveErrors (perform : Perform A n) (programs : Fin n → Process A ε ρ) : Prop where
  noWaiting : ∀ s, Reachable perform programs s → ∀ i j, (s i).Thrown → ¬ (s j).Waiting
  outcome : ∀ s, Reachable perform programs s → (∀ t, ¬ Step perform s t) →
    (∀ i, ∃ a, (s i).Returned a) ∨ ∀ i, (s i).Thrown

/-- One process throws at once, another waits in an operation. -/
theorem not_collective {i j : Fin n} {e : ε} {q : Q} {next : A q → Process A ε ρ}
    (hThrown : programs i = .ended (.error e)) (hWaiting : programs j = .call q next) :
    ¬ CollectiveErrors perform programs := by
  intro h
  have hNe : j ≠ i := by
    rintro rfl
    nomatch hThrown.symm.trans hWaiting
  have hSteps : Reachable perform programs
      (Function.update (Function.update (start programs) i ⟨programs i, false⟩) j
        ⟨programs j, false⟩) := by
    refine (Relation.ReflTransGen.single (.arrive i rfl)).tail ?_
    have hStart : Function.update (start programs) i ⟨programs i, false⟩ j = start programs j :=
      Function.update_of_ne hNe _ _
    have hBusy : (Function.update (start programs) i ⟨programs i, false⟩ j).busy = true := by
      rw [hStart]
      rfl
    have hArrive : Step perform _ _ := .arrive j hBusy
    rwa [hStart] at hArrive
  refine h.noWaiting _ hSteps i j ?_ ?_
  · rw [Function.update_of_ne hNe.symm, Function.update_self]
    exact ⟨rfl, e, hThrown⟩
  · rw [Function.update_self]
    exact ⟨rfl, q, next, hWaiting⟩

end Runs

section Outcomes

variable [NeZero n] {perform : Perform A n} {allowed : Fin n → Q → Prop} {s t : State A ε ρ n}
  {programs : Fin n → Process A ε ρ} {outcomes : Fin n → Except ε ρ}

theorem Ends.step (h : Ends perform allowed (processes s) outcomes) (hStep : Step perform s t) :
    Ends perform allowed (processes t) outcomes := by
  cases hStep with
  | arrive i hBusy =>
    rw [processes_arrive]
    exact h
  | complete requests next hCall =>
    have hProcesses : processes s = fun i => .call (requests i) (next i) := by
      funext i
      rw [processes, hCall i]
    rw [hProcesses] at h
    generalize hp : (fun i => (.call (requests i) (next i) : Process A ε ρ)) = p at h
    cases h with
    | ended outcomes => nomatch congrFun hp 0
    | call hAllowed hNext =>
      rw [processes_start, next_eq_of_call_eq (congrFun hp)]
      exact hNext

theorem Ends.reachable (h : Ends perform allowed programs outcomes)
    (hReachable : Reachable perform programs s) :
    Ends perform allowed (processes s) outcomes := by
  induction hReachable with
  | refl => exact h
  | tail _ hStep ih => exact ih.step hStep

/-- No run goes on for ever. -/
theorem Ends.acc (h : Ends perform allowed programs outcomes) (hs : processes s = programs) :
    Acc (fun t s => Step perform s t) s := by
  induction h generalizing s with
  | ended outcomes =>
    apply acc_of_complete ?_ hs
    intro requests next hCall
    nomatch congrFun hCall 0
  | call hAllowed _ ih =>
    apply acc_of_complete ?_ hs
    intro requests next hCall
    exact ih (next_eq_of_call_eq (congrFun hCall)).symm

theorem Yields.completes {results : Fin n → ρ} (h : Yields perform allowed programs results) :
    Completes perform allowed programs results where
  requests s hs i q next hCall := (h.reachable hs).allowed_of_call hCall
  results s hs hStuck i := by
    rw [(h.reachable hs).of_stuck hStuck i]
    exact ⟨rfl, rfl⟩
  terminates := h.acc rfl

theorem Ends.collective (h : Ends perform allowed programs outcomes)
    (hSame : (∀ i, ∃ a, outcomes i = .ok a) ∨ ∀ i, ∃ e, outcomes i = .error e) :
    CollectiveErrors perform programs where
  noWaiting s hs i j hThrown hWaiting := by
    obtain ⟨-, e, hEnded⟩ := hThrown
    obtain ⟨-, q, next, hCall⟩ := hWaiting
    nomatch hCall.symm.trans ((h.reachable hs).eq_ended hEnded j)
  outcome s hs hStuck := by
    have hFinal := (h.reachable hs).of_stuck hStuck
    refine hSame.imp ?_ ?_
    · intro hOk i
      obtain ⟨a, ha⟩ := hOk i
      exact ⟨a, by rw [hFinal i, ha]; exact ⟨rfl, rfl⟩⟩
    · intro hError i
      obtain ⟨e, he⟩ := hError i
      rw [hFinal i, he]
      exact ⟨rfl, e, rfl⟩

end Outcomes

end Collective
