import Mathlib.Data.List.Infix
import Mathlib.Logic.Function.Basic
import Mathlib.Logic.Relation
import Mathlib.Tactic.Common

/-! # Two processes over a stream in each direction

What is written arrives in order, in segments of any length. A write puts its data on the way
piece by piece, a read takes what has arrived until it has as much as it asked for.
-/

namespace Duplex

set_option autoImplicit false

variable {β E ρ σ : Type}

/-- A process reports an event when something of interest has happened. -/
inductive Process (β E ρ : Type)
  | ended (result : ρ)
  | write (data : List β) (next : Process β E ρ)
  | read (count : Nat) (next : List β → Process β E ρ)
  | report (event : E) (next : Process β E ρ)

namespace Process

def bind : Process β E ρ → (ρ → Process β E σ) → Process β E σ
  | .ended a, f => f a
  | .write data next, f => .write data (bind next f)
  | .read count next, f => .read count fun got => bind (next got) f
  | .report event next, f => .report event (bind next f)

instance : Monad (Process β E) where
  pure := .ended
  bind := bind

end Process

inductive Party
  | one
  | two
deriving DecidableEq

namespace Party

def other : Party → Party
  | .one => .two
  | .two => .one

@[simp] theorem other_other (a : Party) : a.other.other = a := by
  cases a with
  | _ => rfl

theorem other_ne (a : Party) : a.other ≠ a := by
  cases a with
  | _ => decide

theorem eq_or_eq_other (a b : Party) : b = a ∨ b = a.other := by
  cases a with
  | one =>
    cases b with
    | one => exact .inl rfl
    | two => exact .inr rfl
  | two =>
    cases b with
    | one => exact .inr rfl
    | two => exact .inl rfl

end Party

/-- A party with what it has written: on the way, and where its partner can read it. -/
structure Endpoint (β E : Type) where
  process : Process β E Unit
  inFlight : List β
  arrived : List β
  reported : List E

abbrev State (β E : Type) : Type := Party → Endpoint β E

def start (programs : Party → Process β E Unit) : State β E := fun a => ⟨programs a, [], [], []⟩

/-- The party has become `e`, and `arrived` is what it has left of the data of its partner. -/
def State.move (s : State β E) (a : Party) (e : Endpoint β E) (arrived : List β) : State β E :=
  fun b => if b = a then e else { s b with arrived := arrived }

@[simp] theorem State.move_self (s : State β E) (a : Party) (e : Endpoint β E) (arrived : List β) :
    s.move a e arrived a = e :=
  if_pos rfl

@[simp] theorem State.move_other (s : State β E) (a : Party) (e : Endpoint β E)
    (arrived : List β) : s.move a e arrived a.other = { s a.other with arrived := arrived } :=
  if_neg a.other_ne

def State.goOn (s : State β E) (a : Party) (e : Endpoint β E) : State β E :=
  s.move a e (s a.other).arrived

inductive Step : State β E → State β E → Prop
  | write {s : State β E} (a : Party) (sent rest : List β) (next : Process β E Unit)
    (hProcess : (s a).process = .write (sent ++ rest) next) (hSent : sent ≠ []) :
    Step s (s.goOn a
      { s a with process := .write rest next, inFlight := (s a).inFlight ++ sent })
  | written {s : State β E} (a : Party) (next : Process β E Unit)
    (hProcess : (s a).process = .write [] next) : Step s (s.goOn a { s a with process := next })
  | deliver {s : State β E} (a : Party) (segment rest : List β)
    (hInFlight : (s a).inFlight = segment ++ rest) (hSegment : segment ≠ []) :
    Step s (s.goOn a { s a with inFlight := rest, arrived := (s a).arrived ++ segment })
  | read {s : State β E} (a : Party) (count : Nat) (got rest : List β)
    (next : List β → Process β E Unit) (hProcess : (s a).process = .read count next)
    (hArrived : (s a.other).arrived = got ++ rest) (hGot : got ≠ []) (hCount : got.length ≤ count) :
    Step s (s.move a
      { s a with process := .read (count - got.length) fun more => next (got ++ more) } rest)
  | wasRead {s : State β E} (a : Party) (next : List β → Process β E Unit)
    (hProcess : (s a).process = .read 0 next) :
    Step s (s.goOn a { s a with process := next [] })
  | report {s : State β E} (a : Party) (event : E) (next : Process β E Unit)
    (hProcess : (s a).process = .report event next) :
    Step s (s.goOn a { s a with process := next, reported := (s a).reported ++ [event] })

def Reachable (programs : Party → Process β E Unit) : State β E → Prop :=
  Relation.ReflTransGen Step (start programs)

/-- On its own the process reads the input, writes the output and reports the events. It takes the
given number of actions. -/
inductive Runs : Nat → Process β E Unit → List β → List β → List E → Prop
  | ended : Runs 0 (.ended ()) [] [] []
  | write {n : Nat} {data input output : List β} {events : List E} {next : Process β E Unit}
    (h : Runs n next input output events) :
    Runs (n + 1) (.write data next) input (data ++ output) events
  | read {n : Nat} {got input output : List β} {events : List E} {count : Nat}
    {next : List β → Process β E Unit} (hGot : got.length = count)
    (h : Runs n (next got) input output events) :
    Runs (n + 1) (.read count next) (got ++ input) output events
  | report {n : Nat} {event : E} {input output : List β} {events : List E}
    {next : Process β E Unit} (h : Runs n next input output events) :
    Runs (n + 1) (.report event next) input output (event :: events)

/-- What is left to run -/
structure Future (β E : Type) where
  actions : Nat
  input : List β
  output : List β
  events : List E

/-- Every party still reads what is on the way to it and what its partner still writes. -/
structure Balanced (s : State β E) (events : Party → List E) (future : Party → Future β E) :
    Prop where
  runs : ∀ a, Runs (future a).actions (s a).process (future a).input (future a).output
    (future a).events
  reported : ∀ a, (s a).reported ++ (future a).events = events a
  flow : ∀ a, (s a).arrived ++ ((s a).inFlight ++ (future a).output) = (future a.other).input

/-- How much a party and its data still have to do -/
def weight (e : Endpoint β E) (future : Future β E) : Nat :=
  future.actions + 3 * future.output.length + 2 * e.inFlight.length + e.arrived.length

def total (s : State β E) (future : Party → Future β E) : Nat :=
  weight (s .one) (future .one) + weight (s .two) (future .two)

section Invariant

variable {s t : State β E} {events : Party → List E} {future : Party → Future β E}

theorem total_eq (s : State β E) (future : Party → Future β E) (a : Party) :
    total s future = weight (s a) (future a) + weight (s a.other) (future a.other) := by
  cases a with
  | one => rfl
  | two => exact Nat.add_comm _ _

theorem Runs.of_ended {n : Nat} {i o : List β} {r : List E} (h : Runs n (.ended ()) i o r) :
    o = [] ∧ r = [] := by
  cases h with
  | ended => exact ⟨rfl, rfl⟩

theorem Runs.of_write {n : Nat} {data i o : List β} {r : List E} {next : Process β E Unit}
    (h : Runs n (.write data next) i o r) :
    ∃ n' o', n = n' + 1 ∧ o = data ++ o' ∧ Runs n' next i o' r := by
  cases h with
  | write h => exact ⟨_, _, rfl, rfl, h⟩

theorem Runs.of_read {n : Nat} {i o : List β} {r : List E} {count : Nat}
    {next : List β → Process β E Unit} (h : Runs n (.read count next) i o r) :
    ∃ n' got i', n = n' + 1 ∧ i = got ++ i' ∧ got.length = count ∧ Runs n' (next got) i' o r := by
  cases h with
  | read hGot h => exact ⟨_, _, _, rfl, rfl, hGot, h⟩

theorem Runs.of_report {n : Nat} {event : E} {i o : List β} {r : List E}
    {next : Process β E Unit} (h : Runs n (.report event next) i o r) :
    ∃ n' r', n = n' + 1 ∧ r = event :: r' ∧ Runs n' next i o r' := by
  cases h with
  | report h => exact ⟨_, _, rfl, rfl, h⟩

/-- A part of the data that is read has arrived. -/
theorem Runs.read_some {n : Nat} {i o got later : List β} {r : List E} {count : Nat}
    {next : List β → Process β E Unit} (h : Runs n (.read count next) i o r)
    (hInput : i = got ++ later) (hCount : got.length ≤ count) :
    Runs n (.read (count - got.length) fun more => next (got ++ more)) later o r := by
  obtain ⟨n', all, i', rfl, hAll, hLength, hNext⟩ := h.of_read
  have hPrefix : got <+: all := by
    refine List.prefix_of_prefix_length_le (hInput ▸ List.prefix_append _ _)
      (hAll ▸ List.prefix_append _ _) ?_
    omega
  obtain ⟨more, hMore⟩ := hPrefix
  have hLater : later = more ++ i' := by
    rw [hInput, ← hMore, List.append_assoc] at hAll
    exact List.append_cancel_left hAll
  rw [hLater]
  apply Runs.read
  · rw [← hLength, ← hMore, List.length_append]
    omega
  · rwa [hMore]

theorem Balanced.move (h : Balanced s events future) {a : Party} {e : Endpoint β E}
    {arrived : List β} (later : Future β E)
    (hRuns : Runs later.actions e.process later.input later.output later.events)
    (hReported : e.reported ++ later.events = events a)
    (hFlow : e.arrived ++ (e.inFlight ++ later.output) = (future a.other).input)
    (hInput : arrived ++ ((s a.other).inFlight ++ (future a.other).output) = later.input)
    (hLess : weight e later + arrived.length <
      weight (s a) (future a) + (s a.other).arrived.length) :
    ∃ future', Balanced (s.move a e arrived) events future' ∧
      total (s.move a e arrived) future' < total s future := by
  refine ⟨Function.update future a later, ⟨?_, ?_, ?_⟩, ?_⟩
  · intro b
    rcases Party.eq_or_eq_other a b with rfl | rfl
    · simpa using hRuns
    · simpa [Party.other_ne] using h.runs a.other
  · intro b
    rcases Party.eq_or_eq_other a b with rfl | rfl
    · simpa using hReported
    · simpa [Party.other_ne] using h.reported a.other
  · intro b
    rcases Party.eq_or_eq_other a b with rfl | rfl
    · simpa [Party.other_ne] using hFlow
    · simpa [Party.other_ne] using hInput
  · rw [total_eq _ _ a, total_eq _ _ a, State.move_self, State.move_other, Function.update_self,
      Function.update_of_ne a.other_ne]
    have hOther : weight { s a.other with arrived := arrived } (future a.other) +
        (s a.other).arrived.length = weight (s a.other) (future a.other) + arrived.length := by
      simp only [weight]
      omega
    omega

theorem Balanced.goOn (h : Balanced s events future) {a : Party} {e : Endpoint β E}
    (later : Future β E) (hSame : later.input = (future a).input)
    (hRuns : Runs later.actions e.process later.input later.output later.events)
    (hReported : e.reported ++ later.events = events a)
    (hFlow : e.arrived ++ (e.inFlight ++ later.output) = (future a.other).input)
    (hLess : weight e later < weight (s a) (future a)) :
    ∃ future', Balanced (s.goOn a e) events future' ∧
      total (s.goOn a e) future' < total s future := by
  have hInput := h.flow a.other
  rw [Party.other_other] at hInput
  exact h.move later hRuns hReported hFlow (hInput.trans hSame.symm) (Nat.add_lt_add_right hLess _)

theorem Balanced.step (h : Balanced s events future) (hStep : Step s t) :
    ∃ future', Balanced t events future' ∧ total t future' < total s future := by
  cases hStep with
  | write a sent rest next hProcess hSent =>
    have hRuns := h.runs a
    have hFlow := h.flow a
    have hLength := List.length_pos_of_ne_nil hSent
    rw [hProcess] at hRuns
    obtain ⟨n, o, hActions, hOutput, hNext⟩ := hRuns.of_write
    rw [hOutput] at hFlow
    refine h.goOn ⟨n + 1, (future a).input, rest ++ o, (future a).events⟩ rfl
      (.write hNext) (h.reported a) (by simpa using hFlow) ?_
    simp only [weight, hActions, hOutput, List.length_append]
    omega
  | written a next hProcess =>
    have hRuns := h.runs a
    rw [hProcess] at hRuns
    obtain ⟨n, o, hActions, hOutput, hNext⟩ := hRuns.of_write
    refine h.goOn ⟨n, (future a).input, (future a).output, (future a).events⟩ rfl
      (hOutput ▸ hNext) (h.reported a) (h.flow a) ?_
    simp only [weight, hActions]
    omega
  | deliver a segment rest hInFlight hSegment =>
    have hFlow := h.flow a
    have hLength := List.length_pos_of_ne_nil hSegment
    rw [hInFlight] at hFlow
    refine h.goOn (future a) rfl (h.runs a) (h.reported a) (by simpa using hFlow) ?_
    simp only [weight, hInFlight, List.length_append]
    omega
  | read a count got rest next hProcess hArrived hGot hCount =>
    have hRuns := h.runs a
    have hInput := h.flow a.other
    have hLength := List.length_pos_of_ne_nil hGot
    rw [Party.other_other, hArrived, List.append_assoc] at hInput
    rw [hProcess] at hRuns
    refine h.move ⟨(future a).actions, rest ++ ((s a.other).inFlight ++ (future a.other).output),
      (future a).output, (future a).events⟩ (hRuns.read_some hInput.symm hCount) (h.reported a) (h.flow a) rfl ?_
    simp only [weight, hArrived, List.length_append]
    omega
  | wasRead a next hProcess =>
    have hRuns := h.runs a
    rw [hProcess] at hRuns
    obtain ⟨n, got, i, hActions, hInput, hLength, hNext⟩ := hRuns.of_read
    obtain rfl := List.eq_nil_of_length_eq_zero hLength
    refine h.goOn ⟨n, (future a).input, (future a).output, (future a).events⟩ rfl
      (hInput ▸ hNext) (h.reported a) (h.flow a) ?_
    simp only [weight, hActions]
    omega
  | report a event next hProcess =>
    have hRuns := h.runs a
    have hReported := h.reported a
    rw [hProcess] at hRuns
    obtain ⟨n, r, hActions, hRest, hNext⟩ := hRuns.of_report
    rw [hRest] at hReported
    refine h.goOn ⟨n, (future a).input, (future a).output, r⟩ rfl hNext
      (by simpa using hReported) (h.flow a) ?_
    simp only [weight, hActions]
    omega

theorem Balanced.reachable {programs : Party → Process β E Unit}
    (h : Balanced (start programs) events future) (hReachable : Reachable programs s) :
    ∃ future', Balanced s events future' := by
  induction hReachable with
  | refl => exact ⟨future, h⟩
  | tail _ hStep ih =>
    obtain ⟨_, hBalanced⟩ := ih
    obtain ⟨future', hNext, -⟩ := hBalanced.step hStep
    exact ⟨future', hNext⟩

/-- No run goes on for ever. -/
theorem Balanced.acc (h : Balanced s events future) : Acc (fun t s => Step s t) s := by
  induction hTotal : total s future using Nat.strong_induction_on generalizing s future with
  | h n ih =>
    constructor
    intro t hStep
    obtain ⟨future', hNext, hLess⟩ := h.step hStep
    exact ih _ (hTotal ▸ hLess) hNext rfl

/-- Nothing is on the way to a party that reads nothing any more. -/
theorem Balanced.nothing_unread (h : Balanced s events future) {a : Party}
    (hInput : (future a).input = []) : (s a.other).arrived = [] ∧ (s a.other).inFlight = [] := by
  have hFlow := h.flow a.other
  rw [Party.other_other, hInput] at hFlow
  obtain ⟨hArrived, hLater⟩ := List.append_eq_nil_iff.mp hFlow
  exact ⟨hArrived, (List.append_eq_nil_iff.mp hLater).1⟩

end Invariant

section Reports

/-- After a read there is a report, `owed` is whether one must come. -/
inductive Reports : Bool → Process β E Unit → Prop
  | ended : Reports false (.ended ())
  | write {owed : Bool} {data : List β} {next : Process β E Unit} (h : Reports owed next) :
    Reports owed (.write data next)
  | read {owed : Bool} {count : Nat} {next : List β → Process β E Unit}
    (h : ∀ got, Reports true (next got)) : Reports owed (.read count next)
  | report {owed : Bool} {event : E} {next : Process β E Unit} (h : Reports false next) :
    Reports owed (.report event next)

variable {s t : State β E} {p : Process β E Unit} {owed : Bool}

theorem Reports.input_eq_nil (h : Reports owed p) {n : Nat} {i o : List β}
    (hRuns : Runs n p i o []) : owed = false ∧ i = [] := by
  induction h generalizing n i o with
  | ended =>
    cases hRuns with
    | ended => exact ⟨rfl, rfl⟩
  | write _ ih =>
    obtain ⟨_, _, -, -, hNext⟩ := hRuns.of_write
    exact ih hNext
  | read _ ih =>
    obtain ⟨_, got, _, -, -, -, hNext⟩ := hRuns.of_read
    nomatch (ih got hNext).1
  | report => nomatch hRuns

theorem reports_move {a : Party} {e : Endpoint β E} {arrived : List β}
    (h : ∀ b, ∃ owed, Reports owed (s b).process) (he : ∃ owed, Reports owed e.process) :
    ∀ b, ∃ owed, Reports owed (s.move a e arrived b).process := by
  intro b
  rcases Party.eq_or_eq_other a b with rfl | rfl
  · simpa using he
  · simpa using h a.other

theorem reports_step (h : ∀ a, ∃ owed, Reports owed (s a).process) (hStep : Step s t) :
    ∀ a, ∃ owed, Reports owed (t a).process := by
  cases hStep with
  | write a sent rest next hProcess hSent =>
    obtain ⟨owed, hReports⟩ := h a
    rw [hProcess] at hReports
    cases hReports with
    | write hNext => exact reports_move h ⟨owed, .write hNext⟩
  | written a next hProcess =>
    obtain ⟨owed, hReports⟩ := h a
    rw [hProcess] at hReports
    cases hReports with
    | write hNext => exact reports_move h ⟨owed, hNext⟩
  | deliver a segment rest hInFlight hSegment => exact reports_move h (h a)
  | read a count got rest next hProcess hArrived hGot hCount =>
    obtain ⟨owed, hReports⟩ := h a
    rw [hProcess] at hReports
    cases hReports with
    | read hNext => exact reports_move h ⟨owed, .read fun more => hNext (got ++ more)⟩
  | wasRead a next hProcess =>
    obtain ⟨owed, hReports⟩ := h a
    rw [hProcess] at hReports
    cases hReports with
    | read hNext => exact reports_move h ⟨true, hNext []⟩
  | report a event next hProcess =>
    obtain ⟨owed, hReports⟩ := h a
    rw [hProcess] at hReports
    cases hReports with
    | report hNext => exact reports_move h ⟨false, hNext⟩

theorem reports_reachable {programs : Party → Process β E Unit}
    (h : ∀ a, ∃ owed, Reports owed (programs a)) (hReachable : Reachable programs s) :
    ∀ a, ∃ owed, Reports owed (s a).process := by
  induction hReachable with
  | refl => exact h
  | tail _ hStep ih => exact reports_step ih hStep

end Reports

section Stuck

variable {s : State β E} {events : Party → List E} {future : Party → Future β E}

/-- A party that can do nothing has ended or waits for data. -/
theorem ended_or_reads (hStuck : ∀ t, ¬ Step s t) (a : Party) : (s a).process = .ended () ∨
    ∃ count next, (s a).process = .read (count + 1) next ∧ (s a.other).arrived = [] := by
  cases hProcess : (s a).process with
  | ended result => exact .inl rfl
  | write data next =>
    cases data with
    | nil => exact absurd (.written a next hProcess) (hStuck _)
    | cons first data =>
      have hAll : (s a).process = .write (first :: data ++ []) next := by
        rw [hProcess, List.append_nil]
      exact absurd (.write a _ _ next hAll (List.cons_ne_nil _ _)) (hStuck _)
  | read count next =>
    cases count with
    | zero => exact absurd (.wasRead a next hProcess) (hStuck _)
    | succ count =>
      refine .inr ⟨count, next, rfl, ?_⟩
      cases hArrived : (s a.other).arrived with
      | nil => rfl
      | cons first arrived =>
        exact absurd (.read a _ [first] arrived next hProcess hArrived (List.cons_ne_nil _ _)
          (Nat.le_add_left 1 count)) (hStuck _)
  | report event next => exact absurd (.report a event next hProcess) (hStuck _)

theorem inFlight_eq_nil (hStuck : ∀ t, ¬ Step s t) (a : Party) : (s a).inFlight = [] := by
  cases hInFlight : (s a).inFlight with
  | nil => rfl
  | cons first inFlight =>
    have hAll : (s a).inFlight = first :: inFlight ++ [] := by rw [hInFlight, List.append_nil]
    exact absurd (.deliver a _ _ hAll (List.cons_ne_nil _ _)) (hStuck _)

theorem Balanced.ended_other (h : Balanced s events future)
    (hStuck : ∀ t, ¬ Step s t) {a : Party} (hEnded : (s a).process = .ended ()) :
    (s a.other).process = .ended () := by
  rcases ended_or_reads hStuck a.other with hOther | ⟨count, next, hReads, hArrived⟩
  · exact hOther
  · have hRuns := h.runs a
    have hReader := h.runs a.other
    have hFlow := h.flow a
    rw [hEnded] at hRuns
    rw [hReads] at hReader
    rw [Party.other_other] at hArrived
    obtain ⟨_, got, i, -, hInput, hLength, -⟩ := hReader.of_read
    rw [hArrived, inFlight_eq_nil hStuck a, hRuns.of_ended.1, hInput] at hFlow
    rw [(List.append_eq_nil_iff.mp hFlow.symm).1] at hLength
    nomatch hLength

/-- Where nothing can happen, both parties have ended, or each of them waits for the other. -/
theorem Balanced.stuck (h : Balanced s events future) (hStuck : ∀ t, ¬ Step s t) :
    (∀ a, (s a).process = .ended () ∧ (s a).reported = events a) ∨
      ∀ a, ∃ count next, (s a).process = .read (count + 1) next := by
  rcases ended_or_reads hStuck .one with hOne | ⟨count, next, hReads, -⟩
  · refine .inl fun a => ?_
    have hEnded : (s a).process = .ended () := by
      rcases Party.eq_or_eq_other .one a with rfl | rfl
      · exact hOne
      · exact h.ended_other hStuck hOne
    have hRuns := h.runs a
    have hReported := h.reported a
    rw [hEnded] at hRuns
    rw [hRuns.of_ended.2, List.append_nil] at hReported
    exact ⟨hEnded, hReported⟩
  · refine .inr fun a => ?_
    rcases Party.eq_or_eq_other .one a with rfl | rfl
    · exact ⟨count, next, hReads⟩
    · rcases ended_or_reads hStuck Party.one.other with hTwo | ⟨count', next', hOther, -⟩
      · have hOne := h.ended_other hStuck hTwo
        rw [Party.other_other, hReads] at hOne
        nomatch hOne
      · exact ⟨count', next', hOther⟩

end Stuck

end Duplex
