import CoSimIO.Library.FileProcess

/-! # Processes that go on with what they have read from a directory

A script is a list of instructions, and the script that follows when it is known what these have
read. The agents take turns in any order. The turn of an agent that has ended, or that an
instruction has failed, changes nothing.
-/

namespace FileScript

open FileProcess

set_option autoImplicit false

variable {Path Byte Event Result Agent : Type}

inductive Script (Path Byte Event Result : Type)
  | ended (result : Result)
  | report (event : Event) (next : Script Path Byte Event Result)
  | run (instructions : List (Instruction Path Byte))
      (next : List Byte → Script Path Byte Event Result)

inductive Activity (Path Byte Event Result : Type)
  | ended (result : Result)
  | running (process : Process Path Byte) (next : List Byte → Script Path Byte Event Result)

structure Party (Path Byte Event Result : Type) where
  activity : Activity Path Byte Event Result
  reported : List Event

namespace Script

/-- The open file stays open. -/
def resume (process : Process Path Byte) (reported : List Event) :
    Script Path Byte Event Result → Party Path Byte Event Result
  | .ended result => ⟨.ended result, reported⟩
  | .report event next => resume process (reported ++ [event]) next
  | .run instructions next =>
    ⟨.running { process with rest := instructions, buffer := [] } next, reported⟩

def start (script : Script Path Byte Event Result) : Party Path Byte Event Result :=
  script.resume Process.idle []

end Script

namespace Party

def result (party : Party Path Byte Event Result) : Option Result :=
  match party.activity with
  | .ended result => some result
  | .running _ _ => none

def failed (party : Party Path Byte Event Result) : Option (Instruction Path Byte) :=
  match party.activity with
  | .ended _ => none
  | .running process _ => process.failed

end Party

structure World (Agent Path Byte Event Result : Type) where
  store : Store Path Byte
  party : Agent → Party Path Byte Event Result

namespace World

variable [DecidableEq Agent]

def set (w : World Agent Path Byte Event Result) (store : Store Path Byte) (a : Agent)
    (party : Party Path Byte Event Result) : World Agent Path Byte Event Result :=
  { store, party := fun b => if b = a then party else w.party b }

variable (w : World Agent Path Byte Event Result) (store : Store Path Byte) {a b : Agent}
  (party : Party Path Byte Event Result)

@[simp] theorem set_store : (w.set store a party).store = store := rfl

@[simp] theorem set_party_self : (w.set store a party).party a = party := if_pos rfl

theorem set_party_other (h : b ≠ a) : (w.set store a party).party b = w.party b := if_neg h

theorem set_self (a : Agent) : w.set w.store a (w.party a) = w := by
  have hParty : (fun b => if b = a then w.party a else w.party b) = w.party := by
    funext b
    split
    · next h => rw [h]
    · rfl
  rw [set, hParty]

end World

def start (store : Store Path Byte) (scripts : Agent → Script Path Byte Event Result) :
    World Agent Path Byte Event Result :=
  { store, party := fun a => (scripts a).start }

variable [DecidableEq Path] [DecidableEq Agent]

def turn (w : World Agent Path Byte Event Result) (a : Agent) :
    World Agent Path Byte Event Result :=
  match (w.party a).activity with
  | .ended _ => w
  | .running process next =>
    match process.rest, process.failed with
    | [], some _ => w
    | [], none =>
      w.set w.store a ((next process.buffer).resume process (w.party a).reported)
    | _ :: _, _ =>
      let result := exec w.store process
      w.set result.1 a { w.party a with activity := .running result.2 next }

def run (w : World Agent Path Byte Event Result) (schedule : List Agent) :
    World Agent Path Byte Event Result :=
  schedule.foldl turn w

section Turns

variable {w : World Agent Path Byte Event Result} {a b : Agent} {process : Process Path Byte}
  {next : List Byte → Script Path Byte Event Result}

theorem turn_ended {result : Result} (h : (w.party a).activity = .ended result) :
    turn w a = w := by
  rw [turn, h]

theorem turn_next (h : (w.party a).activity = .running process next) (hRest : process.rest = [])
    (hFailed : process.failed = none) :
    turn w a = w.set w.store a ((next process.buffer).resume process (w.party a).reported) := by
  simp only [turn, h, hRest, hFailed]

theorem turn_exec (h : (w.party a).activity = .running process next)
    {instruction : Instruction Path Byte} {rest : List (Instruction Path Byte)}
    (hRest : process.rest = instruction :: rest) :
    turn w a = w.set (exec w.store process).1 a
      { w.party a with activity := .running (exec w.store process).2 next } := by
  simp only [turn, h, hRest]

theorem run_append (w : World Agent Path Byte Event Result) (first second : List Agent) :
    run w (first ++ second) = run (run w first) second := List.foldl_append

theorem run_invariant {P : World Agent Path Byte Event Result → Prop}
    (hTurn : ∀ w a, P w → P (turn w a)) (h : P w) (schedule : List Agent) :
    P (run w schedule) := by
  induction schedule generalizing w with
  | nil => exact h
  | cons a schedule ih => exact ih (hTurn w a h)

theorem run_fixed {schedule : List Agent} (h : ∀ a ∈ schedule, turn w a = w) :
    run w schedule = w := by
  induction schedule with
  | nil => rfl
  | cons a schedule ih =>
    obtain ⟨hFirst, hLater⟩ := List.forall_mem_cons.mp h
    have hRun : run w (a :: schedule) = run (turn w a) schedule := rfl
    rw [hRun, hFirst]
    exact ih hLater

end Turns

section Rounds

/-! The ghost is what a proof knows of the world. A turn that does not lower its rank finds the
agent idle, and changes nothing. -/

variable {Ghost : Type} {P : World Agent Path Byte Event Result → Ghost → Prop}
  {idle : Ghost → Agent → Prop} {rank : Ghost → Nat} {w : World Agent Path Byte Event Result}
  {g : Ghost}

theorem run_ghost
    (hStep : ∀ w g a, P w g →
      (idle g a ∧ turn w a = w) ∨ ∃ g', P (turn w a) g' ∧ rank g' < rank g)
    (h : P w g) (schedule : List Agent) : ∃ g', P (run w schedule) g' := by
  refine run_invariant (P := fun w => ∃ g, P w g) ?_ ⟨g, h⟩ schedule
  rintro w a ⟨g, h⟩
  rcases hStep w g a h with ⟨-, hSame⟩ | ⟨g', h', -⟩
  · rw [hSame]
    exact ⟨g, h⟩
  · exact ⟨g', h'⟩

theorem run_round
    (hStep : ∀ w g a, P w g →
      (idle g a ∧ turn w a = w) ∨ ∃ g', P (turn w a) g' ∧ rank g' < rank g)
    (h : P w g) (round : List Agent) :
    (∀ a ∈ round, idle g a ∧ turn w a = w) ∨ ∃ g', P (run w round) g' ∧ rank g' < rank g := by
  induction round generalizing w g with
  | nil => exact .inl nofun
  | cons a round ih =>
    have hCons : run w (a :: round) = run (turn w a) round := rfl
    rw [hCons]
    rcases hStep w g a h with hIdle | ⟨g', h', hLess⟩
    · rw [hIdle.2]
      rcases ih h with hLater | hProgress
      · exact .inl (List.forall_mem_cons.mpr ⟨hIdle, hLater⟩)
      · exact .inr hProgress
    · rcases ih h' with hLater | ⟨g'', h'', hLater⟩
      · rw [run_fixed fun b hb => (hLater b hb).2]
        exact .inr ⟨g', h', hLess⟩
      · exact .inr ⟨g'', h'', Nat.lt_trans hLater hLess⟩

/-- When every agent has its turn in every round, rounds enough leave all agents idle. -/
theorem run_rounds
    (hStep : ∀ w g a, P w g →
      (idle g a ∧ turn w a = w) ∨ ∃ g', P (turn w a) g' ∧ rank g' < rank g)
    (h : P w g) {rounds : List (List Agent)} (hRounds : ∀ round ∈ rounds, ∀ a, a ∈ round)
    (hLength : rank g < rounds.length) :
    ∃ g', P (run w rounds.flatten) g' ∧ ∀ a, idle g' a := by
  induction rounds generalizing w g with
  | nil => exact absurd hLength (Nat.not_lt_zero _)
  | cons round rounds ih =>
    obtain ⟨hRound, hLater⟩ := List.forall_mem_cons.mp hRounds
    rw [List.flatten_cons, run_append]
    rcases run_round hStep h round with hIdle | ⟨g', h', hLess⟩
    · have hAll : ∀ a, idle g a ∧ turn w a = w := fun a => hIdle a (hRound a)
      rw [run_fixed fun a _ => (hAll a).2, run_fixed fun a _ => (hAll a).2]
      exact ⟨g, h, fun a => (hAll a).1⟩
    · apply ih h' hLater
      rw [List.length_cons] at hLength
      omega

end Rounds

end FileScript
