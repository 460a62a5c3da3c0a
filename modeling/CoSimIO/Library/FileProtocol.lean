import CoSimIO.Library.FileScript
import Mathlib.Tactic.Common

/-! # Protocols over a directory

A protocol is a script for every agent, and what holds in all runs of these scripts.
-/

namespace FileScript

open FileProcess

set_option autoImplicit false

variable {Path Byte Event Result Result' Agent : Type}

namespace Script

def bind (script : Script Path Byte Event Result)
    (next : Result → Script Path Byte Event Result') : Script Path Byte Event Result' :=
  match script with
  | .ended result => next result
  | .report event script => .report event (script.bind next)
  | .run instructions script => .run instructions fun read => (script read).bind next

end Script

section Closing

/-- Whether a file may be open after the instructions -/
def leavesOpen (opened : Bool) : List (Instruction Path Byte) → Bool
  | [] => opened
  | .openExisting _ :: rest => leavesOpen true rest
  | .createUnlessOpen _ :: rest => leavesOpen true rest
  | .create _ :: rest => leavesOpen true rest
  | .close :: rest => leavesOpen false rest
  | _ :: rest => leavesOpen opened rest

/-- The script closes the files that it opens. -/
def Script.Closes : Bool → Script Path Byte Event Result → Prop
  | opened, .ended _ => opened = false
  | opened, .report _ script => script.Closes opened
  | opened, .run instructions script =>
    ∀ read, (script read).Closes (leavesOpen opened instructions)

def Party.Closes (party : Party Path Byte Event Result) : Prop :=
  match party.activity with
  | .ended _ => True
  | .running process next => process.failed = none →
    ∀ read, (next read).Closes (leavesOpen process.handle.isSome process.rest)

variable {opened opened' : Bool}

theorem leavesOpen_append (first second : List (Instruction Path Byte)) :
    leavesOpen opened (first ++ second) = leavesOpen (leavesOpen opened first) second := by
  induction first generalizing opened with
  | nil => rfl
  | cons instruction first ih => cases instruction <;> exact ih

theorem leavesOpen_mono (h : opened' = true → opened = true)
    (instructions : List (Instruction Path Byte)) :
    leavesOpen opened' instructions = true → leavesOpen opened instructions = true := by
  induction instructions generalizing opened opened' with
  | nil => exact h
  | cons instruction rest ih =>
    cases instruction with
    | openExisting => exact id
    | createUnlessOpen => exact id
    | create => exact id
    | close => exact id
    | _ => exact ih h

theorem Script.Closes.mono {script : Script Path Byte Event Result} (hCloses : script.Closes opened)
    (h : opened' = true → opened = true) : script.Closes opened' := by
  induction script generalizing opened opened' with
  | ended =>
    cases opened' with
    | false => rfl
    | true => exact (h rfl).symm.trans hCloses
  | report _ _ ih => exact ih hCloses h
  | run instructions _ ih => exact fun read => ih read (hCloses read) (leavesOpen_mono h instructions)

theorem Script.Closes.bind {script : Script Path Byte Event Result}
    {next : Result → Script Path Byte Event Result'} (hScript : script.Closes opened)
    (hNext : ∀ result, (next result).Closes false) : (script.bind next).Closes opened := by
  induction script generalizing opened with
  | ended result =>
    cases hScript
    exact hNext result
  | report _ _ ih => exact ih hScript
  | run _ _ ih => exact fun read => ih read (hScript read)

variable [DecidableEq Path] {store : Store Path Byte} {process : Process Path Byte}

/-- No instruction leaves more open than was known before. -/
theorem leavesOpen_exec {instruction : Instruction Path Byte} {rest : List (Instruction Path Byte)}
    (hRest : process.rest = instruction :: rest) (hFailed : (exec store process).2.failed = none) :
    leavesOpen (exec store process).2.handle.isSome (exec store process).2.rest = true →
      leavesOpen process.handle.isSome process.rest = true := by
  cases instruction with
  | openExisting path =>
    simp only [exec, hRest, leavesOpen]
    exact leavesOpen_mono (fun _ => rfl) rest
  | createUnlessOpen path =>
    simp only [exec, hRest, leavesOpen]
    split
    · exact leavesOpen_mono (fun _ => rfl) rest
    · exact leavesOpen_mono (fun _ => rfl) rest
  | create path =>
    simp only [exec, hRest]
    exact id
  | close =>
    simp only [exec, hRest]
    exact id
  | remove path attempts =>
    simp only [exec, hRest] at hFailed ⊢
    split at hFailed
    · next hFile =>
      rw [if_pos hFile]
      exact id
    · next hFile =>
      rw [if_neg hFile]
      split at hFailed
      · cases hFailed
      · next hAttempts =>
        rw [if_neg hAttempts]
        exact id
  | _ =>
    simp only [exec, hRest] at hFailed ⊢
    split at hFailed <;> simp_all [leavesOpen, Process.fail]

theorem exec_failed (h : (exec store process).2.failed = none) : process.failed = none := by
  unfold exec at h
  grind [Process.fail]

/-- The instructions that are left, and the attempts to remove a file -/
def cost : List (Instruction Path Byte) → Nat
  | [] => 0
  | .remove _ attempts :: rest => attempts + 1 + cost rest
  | _ :: rest => 1 + cost rest

theorem exec_cost (store : Store Path Byte) (h : process.rest ≠ []) :
    exec store process = (store, process) ∨ cost (exec store process).2.rest < cost process.rest := by
  obtain ⟨instruction, rest, hRest⟩ := List.exists_cons_of_ne_nil h
  cases instruction with
  | remove path attempts =>
    right
    simp only [exec, hRest]
    split
    · dsimp only [cost]
      omega
    · split
      · dsimp only [Process.fail, cost]
        omega
      · dsimp only [cost]
        omega
  | waitExists path =>
    simp only [exec, hRest]
    split
    · right
      dsimp only [cost]
      omega
    · exact .inl rfl
  | waitRemoved path =>
    simp only [exec, hRest]
    split
    · exact .inl rfl
    · right
      dsimp only [cost]
      omega
  | _ =>
    right
    simp only [exec, hRest]
    try split
    all_goals
      dsimp only [Process.fail, cost]
      omega

end Closing

section Turns

variable [DecidableEq Path] [DecidableEq Agent] {w : World Agent Path Byte Event Result}
  {a b : Agent} {opened : Bool} {process : Process Path Byte}

/-- Everything one turn can do. -/
theorem turn_cases (w : World Agent Path Byte Event Result) (a : Agent) :
    (turn w a = w ∧ ((w.party a).result.isSome ∨ (w.party a).failed.isSome)) ∨
    ∃ process next, (w.party a).activity = .running process next ∧
      ((process.rest = [] ∧ process.failed = none ∧
          turn w a = w.set w.store a ((next process.buffer).resume process (w.party a).reported)) ∨
       ∃ instruction rest, process.rest = instruction :: rest ∧
          turn w a = w.set (exec w.store process).1 a
            ⟨.running (exec w.store process).2 next, (w.party a).reported⟩) := by
  cases hActivity : (w.party a).activity with
  | ended result =>
    refine .inl ⟨turn_ended hActivity, .inl ?_⟩
    rw [Party.result, hActivity]
    rfl
  | running process next =>
    cases hRest : process.rest with
    | nil =>
      cases hFailed : process.failed with
      | none => exact .inr ⟨_, _, rfl, .inl ⟨hRest, hFailed, turn_next hActivity hRest hFailed⟩⟩
      | some instruction =>
        refine .inl ⟨?_, .inr ?_⟩
        · simp only [turn, hActivity, hRest, hFailed]
        · rw [Party.failed, hActivity]
          exact Option.isSome_iff_exists.mpr ⟨_, hFailed⟩
    | cons instruction rest =>
      refine .inr ⟨_, _, rfl, .inr ⟨_, _, hRest, ?_⟩⟩
      rw [turn_exec hActivity hRest]

theorem turn_party_other (h : b ≠ a) : (turn w a).party b = w.party b := by
  rcases turn_cases w a with ⟨hSame, -⟩ | ⟨_, _, -, ⟨-, -, hTurn⟩ | ⟨_, _, -, hTurn⟩⟩
  · rw [hSame]
  · rw [hTurn, World.set_party_other _ _ _ h]
  · rw [hTurn, World.set_party_other _ _ _ h]

theorem turn_keeps {path : Path} (h : ∀ process next instruction rest,
      (w.party a).activity = .running process next → process.rest = instruction :: rest →
        Store.Keeps w.store (exec w.store process).1 path) :
    Store.Keeps w.store (turn w a).store path := by
  rcases turn_cases w a with ⟨hSame, -⟩ |
    ⟨process, next, hParty, ⟨-, -, hTurn⟩ | ⟨instruction, rest, hRest, hTurn⟩⟩
  · rw [hSame]
    exact .refl _ _
  · rw [hTurn]
    exact .refl _ _
  · rw [hTurn]
    exact h process next instruction rest hParty hRest

omit [DecidableEq Path] in
theorem Script.Closes.resume {script : Script Path Byte Event Result}
    (h : script.Closes process.handle.isSome) (reported : List Event) :
    (script.resume process reported).Closes := by
  induction script generalizing reported with
  | ended => trivial
  | report _ _ ih => exact ih h _
  | run => exact fun _ => h

theorem Party.Closes.turn (h : ∀ b, (w.party b).Closes) (a b : Agent) :
    ((turn w a).party b).Closes := by
  by_cases hb : b = a
  · subst hb
    rcases turn_cases w b with ⟨hSame, -⟩ |
      ⟨process, next, hParty, ⟨hRest, hFailed, hTurn⟩ | ⟨instruction, rest, hRest, hTurn⟩⟩
    · rw [hSame]
      exact h b
    · have hOwn := h b
      rw [Party.Closes, hParty] at hOwn
      have hNext := hOwn hFailed process.buffer
      rw [hRest] at hNext
      rw [hTurn, World.set_party_self]
      exact hNext.resume _
    · have hOwn := h b
      rw [Party.Closes, hParty] at hOwn
      rw [hTurn, World.set_party_self]
      intro hFailed read
      exact (hOwn (exec_failed hFailed) read).mono (leavesOpen_exec hRest hFailed)
  · rw [turn_party_other hb]
    exact h b

end Turns

section Protocols

variable [DecidableEq Path] [DecidableEq Agent]

/-- The party has its part of the events behind it, all of them and the result at the end. -/
structure Party.Outcome (result : Result) (events : List Event)
    (party : Party Path Byte Event Result) : Prop where
  failed : party.failed = none
  reported : party.reported <+: events
  result : ∀ r, party.result = some r → r = result ∧ party.reported = events

/-- What all runs of the scripts have in common. A run starts without the files of the protocol and
leaves none of them, and it neither needs nor changes other files. -/
structure Protocol (scripts : Agent → Script Path Byte Event Result) (result : Agent → Result)
    (events : Agent → List Event) (uses : Path → Prop) where
  Ghost : Type
  Sound : World Agent Path Byte Event Result → Ghost → Prop
  idle : Ghost → Agent → Prop
  rank : Ghost → Nat
  start : ∀ {store : Store Path Byte}, (∀ path, uses path → store.isFile path = false) →
    ∃ g, Sound (FileScript.start store scripts) g
  turn : ∀ {w g}, Sound w g → ∀ a,
    (idle g a ∧ turn w a = w) ∨ ∃ g', Sound (turn w a) g' ∧ rank g' < rank g
  keeps : ∀ {w g}, Sound w g → ∀ a path, ¬ uses path →
    Store.Keeps w.store (FileScript.turn w a).store path
  stable : ∀ {w g} {store : Store Path Byte}, Sound w g →
    (∀ path, uses path → Store.Keeps w.store store path) →
      ∃ g', Sound { w with store := store } g' ∧ rank g' = rank g
  outcome : ∀ {w g}, Sound w g → ∀ a, (w.party a).Outcome (result a) (events a)
  ends : ∀ {w g}, Sound w g → (∀ a, (w.party a).result.isSome ∨ idle g a) →
    ∀ a, (w.party a).result.isSome
  leaves : ∀ {w g}, Sound w g → (∀ a, (w.party a).result.isSome) →
    ∀ path, uses path → w.store.isFile path = false
  closes : ∀ a, (scripts a).Closes false

/-- In every schedule the agents have their outcomes, and with turns enough all of them end. -/
structure Completes (w : World Agent Path Byte Event Result) (result : Agent → Result)
    (events : Agent → List Event) : Prop where
  outcome : ∀ schedule a, ((run w schedule).party a).Outcome (result a) (events a)
  ends : ∃ turns, ∀ rounds : List (List Agent), (∀ round ∈ rounds, ∀ a, a ∈ round) →
    turns < rounds.length → ∀ a, ((run w rounds.flatten).party a).result = some (result a)

theorem completes_of_ghost {Ghost : Type} {P : World Agent Path Byte Event Result → Ghost → Prop}
    {idle : Ghost → Agent → Prop} {rank : Ghost → Nat} {w : World Agent Path Byte Event Result}
    {g : Ghost} {result : Agent → Result} {events : Agent → List Event}
    (hStep : ∀ w g a, P w g →
      (idle g a ∧ turn w a = w) ∨ ∃ g', P (turn w a) g' ∧ rank g' < rank g)
    (h : P w g) (hOutcome : ∀ {w g}, P w g → ∀ a, (w.party a).Outcome (result a) (events a))
    (hEnds : ∀ {w g}, P w g → (∀ a, idle g a) → ∀ a, (w.party a).result.isSome) :
    Completes w result events where
  outcome schedule a := by
    obtain ⟨g', hSound⟩ := run_ghost hStep h schedule
    exact hOutcome hSound a
  ends := by
    refine ⟨rank g, fun rounds hRounds hLength a => ?_⟩
    obtain ⟨g', hSound, hIdle⟩ := run_rounds hStep h hRounds hLength
    obtain ⟨r, hResult⟩ := Option.isSome_iff_exists.mp (hEnds hSound hIdle a)
    rw [hResult, ((hOutcome hSound a).result r hResult).1]

namespace Protocol

variable {scripts : Agent → Script Path Byte Event Result} {result : Agent → Result}
  {events : Agent → List Event} {uses : Path → Prop}

/-- An agent ends only when all files are gone. -/
def Settles (protocol : Protocol scripts result events uses) : Prop :=
  ∀ {w g a}, protocol.Sound w g → (w.party a).result.isSome →
    ∀ path, uses path → w.store.isFile path = false

/-- Nothing is left to do. -/
def ended (result : Agent → Result) :
    Protocol (fun a => (.ended (result a) : Script Path Byte Event Result)) result (fun _ => [])
      fun _ => False where
  Ghost := Unit
  Sound w _ := ∀ a, w.party a = ⟨.ended (result a), []⟩
  idle _ _ := True
  rank _ := 0
  start _ := ⟨(), fun _ => rfl⟩
  turn h a := .inl ⟨trivial, turn_ended (congrArg Party.activity (h a))⟩
  keeps h a path _ := by
    rw [turn_ended (congrArg Party.activity (h a))]
    exact .refl _ _
  stable h _ := ⟨(), h, rfl⟩
  outcome h a := by
    rw [h a]
    exact ⟨rfl, List.prefix_refl _, fun r hr => ⟨(Option.some.inj hr).symm, rfl⟩⟩
  ends h _ a := by
    rw [h a]
    rfl
  leaves _ _ _ := False.elim
  closes _ := rfl

end Protocol

end Protocols

end FileScript
