import CoSimIO.Communication.SynchronizeAll
import CoSimIO.Library.FileFrame
import CoSimIO.Library.FileProtocol

/-! # One call of `SynchronizeAll` as a protocol -/

namespace CoSimIO.Communication

open FileProcess FileScript

set_option autoImplicit false

variable {Event Result : Type} (c : Communication) (tag : Text)

def syncPaths : List Text :=
  [c.syncPath .primary false tag, c.syncPath .primary true tag, c.syncPath .secondary false tag,
    c.syncPath .secondary true tag]

def ofSync (path : Text) : Bool := decide (path ∈ c.syncPaths tag)

/-- `SynchronizeAll` of one partner -/
def synchronize (result : Result) (side : Side) : Script Text Char Event Result :=
  .run (c.synchronizeAll side tag) fun _ => .ended result

/-- How many of its eleven turns a partner has had -/
inductive AtBarrier (result : Result) (side : Side) : Party Text Char Event Result → Nat → Prop
  | running {process : Process Text Char} {k : Nat} (hk : k ≤ 10)
      (hRest : process.rest = (c.synchronizeAll side tag).drop k) (hFailed : process.failed = none) :
      AtBarrier result side ⟨.running process fun _ => .ended result, []⟩ k
  | ended : AtBarrier result side ⟨.ended result, []⟩ 11

structure BarrierSound (result : Side → Result) (w : FileScript.World Side Text Char Event Result)
    (g : Side → Nat) : Prop where
  files : c.Files [tag] (w.store.restrict (c.ofSync tag)) g
  ordered : Ordered g
  party : ∀ side, c.AtBarrier tag (result side) side (w.party side) (g side)

/-- A partner waits for a file that the other one has not made or removed yet. -/
def BarrierIdle (g : Side → Nat) : Side → Prop
  | .primary => g .primary = 6 ∧ g .secondary < 8 ∨ g .primary = 9 ∧ g .secondary < 3
  | .secondary => g .secondary = 0 ∧ g .primary < 5 ∨ g .secondary = 9 ∧ g .primary < 9

def barrierRank (g : Side → Nat) : Nat := (11 - g .primary) + (11 - g .secondary)

section Paths

variable {c tag} {side : Side} {avail : Bool} {tag' path : Text}

theorem syncPath_mem : c.syncPath side avail tag ∈ c.syncPaths tag := by
  cases side <;> cases avail <;> simp [syncPaths]

theorem exists_of_mem_syncPaths (h : path ∈ c.syncPaths tag) :
    ∃ side avail, path = c.syncPath side avail tag := by
  simp only [syncPaths, List.mem_cons, List.not_mem_nil, or_false] at h
  rcases h with h | h | h | h
  · exact ⟨_, _, h⟩
  · exact ⟨_, _, h⟩
  · exact ⟨_, _, h⟩
  · exact ⟨_, _, h⟩

theorem ofSync_of_mem (h : path ∈ c.syncPaths tag) : c.ofSync tag path = true := decide_eq_true h

/-- The instructions name files of this call only. -/
theorem paths_synchronizeAll (side : Side) : ∀ instruction ∈ c.synchronizeAll side tag,
    instruction.writes = false ∧ ∀ path ∈ instruction.paths, path ∈ c.syncPaths tag := by
  cases side with
  | primary => simp [synchronizeAll_primary, Instruction.writes, Instruction.paths, syncPath_mem]
  | secondary =>
    simp [synchronizeAll_secondary, Instruction.writes, Instruction.paths, syncPath_mem]

end Paths

section Files

variable {c tag} {store store' : Store Text Char} {g g' : Side → Nat} {side : Side}

theorem isFile_ofSync {path : Text} (h : path ∈ c.syncPaths tag) :
    (store.restrict (c.ofSync tag)).isFile path = store.isFile path := by
  rw [Store.isFile_restrict, ofSync_of_mem h, Bool.true_and]

/-- The turn in which a partner returns changes nothing for the files. -/
theorem happened_return (hg : g side = 10) {other : Side} {step : Nat} (hLow : 1 ≤ step)
    (hHigh : step ≤ 10) :
    happened (Function.update g side 11 other) step = happened (g other) step := by
  by_cases hSide : other = side
  · rw [hSide, Function.update_self, hg]
    simp only [happened]
    omega
  · rw [Function.update_of_ne hSide]

theorem barrierRank_update {k : Nat} (hLess : g side < k) (hBound : k ≤ 11) :
    barrierRank (Function.update g side k) < barrierRank g := by
  cases side with
  | primary =>
    simp only [barrierRank, Function.update_self, ne_eq, reduceCtorEq, not_false_eq_true,
      Function.update_of_ne]
    omega
  | secondary =>
    simp only [barrierRank, Function.update_self, ne_eq, reduceCtorEq, not_false_eq_true,
      Function.update_of_ne]
    omega

end Files

section Turns

variable {c tag} {result : Side → Result} {w : FileScript.World Side Text Char Event Result}
  {g : Side → Nat} {side : Side}
  {process : Process Text Char} {k : Nat} {instruction : Step} {rest : List Step}

/-- A partner that polls in vain is where the other one has to move. -/
theorem barrierIdle_of_waits (hFiles : c.Files [tag] (w.store.restrict (c.ofSync tag)) g)
    (hg : g side = k) (hRest : (c.synchronizeAll side tag).drop k = instruction :: rest)
    (hWaits : instruction.Waits w.store) : BarrierIdle g side := by
  have hLength := congrArg List.length hRest
  rw [List.length_drop, synchronizeAll_length, List.length_cons] at hLength
  have hk : k < 10 := by omega
  have hPath : ∀ {side avail}, (w.store.restrict (c.ofSync tag)).isFile (c.syncPath side avail tag) =
      w.store.isFile (c.syncPath side avail tag) := isFile_ofSync syncPath_mem
  have hMissing : ∀ {side avail}, w.store.isFile (c.syncPath side avail tag) = false →
      happened (g side.other) (removedAt side avail) ≤ 0 →
        ¬ 0 < happened (g side) (madeAt side avail) := by
    intro side avail hFile hFirst hLast
    have hPending := hFiles.isFile_of_pending avail (n := 0) rfl hFirst hLast
    rw [hPath, hFile] at hPending
    cases hPending
  have hPresent : ∀ {side avail}, w.store.isFile (c.syncPath side avail tag) = true →
      happened (g side.other) (removedAt side avail) < happened (g side) (madeAt side avail) :=
    fun hFile => hFiles.used_of_isFile (hPath.trans hFile)
  cases side with
  | primary =>
    rw [synchronizeAll_primary] at hRest
    interval_cases k
    all_goals simp only [List.drop_succ_cons, List.drop_zero, List.cons.injEq] at hRest
    all_goals obtain ⟨rfl, -⟩ := hRest
    all_goals try cases hWaits
    · have hMade := hMissing hWaits
      simp only [happened, Side.other, removedAt, madeAt, hg] at hMade
      exact .inl ⟨hg, by omega⟩
    · have hRemoved := hPresent hWaits
      simp only [happened, Side.other, removedAt, madeAt, hg] at hRemoved
      exact .inr ⟨hg, by omega⟩
  | secondary =>
    rw [synchronizeAll_secondary] at hRest
    interval_cases k
    all_goals simp only [List.drop_succ_cons, List.drop_zero, List.cons.injEq] at hRest
    all_goals obtain ⟨rfl, -⟩ := hRest
    all_goals try cases hWaits
    · have hMade := hMissing hWaits
      simp only [happened, Side.other, removedAt, madeAt, hg] at hMade
      exact .inl ⟨hg, by omega⟩
    · have hRemoved := hPresent hWaits
      simp only [happened, Side.other, removedAt, madeAt, hg] at hRemoved
      exact .inr ⟨hg, by omega⟩

theorem advanced {store : Store Text Char} (hFiles : c.Files [tag] store g) (hOrdered : Ordered g)
    (hk : k < 10) (hg : g side = k) (hFailed : process.failed = none)
    (hRest : process.rest = (c.synchronizeAll side tag).drop k) :
    Advanced c [tag] store g side tag 0 k process := by
  have hSide : g side = 11 * 0 + k := by omega
  cases side with
  | primary => exact advanced_primary hFiles hOrdered hk hSide rfl hFailed hRest
  | secondary => exact advanced_secondary hFiles hOrdered hk hSide rfl hFailed hRest

theorem BarrierSound.set (h : BarrierSound c tag result w g) {store : Store Text Char} {n : Nat}
    {party : Party Text Char Event Result}
    (hFiles : c.Files [tag] (store.restrict (c.ofSync tag)) (Function.update g side n))
    (hOrdered : Ordered (Function.update g side n)) (hParty : c.AtBarrier tag (result side) side party n) :
    BarrierSound c tag result (w.set store side party) (Function.update g side n) where
  files := hFiles
  ordered := hOrdered
  party other := by
    by_cases hSide : other = side
    · rw [hSide, World.set_party_self, Function.update_self]
      exact hParty
    · rw [World.set_party_other _ _ _ hSide, Function.update_of_ne hSide]
      exact h.party other

theorem BarrierSound.turn (h : BarrierSound c tag result w g) (side : Side) :
    ((g side = 11 ∨ BarrierIdle g side) ∧ FileScript.turn w side = w) ∨
      ∃ g', BarrierSound c tag result (FileScript.turn w side) g' ∧ barrierRank g' < barrierRank g := by
  have hParty := h.party side
  generalize hg : g side = k at hParty
  generalize hOwn : w.party side = party at hParty
  have hActivity := congrArg Party.activity hOwn
  cases hParty with
  | ended => exact .inl ⟨.inl rfl, turn_ended hActivity⟩
  | @running process k hk hRest hFailed =>
    cases hSteps : process.rest with
    | nil =>
      have hLength := congrArg List.length (hRest.symm.trans hSteps)
      rw [List.length_drop, synchronizeAll_length, List.length_nil] at hLength
      have hTen : g side = 10 := by omega
      rw [turn_next hActivity hSteps hFailed, hOwn]
      refine .inr ⟨_, h.set ?_ ?_ .ended, barrierRank_update (by omega) (Nat.le_refl 11)⟩
      · exact h.files.congr fun _ _ hLow hHigh => happened_return hTen hLow hHigh
      · exact h.ordered.congr fun _ _ hLow hHigh => happened_return hTen hLow hHigh
    | cons instruction rest =>
      have hLength := congrArg List.length (hRest.symm.trans hSteps)
      rw [List.length_drop, synchronizeAll_length, List.length_cons] at hLength
      have hMem : instruction ∈ c.synchronizeAll side tag := by
        apply List.mem_of_mem_drop (i := k)
        rw [← hRest, hSteps]
        exact .head _
      have hExec := exec_restrict (s := w.store) hSteps fun path hPath =>
        ofSync_of_mem ((paths_synchronizeAll side _ hMem).2 path hPath)
      have hAdvanced := advanced h.files h.ordered (by omega) hg hFailed hRest
      rw [Advanced, hExec] at hAdvanced
      rw [turn_exec hActivity hSteps, hOwn]
      rcases hAdvanced with hSame | ⟨hFailed', hRest', hFiles, hOrdered⟩
      · left
        have hWaits := waits_of_same hSteps (congrArg Prod.snd hSame)
        refine ⟨.inr (barrierIdle_of_waits h.files hg (hRest.symm.trans hSteps) hWaits), ?_⟩
        rw [exec_of_waits hSteps hWaits]
        change w.set w.store side ⟨.running process fun _ => .ended (result side), []⟩ = w
        rw [← hOwn, World.set_self]
      · rw [Nat.mul_zero, Nat.zero_add] at hFiles hOrdered
        exact .inr ⟨_, h.set hFiles hOrdered (.running (by omega) hRest' hFailed'),
          barrierRank_update (by omega) (by omega)⟩

theorem BarrierSound.ended_iff (h : BarrierSound c tag result w g) (side : Side) :
    (w.party side).result.isSome ↔ g side = 11 := by
  have hParty := h.party side
  generalize g side = k at hParty ⊢
  generalize w.party side = party at hParty
  cases hParty with
  | running hk =>
    constructor
    · nofun
    · omega
  | ended => exact ⟨fun _ => rfl, fun _ => rfl⟩

theorem BarrierSound.ends (h : BarrierSound c tag result w g)
    (hIdle : ∀ side, (w.party side).result.isSome ∨ g side = 11 ∨ BarrierIdle g side)
    (side : Side) : (w.party side).result.isSome := by
  have hPrimary := hIdle .primary
  have hSecondary := hIdle .secondary
  rw [h.ended_iff] at hPrimary hSecondary ⊢
  simp only [BarrierIdle] at hPrimary hSecondary
  cases side with
  | primary => omega
  | secondary => omega

theorem BarrierSound.outcome (h : BarrierSound c tag result w g) (side : Side) :
    (w.party side).Outcome (result side) [] := by
  have hParty := h.party side
  generalize g side = k at hParty
  generalize w.party side = party at hParty
  cases hParty with
  | running _ _ hFailed => exact ⟨hFailed, List.prefix_refl _, nofun⟩
  | ended => exact ⟨rfl, List.prefix_refl _, fun r h => ⟨(Option.some.inj h).symm, rfl⟩⟩

theorem BarrierSound.keeps (h : BarrierSound c tag result w g) (side : Side) {path : Text}
    (hPath : path ∉ c.syncPaths tag) :
    Store.Keeps w.store (FileScript.turn w side).store path := by
  apply turn_keeps
  intro process next instruction rest hActivity hSteps
  have hParty := h.party side
  generalize g side = k at hParty
  generalize hOwn : w.party side = party at hParty
  rw [hOwn] at hActivity
  cases hParty with
  | ended => cases hActivity
  | @running _ k _ hRest =>
    cases hActivity
    have hMem : instruction ∈ c.synchronizeAll side tag := by
      apply List.mem_of_mem_drop (i := k)
      rw [← hRest, hSteps]
      exact .head _
    obtain ⟨hWrites, hPaths⟩ := paths_synchronizeAll side _ hMem
    exact exec_keeps hSteps hWrites fun hNamed => hPath (hPaths path hNamed)

end Turns

end CoSimIO.Communication
