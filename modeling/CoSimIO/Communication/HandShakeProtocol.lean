import CoSimIO.Communication.HandShakeRuns
import CoSimIO.Library.FileFrame
import CoSimIO.Library.FileProtocol

/-! # The exchange of two files as a protocol -/

namespace CoSimIO.HandShake

open FileProcess FileScript

set_option autoImplicit false

def infoPaths (c : Communication) : List Text :=
  [infoFile c .primary, Communication.availFile (infoFile c .primary), infoFile c .secondary,
    Communication.availFile (infoFile c .secondary)]

section Paths

variable {c : Communication} {data : Side → Text} {side : Side} {mine next : Phase}
  {instruction : Step}

theorem infoFile_mem (side : Side) : infoFile c side ∈ infoPaths c := by
  cases side <;> simp [infoPaths]

theorem availFile_mem (side : Side) : Communication.availFile (infoFile c side) ∈ infoPaths c := by
  cases side <;> simp [infoPaths]

/-- The instructions name the files of the handshake only. -/
theorem Moves.paths (h : Moves c data side mine instruction next) :
    ∀ path ∈ instruction.paths, path ∈ infoPaths c := by
  cases h with
  | _ => simp [Instruction.paths, infoFile_mem, availFile_mem]

theorem Moves.keeps (h : Moves c data side mine instruction next) {store : Store Text Char}
    {process : Process Text Char} {rest : List Step} (hRest : process.rest = instruction :: rest)
    (hHolds : Holds c data side store process mine) {path : Text} (hPath : path ∉ infoPaths c) :
    Store.Keeps store (FileProcess.exec store process).1 path := by
  cases hWrites : instruction.writes with
  | false => exact exec_keeps hRest hWrites fun hNamed => hPath (h.paths path hNamed)
  | true =>
    cases h with
    | write text bytes =>
      obtain ⟨inode, hEntry, hHandle, -⟩ := hHolds
      simp only [FileProcess.exec, hRest, hHandle]
      apply Store.keeps_write hEntry
      rintro rfl
      exact hPath (infoFile_mem side)
    | _ => cases hWrites

end Paths

namespace Plan

variable {c : Communication} {Event Result : Type} {plan : Plan c Event Result}
  {w : World Side Text Char Event Result} {g : Progress} {side : Side}

theorem Sound.keeps (h : plan.Sound w g) (side : Side) {path : Text} (hPath : path ∉ infoPaths c) :
    Store.Keeps w.store (FileScript.turn w side).store path := by
  apply turn_keeps
  intro process next instruction rest hActivity hRest
  have hFollows := h.follows side
  generalize g.left side = left at hFollows
  generalize g.phase side = phase at hFollows
  generalize hParty : w.party side = party at hFollows
  rw [hParty] at hActivity
  cases hFollows with
  | ended => cases hActivity
  | running _ hLeads _ hHolds =>
    cases hActivity
    rw [hRest] at hLeads
    obtain ⟨_, hMove, -⟩ := hLeads
    exact hMove.keeps hRest hHolds hPath

theorem Sound.stable (h : plan.Sound w g) {store : Store Text Char}
    (hKeeps : ∀ path ∈ infoPaths c, Store.Keeps w.store store path) :
    plan.Sound { w with store := store } g where
  files side := by
    have hFiles := h.files side
    refine ⟨?_, ?_, ?_, ?_, hFiles.order, hFiles.otherOrder⟩
    · rw [(hKeeps _ (infoFile_mem side)).file]
      exact hFiles.file
    · rw [(hKeeps _ (infoFile_mem side.other)).file]
      exact hFiles.otherFile
    · rw [(hKeeps _ (availFile_mem side)).isFile]
      exact hFiles.avail
    · rw [(hKeeps _ (availFile_mem side.other)).isFile]
      exact hFiles.otherAvail
  follows side := (h.follows side).transfer fun _ hHolds =>
    hHolds.of_keeps (fun _ => hKeeps _ (infoFile_mem side))
      fun _ => hKeeps _ (infoFile_mem side.other)

theorem Sound.ended_iff (h : plan.Sound w g) (side : Side) :
    (w.party side).result.isSome ↔ g.left side = 0 := by
  have hFollows := h.follows side
  generalize g.left side = left at hFollows ⊢
  generalize g.phase side = phase at hFollows
  generalize w.party side = party at hFollows ⊢
  cases hFollows with
  | running =>
    constructor
    · nofun
    · omega
  | ended => exact ⟨fun _ => rfl, fun _ => rfl⟩

theorem Sound.ends (h : plan.Sound w g)
    (hIdle : ∀ side, (w.party side).result.isSome ∨ g.Idle side) (side : Side) :
    (w.party side).result.isSome := by
  rw [h.ended_iff]
  refine h.left_of_idle (fun side => ?_) side
  rcases hIdle side with hEnded | hIdle
  · exact .inl ((h.ended_iff side).mp hEnded)
  · exact hIdle

theorem Sound.leaves (h : plan.Sound w g) (hEnded : ∀ side, (w.party side).result.isSome)
    (path : Text) (hPath : path ∈ infoPaths c) : w.store.isFile path = false := by
  have hDone := fun side => h.done ((h.ended_iff side).mp (hEnded side))
  have hGone : ∀ side, w.store.isFile (infoFile c side) = false ∧
      w.store.isFile (Communication.availFile (infoFile c side)) = false := by
    intro side
    have hFiles := h.files side
    rw [hDone side, hDone side.other] at hFiles
    rw [Store.isFile_eq_isSome, hFiles.file]
    exact ⟨rfl, hFiles.avail⟩
  simp only [infoPaths, List.mem_cons, List.not_mem_nil, or_false] at hPath
  rcases hPath with rfl | rfl | rfl | rfl
  · exact (hGone .primary).1
  · exact (hGone .primary).2
  · exact (hGone .secondary).1
  · exact (hGone .secondary).2

theorem Sound.outcome_party (h : plan.Sound w g) (side : Side) :
    (w.party side).Outcome (plan.result side) [plan.event side] := by
  have hOutcome := (h.follows side).outcome
  refine ⟨hOutcome.failed, ?_, hOutcome.result⟩
  rcases hOutcome.reported with hReported | hReported
  · rw [hReported]
    exact List.nil_prefix
  · exact ⟨[], by rw [List.append_nil, hReported]⟩

theorem closes_script (plan : Plan c Event Result)
    (hAfter : ∀ side received, (plan.after side received).Closes false) (side : Side) :
    (plan.script side).Closes false := by
  intro _ received
  have hCode : leavesOpen (leavesOpen false (openMyFile c side)) (plan.code side) = false := by
    rw [code, exchangeFiles, FileCommunication.serializeFromFile, ← List.append_assoc,
      leavesOpen_append]
    rfl
  rw [hCode]
  exact hAfter side received

/-- The sides exchange their files. -/
def protocol (plan : Plan c Event Result)
    (hAfter : ∀ side received, (plan.after side received).Closes false) :
    Protocol plan.script plan.result (fun side => [plan.event side]) fun path => path ∈ infoPaths c where
  Ghost := Progress
  Sound := plan.Sound
  idle := Progress.Idle
  rank := Progress.total
  start hFresh :=
    ⟨_, plan.sound_start fun side => ⟨hFresh _ (infoFile_mem side), hFresh _ (availFile_mem side)⟩⟩
  turn := Sound.turn
  keeps h side _ hPath := h.keeps side hPath
  stable h hKeeps := ⟨_, h.stable hKeeps, rfl⟩
  outcome := Sound.outcome_party
  ends := Sound.ends
  leaves := Sound.leaves
  closes := plan.closes_script hAfter

end Plan

end CoSimIO.HandShake
