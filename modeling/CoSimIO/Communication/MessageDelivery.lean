import CoSimIO.Communication.MailboxRuns

/-! # What the partners receive through `FileCommunication`

The mailboxes stay consistent in every run whose steps are undisturbed, and one
direction per identifier is enough for that. A partner that exports and then
imports under one identifier may take its own message instead.
-/

namespace CoSimIO.FileCommunication

open FileProcess

set_option autoImplicit false

def Clean (c : FileCommunication) (store : Store Text Char) : Prop :=
  ∀ identifier path, c.Owned identifier path → store.isFile path = false

structure Delivered (c : FileCommunication) (programs : Side → List DataCall) (w : DataWorld) :
    Prop where
  sound : ∀ side, (w.caller side).process.failed = none
  imports : ∀ side identifier, imported identifier (w.caller side.other).returned <+:
    exported identifier (programs side)
  none_lost : ∀ side identifier, ∃ pending,
    exported identifier ((w.caller side).returned.map Prod.fst) <+:
        c.taken identifier (w.caller side.other) ++ pending ∧
      pending.length ≤ 1 ∧
      ∀ message ∈ pending, w.store.file (c.dataFile identifier) = some message

variable {c : FileCommunication} {w : DataWorld} {store : Store Text Char}
  {programs : Side → List DataCall} {schedule : List Side} {identifier : Text} {side : Side}
  {phase : Phase}

theorem file_of_clean (hClean : c.Clean store) {path : Text} (hOwned : c.Owned identifier path) :
    store.file path = none := by
  have hFile := hClean identifier path hOwned
  rw [Store.isFile_eq_isSome] at hFile
  simpa using hFile

theorem Consistent.init (hClean : c.Clean store) : c.Consistent (World.init store programs) := by
  intro identifier
  refine ⟨.empty, ?_, ?_, ?_⟩
  · constructor
    · have hData : store.file (c.dataFile identifier) = none := file_of_clean hClean .data
      rw [World.init, hData]
      split <;> rfl
    · exact fun _ => file_of_clean hClean .tmp
    · exact fun _ => hClean identifier _ .avail
  · exact fun _ => ⟨rfl, nofun, nofun⟩
  · exact fun _ => rfl

theorem Consistent.run (hClean : c.Clean store)
    (hMeets : Schedule.Meets (FileProcess.step fun _ => c.program) c.Undisturbed
      (World.init store programs) schedule)
    (hRun : Schedule.run (FileProcess.step fun _ => c.program) (World.init store programs)
      schedule = some w) : c.Consistent w :=
  Schedule.invariant_of_meets c.Consistent (fun _ _ _ hInv hUndisturbed hStep =>
    hInv.step hUndisturbed hStep) (Consistent.init hClean) hMeets hRun

theorem calls_of_run (hRun : Schedule.run (FileProcess.step fun _ => c.program)
    (World.init store programs) schedule = some w) (side : Side) :
    (w.caller side).calls = programs side :=
  run_calls hRun side

theorem past_prefix_calls (final : Step → Bool) (caller : DataCaller) :
    (past final caller).map Prod.fst <+: caller.calls := by
  unfold past Caller.calls
  rw [List.map_append, List.map_map]
  apply List.prefix_append_right_inj _ |>.mpr
  cases caller.current with
  | none => exact List.nil_prefix
  | some call =>
    by_cases h : caller.process.rest.any final = true <;> simp [h]

theorem published_isPrefix (hCalls : (w.caller side).calls = programs side) :
    c.published identifier (w.caller side) <+: exported identifier (programs side) := by
  rw [← hCalls]
  exact (past_prefix_calls _ _).filterMap _

theorem returned_prefix_past (final : Step → Bool) (caller : DataCaller) :
    caller.returned <+: past final caller :=
  List.prefix_append _ _

theorem Mailbox.taken_prefix_published (h : c.Mailbox identifier w phase) (side : Side) :
    c.taken identifier (w.caller side.other) <+: c.published identifier (w.caller side) := by
  rw [h.history side]
  exact List.prefix_append _ _

theorem Mailbox.pending_file (h : c.Mailbox identifier w phase) {message : Text}
    (hMessage : message ∈ phase.pending side) :
    w.store.file (c.dataFile identifier) = some message := by
  cases phase with
  | empty => cases hMessage
  | sending => cases hMessage
  | ready sender other =>
    rw [h.files.message_file rfl]
    simp only [Phase.pending] at hMessage
    split at hMessage
    · rw [List.mem_singleton.mp hMessage]
      rfl
    · cases hMessage
  | taking receiver other stage =>
    rw [h.files.message_file rfl]
    simp only [Phase.pending] at hMessage
    split at hMessage
    · cases hMessage
    · rw [List.mem_singleton.mp hMessage]
      rfl

theorem Phase.pending_length (phase : Phase) (side : Side) : (phase.pending side).length ≤ 1 := by
  cases phase with
  | empty => exact Nat.zero_le _
  | sending => exact Nat.zero_le _
  | ready sender message => simp only [pending]; split <;> simp
  | taking receiver message stage => simp only [pending]; split <;> simp

/-- In a run without the two disturbances every import delivers the matching export. -/
theorem undisturbed_delivered (c : FileCommunication) (programs : Side → List DataCall)
    (store : Store Text Char) (hClean : c.Clean store) (schedule : List Side) (w : DataWorld)
    (hMeets : Schedule.Meets (FileProcess.step fun _ => c.program) c.Undisturbed
      (World.init store programs) schedule)
    (hRun : Schedule.run (FileProcess.step fun _ => c.program) (World.init store programs)
      schedule = some w) : c.Delivered programs w := by
  have hConsistent := Consistent.run hClean hMeets hRun
  have hCalls := calls_of_run hRun
  constructor
  · intro side
    obtain ⟨phase, hMailbox⟩ := hConsistent []
    exact (hMailbox.partner side).sound
  · intro side identifier
    obtain ⟨phase, hMailbox⟩ := hConsistent identifier
    have hTaken : imported identifier (w.caller side.other).returned <+:
        c.taken identifier (w.caller side.other) := (returned_prefix_past _ _).filterMap _
    exact (hTaken.trans (hMailbox.taken_prefix_published side)).trans
      (published_isPrefix (hCalls side))
  · intro side identifier
    obtain ⟨phase, hMailbox⟩ := hConsistent identifier
    refine ⟨phase.pending side, ?_, phase.pending_length side, fun _ => hMailbox.pending_file⟩
    rw [← hMailbox.history side]
    exact ((returned_prefix_past _ _).map _).filterMap _

def overFiles : FileCommunication where
  connectionName := "my_code_Kratos".toList
  commFolder := "./.CoSimIOComm_my_code_Kratos".toList
  commInFolder := true
  rank := "0".toList
  useAuxFileForFileAvailability := false
  useFileSerializer := true
  alwaysUseSerializer := false

def meshExchange : Side → List DataCall
  | .primary => [.exportObject .mesh "mesh_exchange_1".toList ["own".toList],
      .importObject .mesh "mesh_exchange_1".toList []]
  | .secondary => [.importObject .mesh "mesh_exchange_1".toList [],
      .exportObject .mesh "mesh_exchange_1".toList ["back".toList]]

def inTurns : List Side :=
  List.replicate 11 .primary ++ List.replicate 21 .secondary ++ List.replicate 10 .primary

theorem undisturbed_delivered_meshExchange : ∃ w,
    Schedule.run (FileProcess.step fun _ => overFiles.program)
      (World.init Store.empty meshExchange) inTurns = some w ∧
    overFiles.Delivered meshExchange w ∧
    imported "mesh_exchange_1".toList (w.caller .primary).returned = ["back".toList] := by
  have hMeets : Schedule.Meets (FileProcess.step fun _ => overFiles.program)
      overFiles.Undisturbed (World.init Store.empty meshExchange) inTurns := by
    decide +kernel
  have hRuns : (Schedule.run (FileProcess.step fun _ => overFiles.program)
      (World.init Store.empty meshExchange) inTurns).map
        (fun w => imported "mesh_exchange_1".toList (w.caller .primary).returned) =
      some ["back".toList] := by
    decide +kernel
  obtain ⟨w, hRun, hImported⟩ := Option.map_eq_some_iff.mp hRuns
  have hDelivered := undisturbed_delivered overFiles meshExchange Store.empty (fun _ _ _ => rfl)
    inTurns w hMeets hRun
  exact ⟨w, hRun, hDelivered, hImported⟩

/-- The primary partner runs alone, receives the mesh that it sent, and returns. -/
theorem meshExchange_receives_own : ∃ w,
    Schedule.run (FileProcess.step fun _ => overFiles.program)
      (World.init Store.empty meshExchange) (List.replicate 21 .primary) = some w ∧
    imported "mesh_exchange_1".toList (w.caller .primary).returned = ["own".toList] ∧
    ¬ overFiles.Delivered meshExchange w := by
  have hRuns : (Schedule.run (FileProcess.step fun _ => overFiles.program)
      (World.init Store.empty meshExchange) (List.replicate 21 .primary)).map
        (fun w => imported "mesh_exchange_1".toList (w.caller .primary).returned) =
      some ["own".toList] := by
    decide +kernel
  obtain ⟨w, hRun, hImported⟩ := Option.map_eq_some_iff.mp hRuns
  refine ⟨w, hRun, hImported, fun hDelivered => ?_⟩
  have hImports := hDelivered.imports .secondary "mesh_exchange_1".toList
  rw [show Side.secondary.other = Side.primary from rfl, hImported] at hImports
  revert hImports
  decide

section OneDirection

/-- The imports whose message has been read completely. -/
def received (identifier : Text) (caller : DataCaller) : List Text :=
  imported identifier (past readsAll caller)

theorem program_readsAll (kind : Kind) (portions : List Nat) :
    (c.program (.importObject kind identifier portions)).any readsAll = true := by
  obtain ⟨rest, hProgram, hFollows⟩ := program_importObject c identifier kind portions
  have hRest := (hFollows .primary []).any_readsAll (by split <;> nofun)
  rw [hProgram, List.any_cons, hRest, Bool.or_true]

/-- What has been read is what has been removed, with the message that is being removed. -/
theorem Mailbox.received_cases (h : c.Mailbox identifier w phase) (side : Side) :
    received identifier (w.caller side) = c.taken identifier (w.caller side) ∨
      received identifier (w.caller side) =
        c.taken identifier (w.caller side) ++ phase.pending side.other := by
  unfold received taken
  cases hCurrent : (w.caller side).current with
  | none =>
    rw [past_of_none hCurrent, past_of_none hCurrent]
    exact Or.inl rfl
  | some call =>
    by_cases hImports : importedMessage identifier (call, (w.caller side).process.buffer) = none
    · rw [imported_past_eq hCurrent (Or.inl hImports), imported_past_eq hCurrent (Or.inl hImports)]
      exact Or.inl rfl
    · cases call with
      | exportObject => exact absurd rfl hImports
      | importObject kind other portions =>
        obtain rfl : other = identifier := by
          by_contra hOther
          exact hImports (if_neg hOther)
        cases (h.partner side).standing _ hCurrent rfl with
        | before hActive hProcess =>
          have hRemoves : (c.program (.importObject kind other portions)).any (c.removes other) =
              true := (importedMessage_or_removes _ _ _).resolve_left hImports
          rw [imported_past_eq hCurrent (Or.inr (hProcess ▸ program_readsAll kind portions)),
            imported_past_eq hCurrent (Or.inr (hProcess ▸ hRemoves))]
          exact Or.inl rfl
        | after hActive hRest =>
          have hNone (final : Step → Bool) (hFinal : final .close = false) :
              (w.caller side).process.rest.any final = false := by
            rcases hRest with hRest | hRest <;> rw [hRest]
            · rfl
            · simp [hFinal]
          rw [past_of_done hCurrent (hNone _ rfl), past_of_done hCurrent (hNone _ rfl)]
          exact Or.inl rfl
        | inside hServes hFollows hHolds =>
          cases phase with
          | taking receiver message stage =>
            obtain rfl : receiver = side := hServes
            rw [imported_past_eq hCurrent (Or.inr hFollows.any_removes)]
            by_cases hStage : stage = .finished
            · subst hStage
              have hBuffer : (w.caller receiver).process.buffer = message := hHolds
              rw [past_of_done hCurrent hFollows.not_any_readsAll]
              simp [imported, List.filterMap_append, importedMessage, Phase.pending, hBuffer]
            · rw [imported_past_eq hCurrent (Or.inr (hFollows.any_readsAll hStage))]
              exact Or.inl rfl
          | _ => exact hServes.elim

/-- Every identifier has one sender. -/
def Directed (sender : Text → Side) (programs : Side → List DataCall) : Prop :=
  ∀ side, ∀ call ∈ programs side,
    sender call.identifier = if call.isExport then side else side.other

variable {sender : Text → Side}

theorem current_mem_calls {caller : DataCaller} {call : DataCall}
    (h : caller.current = some call) : call ∈ caller.calls := by
  simp [Caller.calls, h]

theorem exported_eq_nil (hDirected : Directed sender programs) (hSide : sender identifier ≠ side) :
    exported identifier (programs side) = [] := by
  rw [exported, List.filterMap_eq_nil_iff]
  intro call hCall
  have hSender := hDirected side call hCall
  cases call with
  | importObject => rfl
  | exportObject kind other pieces =>
    apply if_neg
    rintro rfl
    exact hSide hSender

theorem Directed.undisturbed (hDirected : Directed sender programs)
    (hCalls : ∀ side, (w.caller side).calls = programs side) (side : Side) :
    c.Undisturbed w side := by
  have hSender (side : Side) {call : DataCall} (hCurrent : (w.caller side).current = some call) :
      sender call.identifier = if call.isExport then side else side.other :=
    hDirected side call (hCalls side ▸ current_mem_calls hCurrent)
  unfold Undisturbed
  split
  · trivial
  · rename_i kind identifier pieces hCurrent
    intro _ _ hExporting
    have hOwn : sender identifier = side := hSender side hCurrent
    unfold Exporting at hExporting
    split at hExporting
    · rename_i kind' other pieces' hOther
      have hPartner : sender other = side.other := hSender side.other hOther
      rw [hExporting.1, hOwn] at hPartner
      exact Side.ne_other side hPartner
    · exact hExporting
  · rename_i kind identifier portions hCurrent
    intro _ _
    have hOwn : sender identifier = side.other := hSender side hCurrent
    have hNone : exported identifier (programs side) = [] :=
      exported_eq_nil hDirected (by rw [hOwn]; exact Side.other_ne side)
    have hPrefix : c.published identifier (w.caller side) <+: exported identifier (programs side) :=
      published_isPrefix (hCalls side)
    rw [hNone, List.prefix_nil] at hPrefix
    rw [hPrefix]
    exact Nat.zero_le _

theorem Directed.meets (hDirected : Directed sender programs) (schedule : List Side) :
    Schedule.Meets (FileProcess.step fun _ => c.program) c.Undisturbed
      (World.init store programs) schedule := by
  apply Schedule.meets_of_invariant fun v : DataWorld =>
    ∀ side, (v.caller side).calls = programs side
  · intro v side v' hCalls hStep other
    rw [step_calls hStep other]
    exact hCalls other
  · exact fun v side hCalls => hDirected.undisturbed hCalls side
  · exact fun _ => rfl

theorem Mailbox.sending_of_exporting (h : c.Mailbox identifier w phase)
    (hExporting : c.Exporting identifier (w.caller side)) :
    ∃ message draft, phase = .sending side message draft := by
  unfold Exporting at hExporting
  split at hExporting
  · rename_i kind other pieces hCurrent
    obtain ⟨rfl, hPast, hPublishes⟩ := hExporting
    cases (h.partner side).standing _ hCurrent rfl with
    | before hActive hProcess => exact absurd (by rw [hProcess]; rfl) hPast
    | after hActive hRest =>
      rcases hRest with hRest | hRest <;> rw [hRest] at hPublishes <;> cases hPublishes
    | inside hServes =>
      cases phase with
      | sending sender message draft =>
        obtain ⟨rfl, -⟩ := hServes
        exact ⟨message, draft, rfl⟩
      | _ => exact hServes.elim
  · exact hExporting.elim

theorem Mailbox.holding_of_open (h : c.Mailbox identifier w phase) {kind : Kind}
    {portions : List Nat} {rest : List Step}
    (hCurrent : (w.caller side).current = some (.importObject kind identifier portions))
    (hRest : (w.caller side).process.rest = .openExisting (c.dataFile identifier) :: rest) :
    ∃ message, phase = .taking side message .holding := by
  cases (h.partner side).standing _ hCurrent rfl with
  | before hActive hProcess =>
    obtain ⟨after, hProgram, -⟩ := program_importObject c identifier kind portions
    rw [hProcess, hProgram] at hRest
    cases hRest
  | after hActive hDone => rcases hDone with hDone | hDone <;> rw [hDone] at hRest <;> cases hRest
  | inside hServes hFollows =>
    rw [hRest] at hFollows
    obtain ⟨next, hMove, -⟩ := hFollows
    cases phase with
    | taking receiver message stage =>
      obtain rfl : receiver = side := hServes
      cases hMove
      exact ⟨message, rfl⟩
    | _ => exact hServes.elim

/-- What holds between the sender and the receiver of one identifier. The sender is in an
export past its check and before publishing only when the receiver removed every visible
message and is outside the part of an import that uses the file. -/
structure Exchange (c : FileCommunication) (programs : Side → List DataCall) (identifier : Text)
    (sender : Side) (w : DataWorld) : Prop where
  sound : ∀ side, (w.caller side).process.failed = none
  opened : ∀ call rest, (w.caller sender.other).current = some call →
    call.identifier = identifier →
    (w.caller sender.other).process.rest = .openExisting (c.dataFile identifier) :: rest →
    ∃ message, w.store.file (c.dataFile identifier) = some message ∧
      c.published identifier (w.caller sender) =
        c.taken identifier (w.caller sender.other) ++ [message]
  exclusive : c.Exporting identifier (w.caller sender) →
    c.published identifier (w.caller sender) = c.taken identifier (w.caller sender.other) ∧
    ∀ call, (w.caller sender.other).current = some call → call.identifier = identifier →
      (w.caller sender.other).process.rest = c.program call ∨
        (w.caller sender.other).process.rest.any (c.removes identifier) = false
  complete : c.published identifier (w.caller sender) <+: exported identifier (programs sender)
  inOrder : received identifier (w.caller sender.other) <+: c.published identifier (w.caller sender)
  close : (c.published identifier (w.caller sender)).length ≤
    (received identifier (w.caller sender.other)).length + 1

theorem directed_exchange (c : FileCommunication) (programs : Side → List DataCall)
    (sender : Text → Side) (hDirected : Directed sender programs) (store : Store Text Char)
    (hClean : c.Clean store) (schedule : List Side) (w : DataWorld)
    (hRun : Schedule.run (FileProcess.step fun _ => c.program) (World.init store programs)
      schedule = some w) (identifier : Text) :
    c.Exchange programs identifier (sender identifier) w := by
  have hConsistent := Consistent.run hClean (hDirected.meets schedule) hRun
  have hCalls := calls_of_run hRun
  obtain ⟨phase, hMailbox⟩ := hConsistent identifier
  have hHistory := hMailbox.history (sender identifier)
  have hReceived := hMailbox.received_cases (sender identifier).other
  rw [Side.other_other] at hReceived
  constructor
  · exact fun side => (hMailbox.partner side).sound
  · intro call rest hCurrent hIdentifier hRest
    have hSender := hDirected _ call (hCalls _ ▸ current_mem_calls hCurrent)
    cases call with
    | exportObject kind other pieces =>
      obtain rfl : other = identifier := hIdentifier
      exact absurd hSender (Side.ne_other _)
    | importObject kind other portions =>
      obtain rfl : other = identifier := hIdentifier
      obtain ⟨message, rfl⟩ := hMailbox.holding_of_open hCurrent hRest
      have hPending : message ∈ Phase.pending
          (.taking (sender other).other message .holding) (sender other) := by
        simp [Phase.pending]
      refine ⟨message, hMailbox.pending_file hPending, ?_⟩
      rw [hHistory]
      simp [Phase.pending]
  · intro hExporting
    obtain ⟨message, draft, rfl⟩ := hMailbox.sending_of_exporting hExporting
    refine ⟨by rw [hHistory]; exact List.append_nil _, fun call hCurrent hIdentifier => ?_⟩
    cases (hMailbox.partner (sender identifier).other).standing call hCurrent hIdentifier with
    | before hActive hProcess => exact Or.inl (by rw [hProcess]; rfl)
    | inside hServes =>
      exact absurd (Option.some.inj hServes.active_eq) (Side.ne_other _)
    | after hActive hRest =>
      exact Or.inr (by rcases hRest with hRest | hRest <;> rw [hRest] <;> rfl)
  · exact published_isPrefix (hCalls _)
  · rw [hHistory]
    rcases hReceived with hReceived | hReceived
    · rw [hReceived]
      exact List.prefix_append _ _
    · exact hReceived ▸ List.prefix_rfl
  · have hPending := phase.pending_length (sender identifier)
    rw [hHistory, List.length_append]
    rcases hReceived with hReceived | hReceived <;> rw [hReceived]
    · omega
    · rw [List.length_append]
      omega

def threeMeshes : Side → List DataCall
  | .primary => List.replicate 3 (.exportObject .mesh "m".toList ["1".toList, "2".toList])
  | .secondary => List.replicate 3 (.importObject .mesh "m".toList [1])

theorem directed_exchange_threeMeshes : ∃ w,
    Schedule.run (FileProcess.step fun _ => overFiles.program)
      (World.init Store.empty threeMeshes)
      (List.replicate 14 .primary ++ List.replicate 9 .secondary) = some w ∧
    received "m".toList (w.caller .secondary) = ["12".toList] ∧
    overFiles.Exchange threeMeshes "m".toList .primary w := by
  have hRuns : (Schedule.run (FileProcess.step fun _ => overFiles.program)
      (World.init Store.empty threeMeshes)
      (List.replicate 14 .primary ++ List.replicate 9 .secondary)).map
        (fun w => received "m".toList (w.caller .secondary)) = some ["12".toList] := by
    decide +kernel
  obtain ⟨w, hRun, hReceived⟩ := Option.map_eq_some_iff.mp hRuns
  have hDirected : Directed (fun _ => .primary) threeMeshes := by
    unfold Directed
    intro side
    cases side <;> decide
  exact ⟨w, hRun, hReceived, directed_exchange overFiles threeMeshes (fun _ => .primary) hDirected
    Store.empty (fun _ _ _ => rfl) _ w hRun "m".toList⟩

end OneDirection

end CoSimIO.FileCommunication
