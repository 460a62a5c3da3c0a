import CoSimIO.Communication.FileTransfers

/-! # The calls of two partners complete when they complete one after the other

A partner that waits for a file waits for the other one. When the calls can be made in some order,
then the first call of this order that is not made yet does not wait.
-/

namespace CoSimIO.FileCommunication

open FileProcess FileScript

set_option autoImplicit false

variable {Event : Type} (c : FileCommunication)

/-- Every identifier has one sender, and the calls can be made in the order. -/
structure Executable (sender : Text → Side) (programs : Side → List DataCall)
    (order : List Side) : Prop where
  directed : Directed sender programs
  orderly : Slots.Orderly [] (fun side => (programs side).map DataCall.action) order

/-- The files of all identifiers -/
def TransferFile (path : Text) : Prop := ∃ identifier, c.Owned identifier path

section Sound

variable {c} {w : FileScript.World Side Text Char Event (List (Text × Text))} {g : DataWorld}
  {programs : Side → List DataCall} {sender : Text → Side} {order : List Side} {side : Side}
  {store : Store Text Char}

theorem TransferSound.ended_iff (h : c.TransferSound programs w g) (side : Side) :
    (w.party side).result.isSome ↔ (g.caller side).current = none := by
  have hOwn := h.party side
  generalize w.party side = party at hOwn
  generalize g.caller side = caller at hOwn
  cases hOwn with
  | calling hCurrent =>
    rw [hCurrent]
    exact ⟨nofun, nofun⟩
  | ended hCurrent => exact ⟨fun _ => hCurrent, fun _ => rfl⟩

theorem TransferSound.todo_of_ended (h : c.TransferSound programs w g)
    (hCurrent : (g.caller side).current = none) : (g.caller side).todo = [] := by
  have hOwn := h.party side
  generalize w.party side = party at hOwn
  generalize g.caller side = caller at hOwn hCurrent
  cases hOwn with
  | calling hOther =>
    rw [hCurrent] at hOther
    cases hOther
  | ended _ hTodo => exact hTodo

/-- A partner that waits at a check cannot make its next call. -/
theorem TransferSound.not_enabled (h : c.TransferSound programs w g)
    (hDirected : Directed sender programs) (hRests : ∀ side, c.Resting (g.caller side))
    (hIdle : TransferIdle g side) {call : DataCall}
    (hCurrent : (g.caller side).current = some call) :
    ¬ Slots.Enabled (Slots.level sender (fun identifier => (sender identifier).other) []
      (fun side => (programs side).map DataCall.action)
      fun side => (g.caller side).returned.length) call.action := by
  intro hEnabled
  obtain ⟨identifier, hIdentifier⟩ : ∃ identifier, call.identifier = identifier := ⟨_, rfl⟩
  obtain ⟨phase, hMailbox⟩ := h.consistent identifier
  have hLevel := hMailbox.level sender hRests h.calls
  have hPhase := hMailbox.phase_of_resting hRests h.calls hDirected
  obtain ⟨instruction, rest, hRest, hWaits⟩ := hIdle.resolve_left (by rw [hCurrent]; nofun)
  rw [hRests side call hCurrent] at hRest
  cases call with
  | exportObject kind other pieces =>
    obtain rfl : other = identifier := hIdentifier
    obtain ⟨_, hProgram, -⟩ := program_exportObject c other kind pieces
    obtain rfl := (List.cons.inj (hProgram.symm.trans hRest)).1
    have hMissing : g.store.isFile (c.dataFile other) = true := hWaits
    rcases hPhase with ⟨rfl, -⟩ | ⟨message, rfl⟩
    · rw [Store.isFile_eq_isSome, hMailbox.files.message_file rfl] at hMissing
      cases hMissing
    · rw [DataCall.action, Slots.Enabled] at hEnabled
      have hOne : (Phase.pending (.ready (sender other) message) (sender other)).length = 1 := by
        rw [Phase.pending, if_pos rfl]
        rfl
      rw [hOne] at hLevel
      omega
  | importObject kind other portions =>
    obtain rfl : other = identifier := hIdentifier
    obtain ⟨_, hProgram, -⟩ := program_importObject c other kind portions
    obtain rfl := (List.cons.inj (hProgram.symm.trans hRest)).1
    have hMissing : g.store.isFile (c.visibleFile other) = false := hWaits
    rcases hPhase with ⟨-, hNone⟩ | ⟨message, rfl⟩
    · rw [DataCall.action, Slots.Enabled] at hEnabled
      rw [hNone, List.length_nil] at hLevel
      omega
    · have hVisible : g.store.isFile (c.visibleFile other) = true := by
        rw [visibleFile]
        split
        · next hAux => exact hMailbox.files.avail hAux
        · rw [Store.isFile_eq_isSome, hMailbox.files.message_file rfl]
          rfl
      rw [hVisible] at hMissing
      cases hMissing

theorem TransferSound.ends (h : c.TransferSound programs w g)
    (hExecutable : Executable sender programs order)
    (hIdle : ∀ side, (w.party side).result.isSome ∨ TransferIdle g side) (side : Side) :
    (w.party side).result.isSome := by
  have hWaits : ∀ side, TransferIdle g side := by
    intro side
    rcases hIdle side with hEnded | hIdle
    · exact .inl ((h.ended_iff side).mp hEnded)
    · exact hIdle
  have hRests : ∀ side, c.Resting (g.caller side) := fun side => h.consistent.resting (hWaits side)
  have hDrop : ∀ side, ((programs side).map DataCall.action).drop (g.caller side).returned.length =
      ((g.caller side).current.toList ++ (g.caller side).todo).map DataCall.action := by
    intro side
    rw [← h.calls side, Caller.calls, List.map_append]
    exact List.drop_left' (by simp)
  rcases Slots.exists_enabled hExecutable.directed.oneWay hExecutable.orderly
    (fun side => (g.caller side).returned.length) with hEnd | ⟨other, action, rest, hNext, hEnabled⟩
  · have hOwn := hEnd side
    rw [hDrop, List.map_eq_nil_iff, List.append_eq_nil_iff] at hOwn
    rw [h.ended_iff]
    exact Option.toList_eq_nil_iff.mp hOwn.1
  · rw [hDrop] at hNext
    cases hCurrent : (g.caller other).current with
    | none =>
      rw [hCurrent, h.todo_of_ended hCurrent] at hNext
      cases hNext
    | some call =>
      rw [hCurrent] at hNext
      obtain rfl := (List.cons.inj hNext).1
      exact absurd hEnabled
        (h.not_enabled hExecutable.directed hRests (hWaits other) hCurrent)

theorem TransferSound.resting_of_ended (h : c.TransferSound programs w g)
    (hEnded : ∀ side, (w.party side).result.isSome) (side : Side) : c.Resting (g.caller side) := by
  intro call hCurrent
  rw [(h.ended_iff side).mp (hEnded side)] at hCurrent
  cases hCurrent

/-- The partners have ended, and no message is left. -/
theorem TransferSound.empty_of_ended (h : c.TransferSound programs w g)
    (hExecutable : Executable sender programs order)
    (hEnded : ∀ side, (w.party side).result.isSome) (identifier : Text) :
    c.Mailbox identifier g .empty := by
  obtain ⟨phase, hMailbox⟩ := h.consistent identifier
  have hRests := h.resting_of_ended hEnded
  have hLevel := hMailbox.level sender hRests h.calls
  rw [Slots.level_end hExecutable.directed.oneWay hExecutable.orderly] at hLevel
  · rcases hMailbox.phase_of_resting hRests h.calls hExecutable.directed with
      ⟨rfl, -⟩ | ⟨message, rfl⟩
    · exact hMailbox
    · rw [Phase.pending, if_pos rfl] at hLevel
      cases hLevel
  · intro side
    have hCurrent := (h.ended_iff side).mp (hEnded side)
    rw [← h.calls side, Caller.calls, hCurrent, h.todo_of_ended hCurrent]
    simp

theorem TransferSound.leaves (h : c.TransferSound programs w g)
    (hExecutable : Executable sender programs order)
    (hEnded : ∀ side, (w.party side).result.isSome) (path : Text) (hPath : c.TransferFile path) :
    w.store.isFile path = false := by
  obtain ⟨identifier, hOwned⟩ := hPath
  have hMailbox := h.empty_of_ended hExecutable hEnded identifier
  rw [← h.store]
  cases hOwned with
  | data =>
    rw [Store.isFile_eq_isSome, hMailbox.files.message_file rfl]
    rfl
  | tmp =>
    rw [Store.isFile_eq_isSome, hMailbox.files.draft_file rfl]
    rfl
  | avail =>
    cases hAux : c.useAuxFileForFileAvailability with
    | true => exact hMailbox.files.avail hAux
    | false => exact h.unannounced hAux identifier

theorem TransferSound.keeps (h : c.TransferSound programs w g)
    (hDirected : Directed sender programs) (side : Side) {path : Text}
    (hPath : ¬ c.TransferFile path) : Store.Keeps w.store (FileScript.turn w side).store path := by
  apply turn_keeps
  intro process next instruction rest hActivity hRest
  have hOwn := h.party side
  generalize hParty : w.party side = party at hOwn
  generalize hCaller : g.caller side = caller at hOwn
  rw [hParty] at hActivity
  cases hOwn with
  | ended => cases hActivity
  | @calling call hCurrent hCloses =>
    cases hActivity
    obtain ⟨phase, hMailbox⟩ := h.consistent call.identifier
    have hContinues := hMailbox.own (hDirected.undisturbed h.calls side) (by rw [hCaller]; exact hCurrent)
      rfl (by rw [hCaller, hRest]; nofun)
    rw [hCaller] at hContinues
    rw [← h.store]
    exact hContinues.2.1 path fun hOwned => hPath ⟨_, hOwned⟩

theorem TransferSound.stable (h : c.TransferSound programs w g)
    (hKeeps : ∀ path, c.TransferFile path → Store.Keeps w.store store path) :
    c.TransferSound programs { w with store := store } { g with store := store } where
  store := rfl
  consistent identifier := by
    obtain ⟨phase, hMailbox⟩ := h.consistent identifier
    have hOwned : ∀ path, c.Owned identifier path → Store.Keeps g.store store path := by
      intro path hOwned
      rw [h.store]
      exact hKeeps path ⟨identifier, hOwned⟩
    exact ⟨phase, hMailbox.files.of_keeps hOwned,
      fun side => (hMailbox.partner side).of_keeps hOwned, hMailbox.history⟩
  calls := h.calls
  unannounced hAux identifier := by
    have hHidden := h.unannounced hAux identifier
    rw [h.store] at hHidden
    rw [(hKeeps _ ⟨identifier, .avail⟩).isFile]
    exact hHidden
  party := h.party

/-- A partner that has made its calls has received what belongs to them. -/
theorem TransferSound.outcome (h : c.TransferSound programs w g) (side : Side) :
    (w.party side).Outcome (delivered programs side) [] := by
  have hFailed := h.consistent.failed side
  have hCalls := h.calls side
  have hPrefix : ∀ identifier, imported identifier (g.caller side).returned <+:
      exported identifier (programs side.other) := by
    intro identifier
    obtain ⟨phase, hMailbox⟩ := h.consistent identifier
    have hTaken := hMailbox.taken_prefix_published side.other
    rw [Side.other_other] at hTaken
    have hImported : imported identifier (g.caller side).returned <+:
        c.taken identifier (g.caller side) := (returned_prefix_past _ _).filterMap _
    exact (hImported.trans hTaken).trans (published_isPrefix (h.calls side.other))
  have hOwn := h.party side
  generalize w.party side = party at hOwn
  generalize g.caller side = caller at hOwn hFailed hCalls hPrefix
  cases hOwn with
  | calling => exact ⟨hFailed, List.prefix_refl _, nofun⟩
  | ended hCurrent hTodo =>
    refine ⟨rfl, List.prefix_refl _, fun r hResult => ⟨?_, rfl⟩⟩
    obtain rfl := Option.some.inj hResult
    apply Slots.eq_deliveries
    · rw [map_fst_imports, ← hCalls, Caller.calls, hCurrent, hTodo]
      simp
    · intro identifier
      rw [taken_imports]
      exact hPrefix identifier

end Sound

section Closing

variable {c}

end Closing

end CoSimIO.FileCommunication
