import CoSimIO.Communication.MessageDelivery
import CoSimIO.Library.FileFrame
import CoSimIO.Library.FileProtocol
import CoSimIO.Library.Slots

/-! # Exports and imports over files as a protocol

The file of an identifier is a slot for one message. The partners make their calls one after the
other, and each import adds to what was received.
-/

namespace CoSimIO

open FileProcess FileScript

set_option autoImplicit false

def DataCall.action : DataCall → Slots.Action Text Text
  | .exportObject _ identifier pieces => .put identifier pieces.flatten
  | .importObject _ identifier _ => .take identifier

/-- What is received with a call that has read the message -/
def DataCall.received (message : Text) : DataCall → List (Text × Text)
  | .exportObject .. => []
  | .importObject _ identifier _ => [(identifier, message)]

namespace FileCommunication

variable {Event : Type} (c : FileCommunication)

def makeCalls : List DataCall → List (Text × Text) →
    Script Text Char Event (List (Text × Text))
  | [], received => .ended received
  | call :: calls, received =>
    .run (c.program call) fun message => makeCalls calls (received ++ call.received message)

/-- Everything received in the calls -/
def imports (returned : List (DataCall × Text)) : List (Text × Text) :=
  returned.flatMap fun entry => entry.1.received entry.2

/-- What a partner receives: each import the message of the export that it belongs to. -/
def delivered (programs : Side → List DataCall) (side : Side) : List (Text × Text) :=
  Slots.deliveries (fun identifier => exported identifier (programs side.other))
    ((programs side).map DataCall.action)

/-- The caller enters its next call. -/
def begin (caller : DataCaller) : DataCaller :=
  match caller.todo with
  | [] => caller
  | call :: todo => caller.enter call todo (c.program call)

def callsWeight : List DataCall → Nat
  | [] => 0
  | call :: calls => cost (c.program call) + 1 + callsWeight calls

def weight (caller : DataCaller) : Nat :=
  cost caller.process.rest + caller.current.toList.length + c.callsWeight caller.todo

def transferRank (g : DataWorld) : Nat := c.weight (g.caller .primary) + c.weight (g.caller .secondary)

inductive AtCall : DataCaller → FileScript.Party Text Char Event (List (Text × Text)) → Prop
  | calling {caller : DataCaller} {call : DataCall} (hCurrent : caller.current = some call)
      (hCloses : leavesOpen caller.process.handle.isSome caller.process.rest = false) :
      AtCall caller ⟨.running caller.process fun message =>
        c.makeCalls caller.todo (imports caller.returned ++ call.received message), []⟩
  | ended {caller : DataCaller} (hCurrent : caller.current = none) (hTodo : caller.todo = []) :
      AtCall caller ⟨.ended (imports caller.returned), []⟩

structure TransferSound (programs : Side → List DataCall)
    (w : FileScript.World Side Text Char Event (List (Text × Text))) (g : DataWorld) : Prop where
  store : g.store = w.store
  consistent : c.Consistent g
  calls : ∀ side, (g.caller side).calls = programs side
  unannounced : c.useAuxFileForFileAvailability = false →
    ∀ identifier, g.store.isFile (Communication.availFile (c.dataFile identifier)) = false
  party : ∀ side, c.AtCall (g.caller side) (w.party side)

/-- The partner has ended, or waits for a file. -/
def TransferIdle (g : DataWorld) (side : Side) : Prop :=
  (g.caller side).current = none ∨ ∃ instruction rest,
    (g.caller side).process.rest = instruction :: rest ∧ instruction.Waits g.store

section Lists

variable {c} {caller : DataCaller} {call : DataCall} {message : Text}
  {returned : List (DataCall × Text)} {calls : List DataCall} {identifier : Text}

theorem imports_append (returned : List (DataCall × Text)) (call : DataCall) (message : Text) :
    imports (returned ++ [(call, message)]) = imports returned ++ call.received message := by
  rw [imports, List.flatMap_append, List.flatMap_singleton]
  rfl

theorem exported_eq_puts (identifier : Text) (calls : List DataCall) :
    exported identifier calls = Slots.puts identifier (calls.map DataCall.action) := by
  induction calls with
  | nil => rfl
  | cons call calls ih =>
    cases call with
    | exportObject kind other pieces =>
      rw [exported, List.filterMap_cons]
      by_cases hOther : other = identifier
      · simp only [exportedMessage, if_pos hOther, List.map_cons, DataCall.action, Slots.puts, ← ih]
        rfl
      · simp only [exportedMessage, if_neg hOther, List.map_cons, DataCall.action, Slots.puts, ← ih]
        rfl
    | importObject kind other portions => exact ih

theorem takes_eq_length (identifier : Text) (returned : List (DataCall × Text)) :
    Slots.takes identifier ((returned.map Prod.fst).map DataCall.action) =
      (imported identifier returned).length := by
  induction returned with
  | nil => rfl
  | cons entry returned ih =>
    obtain ⟨call, message⟩ := entry
    cases call with
    | exportObject kind other pieces => exact ih
    | importObject kind other portions =>
      rw [imported, List.filterMap_cons]
      by_cases hOther : other = identifier
      · simp only [importedMessage, if_pos hOther, List.map_cons, DataCall.action, Slots.takes, ih]
        rfl
      · simp only [importedMessage, if_neg hOther, List.map_cons, DataCall.action, Slots.takes, ih]
        rfl

theorem map_fst_imports (returned : List (DataCall × Text)) :
    (imports returned).map Prod.fst =
      Slots.takenKeys ((returned.map Prod.fst).map DataCall.action) := by
  induction returned with
  | nil => rfl
  | cons entry returned ih =>
    obtain ⟨call, message⟩ := entry
    cases call with
    | exportObject kind other pieces => exact ih
    | importObject kind other portions => exact congrArg (other :: ·) ih

theorem taken_imports (identifier : Text) (returned : List (DataCall × Text)) :
    Slots.taken identifier (imports returned) = imported identifier returned := by
  induction returned with
  | nil => rfl
  | cons entry returned ih =>
    obtain ⟨call, message⟩ := entry
    cases call with
    | exportObject kind other pieces => exact ih
    | importObject kind other portions =>
      have hImports : imports ((.importObject kind other portions, message) :: returned) =
          (other, message) :: imports returned := rfl
      rw [hImports, imported, List.filterMap_cons, Slots.taken, ih]
      by_cases hOther : other = identifier
      · simp only [importedMessage, if_pos hOther]
        rfl
      · simp only [importedMessage, if_neg hOther]
        rfl

end Lists

section Programs

variable {c} {call : DataCall} {programs : Side → List DataCall} {sender : Text → Side}

theorem Directed.oneWay (h : Directed sender programs) :
    Slots.OneWay sender (fun identifier => (sender identifier).other) fun side =>
      (programs side).map DataCall.action where
  put side identifier message hMem := by
    obtain ⟨call, hCall, hAction⟩ := List.mem_map.mp hMem
    have hSender := h side call hCall
    cases call with
    | importObject => cases hAction
    | exportObject kind other pieces =>
      cases hAction
      exact hSender.symm
  take side identifier hMem := by
    obtain ⟨call, hCall, hAction⟩ := List.mem_map.mp hMem
    have hSender := h side call hCall
    cases call with
    | exportObject => cases hAction
    | importObject kind other portions =>
      cases hAction
      have hOther : sender identifier = side.other := hSender
      rw [hOther, Side.other_other]

theorem leavesOpen_makeFileVisible (path : Text) :
    leavesOpen false (c.makeFileVisible path c.useAuxFileForFileAvailability) = false := by
  rw [Communication.makeFileVisible]
  split
  · rfl
  · rfl

theorem leavesOpen_waitForPath (path : Text) :
    leavesOpen false (Communication.waitForPath path c.useAuxFileForFileAvailability) = false := by
  rw [Communication.waitForPath]
  split
  · rfl
  · rfl

theorem leavesOpen_program (call : DataCall) : leavesOpen false (c.program call) = false := by
  cases call with
  | exportObject kind identifier pieces =>
    rw [program_export]
    split
    · simp only [genericSendWithFileSerializer, serializeToFile, leavesOpen_append, leavesOpen,
        leavesOpen_makeFileVisible]
    · simp only [genericSend, leavesOpen_append, leavesOpen, leavesOpen_makeFileVisible]
  | importObject kind identifier portions =>
    rw [program_import]
    split
    · simp only [genericReceiveWithFileSerializer, serializeFromFile, leavesOpen_append, leavesOpen,
        Communication.removePath]
    · simp only [genericReceive, leavesOpen_append, leavesOpen, Communication.removePath]

theorem Moves.announces {identifier : Text} {phase next : Phase} {instruction : Step}
    (h : c.Moves identifier phase instruction next)
    (hAux : c.useAuxFileForFileAvailability = false) (other : Text) :
    Communication.availFile (c.dataFile other) ∉ instruction.paths := by
  cases h with
  | announce _ _ hTrue => exact absurd (hAux.symm.trans hTrue) Bool.false_ne_true
  | removeAvail _ _ hTrue => exact absurd (hAux.symm.trans hTrue) Bool.false_ne_true
  | _ => simp [Instruction.paths, c.availFile_ne_dataFile, c.availFile_ne_tmpFile]

end Programs

section Steps

variable {c} {w : FileScript.World Side Text Char Event (List (Text × Text))} {g : DataWorld}
  {programs : Side → List DataCall} {sender : Text → Side} {side : Side} {call : DataCall}
  {phase : Phase} {instruction : Step} {rest : List Step}

theorem Mailbox.unannounced {identifier : Text} (h : c.Mailbox identifier g phase)
    (hCurrent : (g.caller side).current = some call) (hIdentifier : call.identifier = identifier)
    (hRest : (g.caller side).process.rest = instruction :: rest)
    (hAux : c.useAuxFileForFileAvailability = false) (other : Text) :
    Communication.availFile (c.dataFile other) ∉ instruction.paths := by
  cases (h.partner side).standing call hCurrent hIdentifier with
  | before _ hProcess =>
    rw [hProcess] at hRest
    cases call with
    | exportObject kind identifier pieces =>
      obtain ⟨_, hProgram, -⟩ := program_exportObject c identifier kind pieces
      obtain rfl := (List.cons.inj (hProgram.symm.trans hRest)).1
      simp [Instruction.paths, c.availFile_ne_dataFile]
    | importObject kind identifier portions =>
      obtain ⟨_, hProgram, -⟩ := program_importObject c identifier kind portions
      obtain rfl := (List.cons.inj (hProgram.symm.trans hRest)).1
      simp [Instruction.paths, visibleFile, hAux, c.availFile_ne_dataFile]
  | inside _ hFollows _ =>
    rw [hRest] at hFollows
    obtain ⟨_, hMove, -⟩ := hFollows
    exact hMove.announces hAux other
  | after _ hDone =>
    rw [hRest] at hDone
    rcases hDone with hDone | hDone
    · cases hDone
    · cases hDone
      exact List.not_mem_nil

theorem Consistent.begin (h : c.Consistent g) (side : Side) (hCurrent : (g.caller side).current = none) :
    c.Consistent (g.set g.store side (c.begin (g.caller side))) := by
  unfold FileCommunication.begin
  cases (g.caller side).todo with
  | nil =>
    have hSame : g.set g.store side (g.caller side) = g := by simp [FileProcess.World.set]
    exact hSame.symm ▸ h
  | cons call todo =>
    intro identifier
    obtain ⟨phase, hMailbox⟩ := h identifier
    exact ⟨phase, hMailbox.enter hCurrent⟩

theorem Consistent.leave (h : c.Consistent g) (hCurrent : (g.caller side).current = some call)
    (hRest : (g.caller side).process.rest = []) :
    c.Consistent (g.set g.store side ((g.caller side).leave call)) := by
  intro identifier
  obtain ⟨phase, hMailbox⟩ := h identifier
  exact ⟨phase, hMailbox.leave hCurrent hRest⟩

theorem Consistent.failed (h : c.Consistent g) (side : Side) :
    (g.caller side).process.failed = none := by
  obtain ⟨_, hMailbox⟩ := h []
  exact (hMailbox.partner side).sound

theorem transferRank_set {store : Store Text Char} {caller : DataCaller}
    (h : c.weight caller < c.weight (g.caller side)) :
    c.transferRank (g.set store side caller) < c.transferRank g := by
  have hOther : c.weight ((g.set store side caller).caller side.other) =
      c.weight (g.caller side.other) := by
    rw [World.set_caller_other _ _ _ (Side.other_ne side)]
  have hOwn : c.weight ((g.set store side caller).caller side) = c.weight caller := by
    rw [World.set_caller_self]
  rw [transferRank, transferRank]
  cases side with
  | primary =>
    rw [Side.other] at hOther
    omega
  | secondary =>
    rw [Side.other] at hOther
    omega

theorem TransferSound.set (h : c.TransferSound programs w g) {store : Store Text Char}
    {caller : DataCaller} {party : FileScript.Party Text Char Event (List (Text × Text))}
    (hConsistent : c.Consistent (g.set store side caller)) (hCalls : caller.calls = programs side)
    (hUnannounced : c.useAuxFileForFileAvailability = false → ∀ identifier,
      store.isFile (Communication.availFile (c.dataFile identifier)) = false)
    (hParty : c.AtCall caller party) :
    c.TransferSound programs (w.set store side party) (g.set store side caller) where
  store := rfl
  consistent := hConsistent
  calls other := by
    rcases Side.eq_or_eq_other side other with rfl | rfl
    · rw [World.set_caller_self]
      exact hCalls
    · rw [World.set_caller_other _ _ _ (Side.other_ne side)]
      exact h.calls side.other
  unannounced := hUnannounced
  party other := by
    rcases Side.eq_or_eq_other side other with rfl | rfl
    · rw [World.set_caller_self, FileScript.World.set_party_self]
      exact hParty
    · rw [World.set_caller_other _ _ _ (Side.other_ne side),
        FileScript.World.set_party_other _ _ _ (Side.other_ne side)]
      exact h.party side.other

/-- The partner goes on with the next call, or ends. -/
theorem atCall_begin (caller : DataCaller) (process : Process Text Char)
    (hCurrent : caller.current = none) (hProcess : process.handle = none)
    (hFailed : process.failed = none) :
    c.AtCall (c.begin caller) ((c.makeCalls caller.todo (imports caller.returned) :
      Script Text Char Event (List (Text × Text))).resume process []) := by
  unfold FileCommunication.begin
  cases hTodo : caller.todo with
  | nil => exact .ended hCurrent hTodo
  | cons call todo =>
    have hStart : ({ process with rest := c.program call, buffer := [] } : Process Text Char) =
        Process.start (c.program call) := by
      rw [Process.start, hProcess, hFailed]
    have hEntered : (caller.enter call todo (c.program call)).current = some call := rfl
    have hCalling : c.AtCall (caller.enter call todo (c.program call))
        ⟨.running (Process.start (c.program call)) fun message =>
          (c.makeCalls todo (imports caller.returned ++ call.received message) :
            Script Text Char Event _), []⟩ :=
      .calling hEntered (leavesOpen_program call)
    rw [← hStart] at hCalling
    exact hCalling

theorem weight_begin_leave {caller : DataCaller} (hCurrent : caller.current = some call) :
    c.weight (c.begin (caller.leave call)) < c.weight caller := by
  have hTodo : (caller.leave call).todo = caller.todo := rfl
  rw [FileCommunication.begin, hTodo]
  cases hCalls : caller.todo with
  | nil =>
    simp only [weight, Caller.leave, hCurrent, hCalls, Process.idle, Process.start, cost,
      Option.toList_none, Option.toList_some, List.length_nil, List.length_singleton, callsWeight]
    omega
  | cons next todo =>
    simp only [weight, Caller.enter, hCurrent, hCalls, Process.start, Option.toList_some,
      List.length_singleton, callsWeight]
    omega

theorem calls_begin (caller : DataCaller) (hCurrent : caller.current = none) :
    (c.begin caller).calls = caller.calls := by
  rw [FileCommunication.begin]
  cases hTodo : caller.todo with
  | nil => rfl
  | cons call todo => simp [Caller.calls, Caller.enter, hCurrent, hTodo]

/-- What a step of the call that the partner is in does to the files and to the partner. -/
theorem TransferSound.exec (h : c.TransferSound programs w g) (hDirected : Directed sender programs)
    (hCurrent : (g.caller side).current = some call)
    (hRest : (g.caller side).process.rest = instruction :: rest) :
    c.Consistent (g.set (FileProcess.exec g.store (g.caller side).process).1 side
      ((g.caller side).resume (FileProcess.exec g.store (g.caller side).process).2)) := by
  apply h.consistent.step (hDirected.undisturbed h.calls side)
  have hFailed := h.consistent.failed side
  simp only [FileProcess.step, hFailed, hCurrent, hRest, Option.isSome_none, Bool.false_eq_true,
    if_false]

theorem TransferSound.unannounced_exec (h : c.TransferSound programs w g)
    (hCurrent : (g.caller side).current = some call)
    (hRest : (g.caller side).process.rest = instruction :: rest)
    (hAux : c.useAuxFileForFileAvailability = false) (identifier : Text) :
    (FileProcess.exec g.store (g.caller side).process).1.isFile
      (Communication.availFile (c.dataFile identifier)) = false := by
  obtain ⟨_, hMailbox⟩ := h.consistent call.identifier
  rw [exec_isFile hRest (hMailbox.unannounced hCurrent rfl hRest hAux identifier)]
  exact h.unannounced hAux identifier

theorem TransferSound.turn (h : c.TransferSound programs w g) (hDirected : Directed sender programs)
    (side : Side) :
    (TransferIdle g side ∧ FileScript.turn w side = w) ∨
      ∃ g', c.TransferSound programs (FileScript.turn w side) g' ∧
        c.transferRank g' < c.transferRank g := by
  have hFailed := h.consistent.failed side
  have hOwn := h.party side
  have hCalls := h.calls side
  generalize hParty : w.party side = party at hOwn
  generalize hCaller : g.caller side = caller at hOwn hFailed hCalls
  cases hOwn with
  | ended hCurrent hTodo =>
    have hActivity : (w.party side).activity = .ended (imports caller.returned) := by rw [hParty]
    exact .inl ⟨.inl (hCaller ▸ hCurrent), turn_ended hActivity⟩
  | @calling call hCurrent hCloses =>
    have hActivity : (w.party side).activity = .running caller.process fun message =>
        c.makeCalls caller.todo (imports caller.returned ++ call.received message) := by
      rw [hParty]
    cases hRest : caller.process.rest with
    | nil =>
      right
      rw [hRest] at hCloses
      have hHandle : caller.process.handle = none := by simpa [leavesOpen] using hCloses
      have hLeft := h.consistent.leave (hCaller ▸ hCurrent) (by rw [hCaller]; exact hRest)
      rw [hCaller] at hLeft
      have hBegun := hLeft.begin side (by rw [World.set_caller_self]; rfl)
      rw [World.set_caller_self] at hBegun
      have hTwice : (g.set g.store side (caller.leave call)).set
          (g.set g.store side (caller.leave call)).store side (c.begin (caller.leave call)) =
            g.set g.store side (c.begin (caller.leave call)) := by
        simp [FileProcess.World.set]
      rw [hTwice] at hBegun
      rw [turn_next hActivity hRest hFailed, hParty, ← h.store]
      refine ⟨_, h.set hBegun ?_ h.unannounced ?_, transferRank_set ?_⟩
      · rw [calls_begin _ rfl, ← hCalls]
        simp [Caller.calls, Caller.leave, hCurrent]
      · have hAt : c.AtCall (c.begin (caller.leave call)) ((c.makeCalls caller.todo
            (imports (caller.leave call).returned) : Script Text Char Event _).resume
              caller.process []) :=
          atCall_begin (caller.leave call) caller.process rfl hHandle hFailed
        have hImports : imports (caller.leave call).returned =
            imports caller.returned ++ call.received caller.process.buffer :=
          imports_append _ _ _
        rw [hImports] at hAt
        exact hAt
      · rw [hCaller]
        exact weight_begin_leave hCurrent
    | cons instruction rest =>
      have hRun := h.exec hDirected (by rw [hCaller]; exact hCurrent) (by rw [hCaller]; exact hRest)
      have hHidden := h.unannounced_exec (by rw [hCaller]; exact hCurrent) (by rw [hCaller]; exact hRest)
      rw [hCaller] at hRun hHidden
      rw [turn_exec hActivity hRest, hParty, ← h.store]
      rcases exec_cost g.store
        (show caller.process.rest ≠ [] by rw [hRest]; exact List.cons_ne_nil _ _) with hSame | hLess
      · refine .inl ⟨.inr ⟨instruction, rest, by rw [hCaller]; exact hRest, ?_⟩, ?_⟩
        · exact waits_of_same hRest (congrArg Prod.snd hSame)
        · rw [hSame, h.store]
          conv_rhs => rw [← FileScript.World.set_self w side, hParty]
      · refine .inr ⟨_, h.set hRun hCalls hHidden (.calling hCurrent ?_), transferRank_set ?_⟩
        · have hSound := hRun.failed side
          rw [World.set_caller_self] at hSound
          exact Bool.eq_false_iff.mpr fun hOpen =>
            Bool.eq_false_iff.mp hCloses (leavesOpen_exec hRest hSound hOpen)
        · rw [hCaller]
          simp only [weight, Caller.resume_process, Caller.resume_current, Caller.resume_todo]
          omega

end Steps

section Rest

variable {c} {w : FileScript.World Side Text Char Event (List (Text × Text))} {g : DataWorld}
  {programs : Side → List DataCall} {sender : Text → Side} {side : Side} {call : DataCall}
  {phase : Phase} {identifier : Text}

variable (c) in
/-- The partner is between two calls, or at the check that a call begins with. -/
def Resting (caller : DataCaller) : Prop :=
  ∀ call, caller.current = some call → caller.process = Process.start (c.program call)

theorem program_waits (call : DataCall) : ∃ instruction rest,
    c.program call = instruction :: rest ∧ ∀ identifier phase next,
      ¬ c.Moves identifier phase instruction next ∧ instruction ≠ .close := by
  cases call with
  | exportObject kind identifier pieces =>
    obtain ⟨rest, hProgram, -⟩ := program_exportObject c identifier kind pieces
    exact ⟨_, rest, hProgram, fun _ _ _ => ⟨nofun, nofun⟩⟩
  | importObject kind identifier portions =>
    obtain ⟨rest, hProgram, -⟩ := program_importObject c identifier kind portions
    exact ⟨_, rest, hProgram, fun _ _ _ => ⟨nofun, nofun⟩⟩

/-- A partner that waits is at the check of its call. -/
theorem Consistent.resting (h : c.Consistent g) (hIdle : TransferIdle g side) :
    c.Resting (g.caller side) := by
  intro call hCurrent
  rcases hIdle with hNone | ⟨instruction, rest, hRest, hWaits⟩
  · rw [hNone] at hCurrent
    cases hCurrent
  · obtain ⟨phase, hMailbox⟩ := h call.identifier
    cases (hMailbox.partner side).standing call hCurrent rfl with
    | before _ hProcess => exact hProcess
    | inside _ hFollows _ =>
      rw [hRest] at hFollows
      obtain ⟨_, hMove, -⟩ := hFollows
      cases hMove with
      | _ => cases hWaits
    | after _ hDone =>
      rw [hRest] at hDone
      rcases hDone with hDone | hDone
      · cases hDone
      · cases hDone
        cases hWaits

theorem Mailbox.not_active (h : c.Mailbox identifier g phase) (hRests : c.Resting (g.caller side)) :
    phase.active ≠ some side := by
  by_cases hOut : ∀ call, (g.caller side).current = some call → call.identifier ≠ identifier
  · exact (h.partner side).idle hOut
  · simp only [not_forall, not_not] at hOut
    obtain ⟨call, hCurrent, hIdentifier⟩ := hOut
    obtain ⟨instruction, rest, hProgram, hNot⟩ := program_waits (c := c) call
    have hRest : (g.caller side).process.rest = instruction :: rest := by
      rw [hRests call hCurrent]
      exact hProgram
    cases (h.partner side).standing call hCurrent hIdentifier with
    | before hActive _ => exact hActive
    | inside _ hFollows _ =>
      rw [hRest] at hFollows
      obtain ⟨_, hMove, -⟩ := hFollows
      exact absurd hMove (hNot _ _ _).1
    | after hActive _ => exact hActive

theorem published_of_resting (hRests : c.Resting (g.caller side)) (identifier : Text) :
    c.published identifier (g.caller side) =
      exported identifier ((g.caller side).returned.map Prod.fst) := by
  cases hCurrent : (g.caller side).current with
  | none => rw [published, past_of_none hCurrent]
  | some call =>
    apply published_eq hCurrent
    rw [hRests call hCurrent]
    exact exportedMessage_or_publishes identifier call

theorem taken_of_resting (hRests : c.Resting (g.caller side)) (identifier : Text) :
    c.taken identifier (g.caller side) = imported identifier (g.caller side).returned := by
  cases hCurrent : (g.caller side).current with
  | none => rw [taken, past_of_none hCurrent]
  | some call =>
    apply taken_eq hCurrent
    rw [hRests call hCurrent]
    exact importedMessage_or_removes identifier call _

/-- When both partners rest, the level of a slot is the number of messages in the mailbox. -/
theorem Mailbox.level (h : c.Mailbox identifier g phase) (sender : Text → Side)
    (hRests : ∀ side, c.Resting (g.caller side))
    (hCalls : ∀ side, (g.caller side).calls = programs side) :
    Slots.level sender (fun identifier => (sender identifier).other) []
      (fun side => (programs side).map DataCall.action) (fun side => (g.caller side).returned.length)
      identifier = (phase.pending (sender identifier)).length := by
  have hTake : ∀ side, ((programs side).map DataCall.action).take (g.caller side).returned.length =
      ((g.caller side).returned.map Prod.fst).map DataCall.action := by
    intro side
    rw [← hCalls side, Caller.calls, List.map_append]
    exact List.take_left' (by simp)
  have hHistory := congrArg List.length (h.history (sender identifier))
  rw [published_of_resting (hRests _), taken_of_resting (hRests _), List.length_append] at hHistory
  rw [Slots.level_nil, hTake, hTake, ← exported_eq_puts, takes_eq_length]
  omega

theorem Mailbox.pending_other (h : c.Mailbox identifier g phase)
    (hCalls : ∀ side, (g.caller side).calls = programs side) (hDirected : Directed sender programs) :
    phase.pending (sender identifier).other = [] := by
  have hNone : exported identifier (programs (sender identifier).other) = [] :=
    exported_eq_nil hDirected (Side.ne_other _)
  have hPublished : c.published identifier (g.caller (sender identifier).other) <+:
      exported identifier (programs (sender identifier).other) := published_isPrefix (hCalls _)
  rw [hNone, List.prefix_nil, h.history, List.append_eq_nil_iff] at hPublished
  exact hPublished.2

theorem Mailbox.phase_of_resting (h : c.Mailbox identifier g phase)
    (hRests : ∀ side, c.Resting (g.caller side))
    (hCalls : ∀ side, (g.caller side).calls = programs side) (hDirected : Directed sender programs) :
    (phase = .empty ∧ phase.pending (sender identifier) = []) ∨
      ∃ message, phase = .ready (sender identifier) message := by
  have hActive : ∀ side, phase.active ≠ some side := fun side => h.not_active (hRests side)
  have hOther := h.pending_other hCalls hDirected
  cases phase with
  | empty => exact .inl ⟨rfl, rfl⟩
  | sending side => exact absurd rfl (hActive side)
  | taking side => exact absurd rfl (hActive side)
  | ready side message =>
    rcases Side.eq_or_eq_other (sender identifier) side with rfl | rfl
    · exact .inr ⟨message, rfl⟩
    · rw [Phase.pending, if_pos rfl] at hOther
      cases hOther

end Rest

end FileCommunication

end CoSimIO
