import CoSimIO.Communication.Mailbox

/-! # Runs of two partners over their mailboxes

The invariant of one identifier relates the phase of its mailbox to the positions of
both partners and to the messages that were exported and imported so far. It survives
every step in which no partner finds its own message and no two partners fill the
same file.
-/

namespace CoSimIO.FileCommunication

open FileProcess

set_option autoImplicit false

abbrev DataCaller := Caller Text Char DataCall

abbrev DataWorld := World Side Text Char DataCall

def exportedMessage (identifier : Text) : DataCall → Option Text
  | .exportObject _ other pieces => if other = identifier then some pieces.flatten else none
  | .importObject .. => none

def importedMessage (identifier : Text) : DataCall × Text → Option Text
  | (.importObject _ other _, buffer) => if other = identifier then some buffer else none
  | (.exportObject .., _) => none

def exported (identifier : Text) (calls : List DataCall) : List Text :=
  calls.filterMap (exportedMessage identifier)

def imported (identifier : Text) (returned : List (DataCall × Text)) : List Text :=
  returned.filterMap (importedMessage identifier)

/-- The calls that returned, and the current one when none of the given steps is left in it. -/
def past (final : Step → Bool) (caller : DataCaller) : List (DataCall × Text) :=
  caller.returned ++ (caller.current.toList.filter fun _ => !caller.process.rest.any final).map
    fun call => (call, caller.process.buffer)

variable (c : FileCommunication) (identifier : Text)

def published (caller : DataCaller) : List Text :=
  exported identifier ((past (c.publishes identifier) caller).map Prod.fst)

def taken (caller : DataCaller) : List Text :=
  imported identifier (past (c.removes identifier) caller)

/-- The partner is in an export, past the check for an old file, and its message is not visible. -/
def Exporting (caller : DataCaller) : Prop :=
  match caller.current with
  | some (.exportObject kind other pieces) => other = identifier ∧
    caller.process.rest ≠ c.program (.exportObject kind other pieces) ∧
    caller.process.rest.any (c.publishes identifier) = true
  | _ => False

/-- An export that finds no file does so while its partner is not filling one, and an import
that finds a file does so while its partner has removed all that this side made visible. -/
def Undisturbed (w : DataWorld) (side : Side) : Prop :=
  match (w.caller side).current with
  | none => True
  | some (.exportObject kind identifier pieces) =>
    (w.caller side).process.rest = c.program (.exportObject kind identifier pieces) →
      w.store.isFile (c.dataFile identifier) = false →
      ¬ c.Exporting identifier (w.caller side.other)
  | some (.importObject kind identifier portions) =>
    (w.caller side).process.rest = c.program (.importObject kind identifier portions) →
      w.store.isFile (c.visibleFile identifier) = true →
      (c.published identifier (w.caller side)).length ≤
        (c.taken identifier (w.caller side.other)).length

instance (caller : DataCaller) : Decidable (c.Exporting identifier caller) := by
  unfold Exporting
  split <;> infer_instance

instance (w : DataWorld) (side : Side) : Decidable (c.Undisturbed w side) := by
  unfold Undisturbed
  split <;> infer_instance

def Serves : Phase → Side → DataCall → Prop
  | .sending sender message _, side, .exportObject _ _ pieces =>
    sender = side ∧ message = pieces.flatten
  | .taking receiver _ _, side, .importObject .. => receiver = side
  | _, _, _ => False

inductive Standing (store : Store Text Char) (phase : Phase) (side : Side) (call : DataCall)
    (process : Process Text Char) : Prop
  | before (hActive : phase.active ≠ some side) (hProcess : process = Process.start (c.program call))
  | inside (hServes : Serves phase side call) (hFollows : c.Follows identifier side phase process.rest)
      (hHolds : c.Holds identifier store process phase)
  | after (hActive : phase.active ≠ some side) (hRest : process.rest = [] ∨ process.rest = [.close])

structure Partner (store : Store Text Char) (phase : Phase) (side : Side) (caller : DataCaller) :
    Prop where
  sound : caller.process.failed = none
  idle : (∀ call, caller.current = some call → call.identifier ≠ identifier) →
    phase.active ≠ some side
  standing : ∀ call, caller.current = some call → call.identifier = identifier →
    c.Standing identifier store phase side call caller.process

structure Mailbox (w : DataWorld) (phase : Phase) : Prop where
  files : c.Files identifier w.store phase
  partner : ∀ side, c.Partner identifier w.store phase side (w.caller side)
  history : ∀ side, c.published identifier (w.caller side) =
    c.taken identifier (w.caller side.other) ++ phase.pending side

variable {c identifier} {w : DataWorld} {store : Store Text Char} {phase next : Phase} {side : Side}
  {call : DataCall} {caller : DataCaller} {process : Process Text Char}

theorem Serves.active_eq (h : Serves phase side call) : phase.active = some side := by
  cases phase <;> cases call <;> simp_all [Serves, Phase.active]

theorem past_of_none {final : Step → Bool} (h : caller.current = none) :
    past final caller = caller.returned := by
  simp [past, h]

theorem past_of_remaining {final : Step → Bool} (h : caller.process.rest.any final = true) :
    past final caller = caller.returned := by
  simp [past, h]

theorem past_of_done {final : Step → Bool} (hCurrent : caller.current = some call)
    (h : caller.process.rest.any final = false) :
    past final caller = caller.returned ++ [(call, caller.process.buffer)] := by
  simp [past, h, hCurrent]

theorem exportedMessage_of_ne (h : call.identifier ≠ identifier) :
    exportedMessage identifier call = none := by
  cases call with
  | exportObject kind other pieces => exact if_neg h
  | importObject => rfl

theorem importedMessage_of_ne (h : call.identifier ≠ identifier) (buffer : Text) :
    importedMessage identifier (call, buffer) = none := by
  cases call with
  | exportObject => rfl
  | importObject kind other portions => exact if_neg h

/-- A call that exports nothing under the identifier leaves the published messages alone. -/
theorem published_eq (hCurrent : caller.current = some call)
    (h : exportedMessage identifier call = none ∨
      caller.process.rest.any (c.publishes identifier) = true) :
    c.published identifier caller = exported identifier (caller.returned.map Prod.fst) := by
  unfold published
  cases hAny : caller.process.rest.any (c.publishes identifier) with
  | true => rw [past_of_remaining hAny]
  | false =>
    rw [hAny] at h
    rw [past_of_done hCurrent hAny]
    simp [exported, List.filterMap_append, h.resolve_right (by simp)]

theorem imported_past_eq {final : Step → Bool} (hCurrent : caller.current = some call)
    (h : importedMessage identifier (call, caller.process.buffer) = none ∨
      caller.process.rest.any final = true) :
    imported identifier (past final caller) = imported identifier caller.returned := by
  cases hAny : caller.process.rest.any final with
  | true => rw [past_of_remaining hAny]
  | false =>
    rw [hAny] at h
    rw [past_of_done hCurrent hAny]
    simp [imported, List.filterMap_append, h.resolve_right (by simp)]

theorem taken_eq (hCurrent : caller.current = some call)
    (h : importedMessage identifier (call, caller.process.buffer) = none ∨
      caller.process.rest.any (c.removes identifier) = true) :
    c.taken identifier caller = imported identifier caller.returned :=
  imported_past_eq hCurrent h

theorem past_resume_of_done {final : Step → Bool} (hCurrent : caller.current = some call)
    (h : process.rest.any final = false) :
    past final (caller.resume process) = caller.returned ++ [(call, process.buffer)] :=
  past_of_done hCurrent h

theorem published_resume_eq (hCurrent : caller.current = some call)
    (h : exportedMessage identifier call = none ∨
      process.rest.any (c.publishes identifier) = true) :
    c.published identifier (caller.resume process) =
      exported identifier (caller.returned.map Prod.fst) :=
  published_eq hCurrent h

theorem taken_resume_eq (hCurrent : caller.current = some call)
    (h : importedMessage identifier (call, process.buffer) = none ∨
      process.rest.any (c.removes identifier) = true) :
    c.taken identifier (caller.resume process) = imported identifier caller.returned :=
  taken_eq hCurrent h

theorem published_resume (hCurrent : caller.current = some call)
    (h : exportedMessage identifier call = none) :
    c.published identifier (caller.resume process) = c.published identifier caller := by
  rw [published_eq hCurrent (Or.inl h), published_resume_eq hCurrent (Or.inl h)]

theorem taken_resume (hCurrent : caller.current = some call)
    (h : ∀ buffer, importedMessage identifier (call, buffer) = none) :
    c.taken identifier (caller.resume process) = c.taken identifier caller := by
  rw [taken_eq hCurrent (Or.inl (h _)), taken_resume_eq hCurrent (Or.inl (h _))]

theorem Partner.of_idle {store' : Store Text Char}
    (h : c.Partner identifier store phase side caller) (hActive : phase.active ≠ some side)
    (hNext : next.active ≠ some side) : c.Partner identifier store' next side caller where
  sound := h.sound
  idle _ := hNext
  standing call hCurrent hIdentifier := by
    cases h.standing call hCurrent hIdentifier with
    | before _ hProcess => exact .before hNext hProcess
    | inside hServes => exact absurd hServes.active_eq hActive
    | after _ hRest => exact .after hNext hRest

theorem Partner.of_keeps {store' : Store Text Char}
    (h : c.Partner identifier store phase side caller)
    (hKeeps : ∀ path, c.Owned identifier path → Store.Keeps store store' path) :
    c.Partner identifier store' phase side caller where
  sound := h.sound
  idle := h.idle
  standing call hCurrent hIdentifier := by
    cases h.standing call hCurrent hIdentifier with
    | before hActive hProcess => exact .before hActive hProcess
    | inside hServes hFollows hHolds => exact .inside hServes hFollows (hHolds.of_keeps hKeeps)
    | after hActive hRest => exact .after hActive hRest

/-- The side changes the phase while its partner is not active. -/
theorem Mailbox.advance (h : c.Mailbox identifier w phase)
    (hActive : phase.active ≠ some side.other) (hNext : next.active ≠ some side.other)
    (hFiles : c.Files identifier store next) (hPartner : c.Partner identifier store next side caller)
    (hPublished : c.published identifier caller =
      c.taken identifier (w.caller side.other) ++ next.pending side)
    (hTaken : c.published identifier (w.caller side.other) =
      c.taken identifier caller ++ next.pending side.other) :
    c.Mailbox identifier (w.set store side caller) next where
  files := hFiles
  partner other := by
    rcases Side.eq_or_eq_other side other with rfl | rfl
    · rw [World.set_caller_self]
      exact hPartner
    · rw [World.set_caller_other _ _ _ (Side.other_ne side)]
      exact (h.partner side.other).of_idle hActive hNext
  history other := by
    rcases Side.eq_or_eq_other side other with rfl | rfl
    · rw [World.set_caller_self, World.set_caller_other _ _ _ (Side.other_ne other)]
      exact hPublished
    · rw [Side.other_other, World.set_caller_self,
        World.set_caller_other _ _ _ (Side.other_ne side)]
      exact hTaken

/-- The side keeps the phase and the messages, and what it does to files concerns others. -/
theorem Mailbox.frame (h : c.Mailbox identifier w phase)
    (hKeeps : ∀ path, c.Owned identifier path → Store.Keeps w.store store path)
    (hPartner : c.Partner identifier store phase side caller)
    (hPublished : c.published identifier caller = c.published identifier (w.caller side))
    (hTaken : c.taken identifier caller = c.taken identifier (w.caller side)) :
    c.Mailbox identifier (w.set store side caller) phase where
  files := h.files.of_keeps hKeeps
  partner other := by
    rcases Side.eq_or_eq_other side other with rfl | rfl
    · rw [World.set_caller_self]
      exact hPartner
    · rw [World.set_caller_other _ _ _ (Side.other_ne side)]
      exact (h.partner side.other).of_keeps hKeeps
  history other := by
    have hHistory := h.history other
    rcases Side.eq_or_eq_other side other with rfl | rfl
    · rw [World.set_caller_self, World.set_caller_other _ _ _ (Side.other_ne other), hPublished]
      exact hHistory
    · rw [Side.other_other] at hHistory ⊢
      rw [World.set_caller_self, World.set_caller_other _ _ _ (Side.other_ne side), hTaken]
      exact hHistory

theorem exportedMessage_or_publishes (identifier : Text) (call : DataCall) :
    exportedMessage identifier call = none ∨
      (c.program call).any (c.publishes identifier) = true := by
  cases call with
  | importObject => exact Or.inl rfl
  | exportObject kind other pieces =>
    by_cases hIdentifier : other = identifier
    · subst hIdentifier
      obtain ⟨rest, hProgram, hFollows⟩ :=
        program_exportObject c other kind pieces
      rw [hProgram, List.any_cons, (hFollows .primary).any_publishes, Bool.or_true]
      exact Or.inr rfl
    · exact Or.inl (if_neg hIdentifier)

theorem importedMessage_or_removes (identifier : Text) (call : DataCall) (buffer : Text) :
    importedMessage identifier (call, buffer) = none ∨
      (c.program call).any (c.removes identifier) = true := by
  cases call with
  | exportObject => exact Or.inl rfl
  | importObject kind other portions =>
    by_cases hIdentifier : other = identifier
    · subst hIdentifier
      obtain ⟨rest, hProgram, hFollows⟩ :=
        program_importObject c other kind portions
      rw [hProgram, List.any_cons, (hFollows .primary []).any_removes, Bool.or_true]
      exact Or.inr rfl
    · exact Or.inl (if_neg hIdentifier)

theorem Mailbox.enter (h : c.Mailbox identifier w phase) {todo : List DataCall}
    (hCurrent : (w.caller side).current = none) :
    c.Mailbox identifier
      (w.set w.store side ((w.caller side).enter call todo (c.program call))) phase := by
  have hIdle : phase.active ≠ some side := (h.partner side).idle (by simp [hCurrent])
  have hEntered : ((w.caller side).enter call todo (c.program call)).current = some call := rfl
  apply h.frame (fun path _ => Store.Keeps.refl _ _)
  · refine ⟨rfl, fun _ => hIdle, fun call' hCall hIdentifier => ?_⟩
    cases hCall
    exact .before hIdle rfl
  · rw [published_eq hEntered (exportedMessage_or_publishes identifier call), published,
      past_of_none hCurrent]
    rfl
  · rw [taken_eq hEntered (importedMessage_or_removes identifier call _), taken,
      past_of_none hCurrent]
    rfl

theorem Mailbox.leave (h : c.Mailbox identifier w phase)
    (hCurrent : (w.caller side).current = some call) (hRest : (w.caller side).process.rest = []) :
    c.Mailbox identifier (w.set w.store side ((w.caller side).leave call)) phase := by
  have hIdle : phase.active ≠ some side := by
    by_cases hIdentifier : call.identifier = identifier
    · cases (h.partner side).standing call hCurrent hIdentifier with
      | before hActive => exact hActive
      | inside _ hFollows =>
        rw [hRest] at hFollows
        exact hFollows.elim
      | after hActive => exact hActive
    · apply (h.partner side).idle
      rw [hCurrent]
      rintro _ ⟨⟩
      exact hIdentifier
  have hPast (final : Step → Bool) :
      past final (w.caller side) = past final ((w.caller side).leave call) := by
    rw [past_of_done hCurrent (by rw [hRest]; rfl), past_of_none rfl]
    rfl
  apply h.frame (fun path _ => Store.Keeps.refl _ _)
  · exact ⟨rfl, fun _ => hIdle, nofun⟩
  · rw [published, published, hPast]
  · rw [taken, taken, hPast]

theorem Mailbox.send {message : Text} {draft : Draft} {instruction : Step} {rest : List Step}
    (h : c.Mailbox identifier w (.sending side message draft)) (kind : Kind) (pieces : List Text)
    (hCurrent : (w.caller side).current = some (.exportObject kind identifier pieces))
    (hMessage : message = pieces.flatten)
    (hMove : c.Moves identifier (.sending side message draft) instruction next)
    (hNext : if next.active = some side then c.Follows identifier side next rest
      else rest = [] ∨ rest = [.close])
    (hAny : (w.caller side).process.rest.any (c.publishes identifier) = true)
    (hMoved : c.Moved identifier w.store (w.caller side).process rest next store process) :
    c.Mailbox identifier (w.set store side ((w.caller side).resume process)) next := by
  have hOther : Phase.active (.sending side message draft) ≠ some side.other := by simp [Phase.active]
  have hSound : process.failed = none := hMoved.failed.trans (h.partner side).sound
  have hBefore := h.history side
  rw [published_eq hCurrent (Or.inr hAny)] at hBefore
  have hTaken : c.taken identifier ((w.caller side).resume process) =
      c.taken identifier (w.caller side) := taken_resume hCurrent fun _ => rfl
  have hHistory := h.history side.other
  rw [Side.other_other] at hHistory
  rcases hMove.sending_next with ⟨draft', rfl⟩ | rfl
  · replace hNext : c.Follows identifier side (.sending side message draft') rest := by
      simpa [Phase.active] using hNext
    apply h.advance hOther (by simp [Phase.active]) hMoved.files
    · refine ⟨hSound, fun hOut => absurd rfl (hOut _ hCurrent), fun call' hCall _ => ?_⟩
      cases hCurrent.symm.trans hCall
      exact .inside ⟨rfl, hMessage⟩ (hMoved.rest ▸ hNext) hMoved.holds
    · rw [published_resume_eq hCurrent
        (Or.inr (hMoved.rest ▸ hNext.any_publishes))]
      exact hBefore
    · rw [hTaken]
      exact hHistory
  · replace hNext : rest = [] ∨ rest = [.close] := by simpa [Phase.active] using hNext
    have hDone : process.rest.any (c.publishes identifier) = false := by
      rw [hMoved.rest]
      rcases hNext with rfl | rfl <;> rfl
    apply h.advance hOther (by simp [Phase.active]) hMoved.files
    · refine ⟨hSound, fun _ => by simp [Phase.active], fun call' hCall _ => ?_⟩
      exact .after (by simp [Phase.active]) (hMoved.rest ▸ hNext)
    · rw [published, past_resume_of_done hCurrent hDone]
      simp only [Phase.pending, List.append_nil] at hBefore
      simp [exported, List.filterMap_append, ← hBefore, Phase.pending, exportedMessage, hMessage]
    · rw [hTaken, hHistory]
      simp [Phase.pending]

theorem Mailbox.receive {message : Text} {stage : Stage} {instruction : Step} {rest : List Step}
    (h : c.Mailbox identifier w (.taking side message stage)) (kind : Kind) (portions : List Nat)
    (hCurrent : (w.caller side).current = some (.importObject kind identifier portions))
    (hMove : c.Moves identifier (.taking side message stage) instruction next)
    (hNext : if next.active = some side then c.Follows identifier side next rest
      else rest = [] ∨ rest = [.close])
    (hAny : (w.caller side).process.rest.any (c.removes identifier) = true)
    (hMoved : c.Moved identifier w.store (w.caller side).process rest next store process)
    (hBuffer : stage = .finished → next = .empty → process.buffer = message) :
    c.Mailbox identifier (w.set store side ((w.caller side).resume process)) next := by
  have hOther : Phase.active (.taking side message stage) ≠ some side.other := by simp [Phase.active]
  have hSound : process.failed = none := hMoved.failed.trans (h.partner side).sound
  have hBefore := h.history side.other
  rw [Side.other_other, taken_eq hCurrent (Or.inr hAny)] at hBefore
  have hPublished : c.published identifier ((w.caller side).resume process) =
      c.published identifier (w.caller side) := published_resume hCurrent rfl
  have hHistory := h.history side
  rcases hMove.taking_next with ⟨stage', rfl⟩ | ⟨rfl, hFinished, -⟩
  · replace hNext : c.Follows identifier side (.taking side message stage') rest := by
      simpa [Phase.active] using hNext
    apply h.advance hOther (by simp [Phase.active]) hMoved.files
    · refine ⟨hSound, fun hOut => absurd rfl (hOut _ hCurrent), fun call' hCall _ => ?_⟩
      cases hCurrent.symm.trans hCall
      exact .inside rfl (hMoved.rest ▸ hNext) hMoved.holds
    · rw [hPublished]
      exact hHistory
    · rw [taken_resume_eq hCurrent
        (Or.inr (hMoved.rest ▸ hNext.any_removes))]
      exact hBefore
  · replace hNext : rest = [] ∨ rest = [.close] := by simpa [Phase.active] using hNext
    have hDone : process.rest.any (c.removes identifier) = false := by
      rw [hMoved.rest]
      rcases hNext with rfl | rfl <;> rfl
    apply h.advance hOther (by simp [Phase.active]) hMoved.files
    · refine ⟨hSound, fun _ => by simp [Phase.active], fun call' hCall _ => ?_⟩
      exact .after (by simp [Phase.active]) (hMoved.rest ▸ hNext)
    · rw [hPublished, hHistory]
      simp [Phase.pending]
    · rw [taken, past_resume_of_done hCurrent hDone]
      simp [imported, List.filterMap_append, hBefore, Phase.pending, importedMessage,
        hBuffer hFinished rfl]

theorem isFile_dataFile_of_message {message : Text} (hFiles : c.Files identifier store phase)
    (hDraft : phase.draft = none) (hMessage : phase.message = some message) :
    store.isFile (c.dataFile identifier) = true := by
  rw [Store.isFile_eq_isSome, hFiles.message_file hDraft, hMessage]
  rfl

/-- An export that may pass its check does so over an empty mailbox. -/
theorem Mailbox.empty_of_missing (h : c.Mailbox identifier w phase) (kind : Kind)
    (pieces : List Text)
    (hCurrent : (w.caller side).current = some (.exportObject kind identifier pieces))
    (hProcess : (w.caller side).process = Process.start (c.program (.exportObject kind identifier pieces)))
    (hActive : phase.active ≠ some side) (hUndisturbed : c.Undisturbed w side)
    (hFile : w.store.isFile (c.dataFile identifier) = false) : phase = .empty := by
  cases phase with
  | empty => rfl
  | ready sender message =>
    rw [isFile_dataFile_of_message h.files rfl rfl] at hFile
    cases hFile
  | taking receiver message stage =>
    rw [isFile_dataFile_of_message h.files rfl rfl] at hFile
    cases hFile
  | sending sender message draft =>
    have hSender : sender = side.other := (Side.eq_or_eq_other side sender).resolve_left
      (by rintro rfl; exact hActive rfl)
    subst hSender
    have hNot : ¬ c.Exporting identifier (w.caller side.other) := by
      rw [Undisturbed, hCurrent] at hUndisturbed
      exact hUndisturbed (by rw [hProcess]; rfl) hFile
    have hPartner := h.partner side.other
    by_cases hOut : ∀ call, (w.caller side.other).current = some call → call.identifier ≠ identifier
    · exact absurd rfl (hPartner.idle hOut)
    · simp only [not_forall, not_not] at hOut
      obtain ⟨call, hCall, hIdentifier⟩ := hOut
      cases hPartner.standing call hCall hIdentifier with
      | before hIdle => exact absurd rfl hIdle
      | after hIdle => exact absurd rfl hIdle
      | inside hServes hFollows hHolds =>
        cases call with
        | importObject => exact hServes.elim
        | exportObject kind' other pieces' =>
          obtain rfl : other = identifier := hIdentifier
          rw [Exporting, hCall] at hNot
          refine absurd ⟨rfl, ?_, hFollows.any_publishes⟩ hNot
          intro hRest
          obtain ⟨rest, hProgram, -⟩ :=
            program_exportObject c other kind' pieces'
          rw [hRest, hProgram] at hFollows
          obtain ⟨_, hMove, -⟩ := hFollows
          cases hMove

theorem Files.message_of_visible (hFiles : c.Files identifier store phase)
    (hFile : store.isFile (c.visibleFile identifier) = true) :
    ∃ message, phase.message = some message := by
  unfold visibleFile at hFile
  split at hFile
  · rename_i hAux
    rw [hFiles.avail hAux] at hFile
    cases phase <;> first | exact ⟨_, rfl⟩ | cases hFile
  · rename_i hAux
    rw [Store.isFile_eq_isSome, hFiles.data, if_neg hAux] at hFile
    exact Option.isSome_iff_exists.mp hFile

/-- An import that may pass its check finds a message of the partner. -/
theorem Mailbox.ready_of_visible (h : c.Mailbox identifier w phase) (kind : Kind)
    (portions : List Nat)
    (hCurrent : (w.caller side).current = some (.importObject kind identifier portions))
    (hProcess : (w.caller side).process =
      Process.start (c.program (.importObject kind identifier portions)))
    (hActive : phase.active ≠ some side) (hUndisturbed : c.Undisturbed w side)
    (hFile : w.store.isFile (c.visibleFile identifier) = true) :
    ∃ message, phase = .ready side.other message := by
  have hLength : (c.published identifier (w.caller side)).length ≤
      (c.taken identifier (w.caller side.other)).length := by
    rw [Undisturbed, hCurrent] at hUndisturbed
    exact hUndisturbed (by rw [hProcess]; rfl) hFile
  rw [h.history side, List.length_append] at hLength
  obtain ⟨message, hMessage⟩ := h.files.message_of_visible hFile
  cases phase with
  | empty => cases hMessage
  | sending => cases hMessage
  | ready sender message =>
    rcases Side.eq_or_eq_other side sender with rfl | rfl
    · simp only [Phase.pending, if_true, List.length_singleton] at hLength
      omega
    · exact ⟨message, rfl⟩
  | taking receiver message stage =>
    rcases Side.eq_or_eq_other side receiver with rfl | rfl
    · exact absurd rfl hActive
    · simp only [Phase.pending, Side.ne_other, if_false, List.length_singleton] at hLength
      omega

/-- What a step under this identifier means for the mailbox and for the other files. -/
def Continues (c : FileCommunication) (identifier : Text) (w : DataWorld) (side : Side)
    (store : Store Text Char) (process : Process Text Char) : Prop :=
  process.failed = none ∧
    (∀ path, ¬ c.Owned identifier path → Store.Keeps w.store store path) ∧
    ∃ next, c.Mailbox identifier (w.set store side ((w.caller side).resume process)) next

theorem World.set_resume_self (w : DataWorld) (side : Side) :
    w.set w.store side ((w.caller side).resume (w.caller side).process) = w := by
  simp [World.set, Caller.resume]

theorem Mailbox.stay (h : c.Mailbox identifier w phase) :
    Continues c identifier w side w.store (w.caller side).process := by
  refine ⟨(h.partner side).sound, fun path _ => Store.Keeps.refl _ _, phase, ?_⟩
  rw [World.set_resume_self]
  exact h

theorem Mailbox.checkExport (h : c.Mailbox identifier w phase) (kind : Kind) (pieces : List Text)
    (hCurrent : (w.caller side).current = some (.exportObject kind identifier pieces))
    (hProcess : (w.caller side).process =
      Process.start (c.program (.exportObject kind identifier pieces)))
    (hActive : phase.active ≠ some side) (hUndisturbed : c.Undisturbed w side) :
    Continues c identifier w side (exec w.store (w.caller side).process).1
      (exec w.store (w.caller side).process).2 := by
  obtain ⟨rest, hProgram, hFollows⟩ :=
    program_exportObject c identifier kind pieces
  have hStart : (w.caller side).process =
      Process.start (.waitRemoved (c.dataFile identifier) :: rest) := hProcess.trans (by rw [hProgram])
  cases hFile : w.store.isFile (c.dataFile identifier) with
  | true =>
    have hExec : exec w.store (w.caller side).process = (w.store, (w.caller side).process) := by
      rw [hStart, exec_start_waitRemoved, if_pos hFile]
    rw [hExec]
    exact h.stay
  | false =>
    have hExec : exec w.store (w.caller side).process = (w.store, Process.start rest) := by
      rw [hStart, exec_start_waitRemoved, if_neg (by simp [hFile])]
    obtain rfl := h.empty_of_missing kind pieces hCurrent hProcess hActive hUndisturbed hFile
    rw [hExec]
    have hFiles : c.Files identifier w.store (.sending side pieces.flatten .opening) :=
      h.files.congr rfl rfl rfl
    refine ⟨rfl, fun path _ => Store.Keeps.refl _ _, .sending side pieces.flatten .opening, ?_⟩
    apply h.advance nofun (by simp [Phase.active]) hFiles
    · refine ⟨rfl, fun hOut => absurd rfl (hOut _ hCurrent), fun call' hCall _ => ?_⟩
      cases hCurrent.symm.trans hCall
      exact .inside ⟨rfl, rfl⟩ (hFollows side) rfl
    · have hBefore := h.history side
      rw [published_eq hCurrent (Or.inr (hProcess ▸ (exportedMessage_or_publishes _ _).resolve_left
        (by simp [exportedMessage])))] at hBefore
      rw [published_resume_eq hCurrent
        (Or.inr (hFollows side).any_publishes)]
      exact hBefore
    · rw [taken_resume hCurrent fun _ => rfl]
      have hHistory := h.history side.other
      rw [Side.other_other] at hHistory
      exact hHistory

theorem Files.found {message : Text} (h : c.Files identifier store (.ready side.other message)) :
    c.Files identifier store (c.found side message) := by
  unfold FileCommunication.found
  split
  · exact h.congr rfl rfl rfl
  · rename_i hAux
    exact ⟨h.data, h.tmp, fun hTrue => absurd hTrue hAux⟩

theorem Mailbox.checkImport (h : c.Mailbox identifier w phase) (kind : Kind) (portions : List Nat)
    (hCurrent : (w.caller side).current = some (.importObject kind identifier portions))
    (hProcess : (w.caller side).process =
      Process.start (c.program (.importObject kind identifier portions)))
    (hActive : phase.active ≠ some side) (hUndisturbed : c.Undisturbed w side) :
    Continues c identifier w side (exec w.store (w.caller side).process).1
      (exec w.store (w.caller side).process).2 := by
  obtain ⟨rest, hProgram, hFollows⟩ :=
    program_importObject c identifier kind portions
  have hStart : (w.caller side).process =
      Process.start (.waitExists (c.visibleFile identifier) :: rest) := hProcess.trans (by rw [hProgram])
  cases hFile : w.store.isFile (c.visibleFile identifier) with
  | false =>
    have hExec : exec w.store (w.caller side).process = (w.store, (w.caller side).process) := by
      rw [hStart, exec_start_waitExists, if_neg (by simp [hFile])]
    rw [hExec]
    exact h.stay
  | true =>
    have hExec : exec w.store (w.caller side).process = (w.store, Process.start rest) := by
      rw [hStart, exec_start_waitExists, if_pos hFile]
    obtain ⟨message, rfl⟩ :=
      h.ready_of_visible kind portions hCurrent hProcess hActive hUndisturbed hFile
    rw [hExec]
    refine ⟨rfl, fun path _ => Store.Keeps.refl _ _, c.found side message, ?_⟩
    apply h.advance nofun (by simp [FileCommunication.found, Phase.active]) h.files.found
    · refine ⟨rfl, fun hOut => absurd rfl (hOut _ hCurrent), fun call' hCall _ => ?_⟩
      cases hCurrent.symm.trans hCall
      refine .inside rfl (hFollows side message) ?_
      unfold FileCommunication.found
      split <;> rfl
    · rw [published_resume hCurrent rfl, h.history side]
      simp [Phase.pending, FileCommunication.found]
    · have hBefore := h.history side.other
      rw [Side.other_other, taken_eq hCurrent (Or.inr (hProcess ▸
        (importedMessage_or_removes _ _ []).resolve_left (by simp [importedMessage])))] at hBefore
      rw [taken_resume_eq hCurrent
        (Or.inr (hFollows side message).any_removes), hBefore]
      simp [Phase.pending, FileCommunication.found]

theorem Mailbox.closeAvail (h : c.Mailbox identifier w phase)
    (hCurrent : (w.caller side).current = some call)
    (hActive : phase.active ≠ some side) (hRest : (w.caller side).process.rest = [.close]) :
    Continues c identifier w side (exec w.store (w.caller side).process).1
      (exec w.store (w.caller side).process).2 := by
  have hExec : exec w.store (w.caller side).process =
      (w.store, { (w.caller side).process with rest := [], handle := none }) := by
    simp [exec, hRest]
  have hPast (final : Step → Bool) (hFinal : final .close = false) :
      past final ((w.caller side).resume (exec w.store (w.caller side).process).2) =
        past final (w.caller side) := by
    rw [hExec, past_resume_of_done hCurrent (by rfl),
      past_of_done hCurrent (by simp [hRest, hFinal])]
  refine ⟨by rw [hExec]; exact (h.partner side).sound, fun path _ => ?_, phase, ?_⟩
  · rw [hExec]
    exact Store.Keeps.refl _ _
  · apply h.frame
    · rw [hExec]
      exact fun path _ => Store.Keeps.refl _ _
    · rw [hExec]
      refine ⟨(h.partner side).sound, fun _ => hActive, fun call' hCall _ => ?_⟩
      exact .after hActive (Or.inl rfl)
    · rw [published, published, hPast _ rfl]
    · rw [taken, taken, hPast _ rfl]

theorem Mailbox.work (h : c.Mailbox identifier w phase)
    (hCurrent : (w.caller side).current = some call) (hIdentifier : call.identifier = identifier)
    (hServes : Serves phase side call)
    (hFollows : c.Follows identifier side phase (w.caller side).process.rest)
    (hHolds : c.Holds identifier w.store (w.caller side).process phase) :
    Continues c identifier w side (exec w.store (w.caller side).process).1
      (exec w.store (w.caller side).process).2 := by
  cases hRest : (w.caller side).process.rest with
  | nil =>
    rw [hRest] at hFollows
    exact hFollows.elim
  | cons instruction rest =>
    have hWhole := hFollows
    rw [hRest] at hFollows
    obtain ⟨next, hMove, hNext⟩ := hFollows
    have hMoved := hMove.exec h.files hHolds hRest
    refine ⟨hMoved.failed.trans (h.partner side).sound, hMoved.keeps, next, ?_⟩
    cases call with
    | exportObject kind other pieces =>
      obtain rfl : other = identifier := hIdentifier
      cases phase with
      | sending sender message draft =>
        obtain ⟨rfl, hMessage⟩ := hServes
        exact h.send kind pieces hCurrent hMessage hMove hNext hWhole.any_publishes hMoved
      | _ => exact hServes.elim
    | importObject kind other portions =>
      obtain rfl : other = identifier := hIdentifier
      cases phase with
      | taking receiver message stage =>
        obtain rfl : receiver = side := hServes
        apply h.receive kind portions hCurrent hMove hNext hWhole.any_removes hMoved
        rintro rfl rfl
        obtain ⟨stage', hStage⟩ | ⟨-, -, path, rfl⟩ := hMove.taking_next
        · cases hStage
        · rw [exec_buffer_of_remove hRest]
          exact hHolds
      | _ => exact hServes.elim

theorem Mailbox.own (h : c.Mailbox identifier w phase) (hUndisturbed : c.Undisturbed w side)
    (hCurrent : (w.caller side).current = some call) (hIdentifier : call.identifier = identifier)
    (hRest : (w.caller side).process.rest ≠ []) :
    Continues c identifier w side (exec w.store (w.caller side).process).1
      (exec w.store (w.caller side).process).2 := by
  cases (h.partner side).standing call hCurrent hIdentifier with
  | before hActive hProcess =>
    cases call with
    | exportObject kind other pieces =>
      obtain rfl : other = identifier := hIdentifier
      exact h.checkExport kind pieces hCurrent hProcess hActive hUndisturbed
    | importObject kind other portions =>
      obtain rfl : other = identifier := hIdentifier
      exact h.checkImport kind portions hCurrent hProcess hActive hUndisturbed
  | inside hServes hFollows hHolds => exact h.work hCurrent hIdentifier hServes hFollows hHolds
  | after hActive hDone => exact h.closeAvail hCurrent hActive (hDone.resolve_left hRest)

theorem Mailbox.foreign (h : c.Mailbox identifier w phase)
    (hCurrent : (w.caller side).current = some call) (hIdentifier : call.identifier ≠ identifier)
    (hFailed : process.failed = none)
    (hKeeps : ∀ path, ¬ c.Owned call.identifier path → Store.Keeps w.store store path) :
    c.Mailbox identifier (w.set store side ((w.caller side).resume process)) phase := by
  apply h.frame
  · intro path hOwned
    exact hKeeps path fun hOther => hIdentifier (hOther.identifier_eq hOwned rfl)
  · refine ⟨hFailed, fun _ => (h.partner side).idle ?_, fun call' hCall hSame => ?_⟩
    · intro call' hCall
      cases hCurrent.symm.trans hCall
      exact hIdentifier
    · cases hCurrent.symm.trans hCall
      exact absurd hSame hIdentifier
  · exact published_resume hCurrent (exportedMessage_of_ne hIdentifier)
  · exact taken_resume hCurrent (importedMessage_of_ne hIdentifier)

variable (c) in
/-- Every mailbox is in some phase. -/
def Consistent (w : DataWorld) : Prop := ∀ identifier, ∃ phase, c.Mailbox identifier w phase

theorem Consistent.step {w' : DataWorld} (h : c.Consistent w) (hUndisturbed : c.Undisturbed w side)
    (hStep : FileProcess.step (fun _ => c.program) w side = some w') : c.Consistent w' := by
  obtain ⟨-, ⟨call, todo, hCurrent, hTodo, rfl⟩ | ⟨call, hCurrent, hRest, rfl⟩ |
    ⟨call, instruction, rest, hCurrent, hRest, rfl⟩⟩ := step_cases hStep
  · intro identifier
    obtain ⟨phase, hMailbox⟩ := h identifier
    exact ⟨phase, hMailbox.enter hCurrent⟩
  · intro identifier
    obtain ⟨phase, hMailbox⟩ := h identifier
    exact ⟨phase, hMailbox.leave hCurrent hRest⟩
  · obtain ⟨own, hOwn⟩ := h call.identifier
    obtain ⟨hFailed, hKeeps, next, hNext⟩ :=
      hOwn.own hUndisturbed hCurrent rfl (by rw [hRest]; exact List.cons_ne_nil _ _)
    intro identifier
    by_cases hIdentifier : call.identifier = identifier
    · exact ⟨next, hIdentifier ▸ hNext⟩
    · obtain ⟨phase, hMailbox⟩ := h identifier
      exact ⟨phase, hMailbox.foreign hCurrent hIdentifier hFailed hKeeps⟩

end CoSimIO.FileCommunication
