import CoSimIO.Communication.FileCommunication

/-! # The mailbox behind one identifier

The file of an identifier goes through phases: a partner that found no file fills it
and makes it visible, a partner that found it visible reads and removes it. `Moves`
says which file-system step is right in which phase. An export or an import that has
passed its existence check follows these moves to its end.
-/

namespace CoSimIO.FileCommunication

open FileProcess

set_option autoImplicit false

inductive Draft
  | opening
  | writing (written : Text)
  | written

inductive Stage
  | announced
  | holding
  | reading (position : Nat)
  | finished

inductive Phase
  | empty
  | sending (side : Side) (message : Text) (draft : Draft)
  | ready (side : Side) (message : Text)
  | taking (side : Side) (message : Text) (stage : Stage)

namespace Phase

def active : Phase → Option Side
  | empty => none
  | sending side _ _ => some side
  | ready _ _ => none
  | taking side _ _ => some side

/-- What the side has made visible and its partner has not removed yet. -/
def pending : Phase → Side → List Text
  | empty, _ => []
  | sending _ _ _, _ => []
  | ready side message, sender => if sender = side then [message] else []
  | taking side message _, sender => if sender = side then [] else [message]

def draft : Phase → Option Text
  | sending _ _ (.writing written) => some written
  | sending _ message .written => some message
  | _ => none

def message : Phase → Option Text
  | ready _ message => some message
  | taking _ message _ => some message
  | _ => none

def announced : Phase → Bool
  | ready _ _ => true
  | taking _ _ .announced => true
  | _ => false

end Phase

variable (c : FileCommunication) (identifier : Text)

structure Files (store : Store Text Char) (phase : Phase) : Prop where
  data : store.file (c.dataFile identifier) =
    if c.useAuxFileForFileAvailability then phase.draft.or phase.message else phase.message
  tmp : c.useAuxFileForFileAvailability = false →
    store.file (c.tmpFile identifier) = phase.draft
  avail : c.useAuxFileForFileAvailability = true →
    store.isFile (Communication.availFile (c.dataFile identifier)) = phase.announced

/-- The open file of the active partner and what it has read. -/
def Holds (store : Store Text Char) (process : Process Text Char) : Phase → Prop
  | .sending _ _ .opening => process.handle = none
  | .sending _ _ (.writing written) => ∃ inode,
      store.entry (c.tmpFile identifier) = some inode ∧
        process.handle = some (inode, written.length)
  | .taking _ _ .announced => process.buffer = []
  | .taking _ _ .holding => process.buffer = []
  | .taking _ message (.reading position) => ∃ inode,
      store.entry (c.dataFile identifier) = some inode ∧
        process.handle = some (inode, position) ∧ process.buffer = message.take position
  | .taking _ message .finished => process.buffer = message
  | _ => True

inductive Moves : Phase → Step → Phase → Prop
  | tryOpen (side : Side) (message : Text) :
      Moves (.sending side message .opening) (.openExisting (c.tmpFile identifier))
        (.sending side message .opening)
  | createUnlessOpen (side : Side) (message : Text) :
      Moves (.sending side message .opening) (.createUnlessOpen (c.tmpFile identifier))
        (.sending side message (.writing []))
  | create (side : Side) (message : Text) :
      Moves (.sending side message .opening) (.create (c.tmpFile identifier))
        (.sending side message (.writing []))
  | requireCreated (side : Side) (message written : Text) :
      Moves (.sending side message (.writing written)) .requireOpen
        (.sending side message (.writing written))
  | write (side : Side) (message written bytes : Text) :
      Moves (.sending side message (.writing written)) (.write bytes)
        (.sending side message (.writing (written ++ bytes)))
  | closeWritten (side : Side) (message : Text) :
      Moves (.sending side message (.writing message)) .close (.sending side message .written)
  | writtenSize (side : Side) (message : Text) :
      Moves (.sending side message .written) (.fileSize (c.tmpFile identifier))
        (.sending side message .written)
  | permissions (side : Side) (message : Text) :
      Moves (.sending side message .written) (.permissions (c.tmpFile identifier))
        (.sending side message .written)
  | rename (side : Side) (message : Text) (hAux : c.useAuxFileForFileAvailability = false) :
      Moves (.sending side message .written)
        (.rename (c.tmpFile identifier) (c.dataFile identifier)) (.ready side message)
  | announce (side : Side) (message : Text) (hAux : c.useAuxFileForFileAvailability = true) :
      Moves (.sending side message .written)
        (.create (Communication.availFile (c.dataFile identifier))) (.ready side message)
  | removeAvail (side : Side) (message : Text) (hAux : c.useAuxFileForFileAvailability = true) :
      Moves (.taking side message .announced)
        (.remove (Communication.availFile (c.dataFile identifier)) 5)
        (.taking side message .holding)
  | receivedSize (side : Side) (message : Text) :
      Moves (.taking side message .holding) (.fileSize (c.dataFile identifier))
        (.taking side message .holding)
  | openReceived (side : Side) (message : Text) :
      Moves (.taking side message .holding) (.openExisting (c.dataFile identifier))
        (.taking side message (.reading 0))
  | stayOpen (side : Side) (message : Text) (position : Nat) :
      Moves (.taking side message (.reading position)) (.createUnlessOpen (c.dataFile identifier))
        (.taking side message (.reading position))
  | requireReceived (side : Side) (message : Text) (position : Nat) :
      Moves (.taking side message (.reading position)) .requireOpen
        (.taking side message (.reading position))
  | readSome (side : Side) (message : Text) (position count : Nat) :
      Moves (.taking side message (.reading position)) (.readSome count)
        (.taking side message (.reading (position + count)))
  | readAll (side : Side) (message : Text) (position : Nat) :
      Moves (.taking side message (.reading position)) .readAll (.taking side message .finished)
  | closeReceived (side : Side) (message : Text) :
      Moves (.taking side message .finished) .close (.taking side message .finished)
  | removeReceived (side : Side) (message : Text) :
      Moves (.taking side message .finished) (.remove (c.dataFile identifier) 5) .empty

/-- The steps lead from the phase to the end of the side's activity. -/
def Follows (side : Side) : Phase → List Step → Prop
  | _, [] => False
  | phase, instruction :: rest => ∃ next, c.Moves identifier phase instruction next ∧
      if next.active = some side then Follows side next rest else rest = [] ∨ rest = [.close]

def publishes : Step → Bool
  | .create path => path = Communication.availFile (c.dataFile identifier)
  | .rename _ path => path = c.dataFile identifier
  | _ => false

def removes : Step → Bool
  | .remove path _ => path = c.dataFile identifier
  | _ => false

def readsAll : Step → Bool
  | .readAll => true
  | _ => false

/-- What a right move does to the files and to the process that makes it. -/
structure Moved (store : Store Text Char) (process : Process Text Char) (rest : List Step)
    (next : Phase) (store' : Store Text Char) (process' : Process Text Char) : Prop where
  rest : process'.rest = rest
  failed : process'.failed = process.failed
  files : c.Files identifier store' next
  holds : c.Holds identifier store' process' next
  keeps : ∀ path, ¬ c.Owned identifier path → Store.Keeps store store' path

section Moves

variable {c identifier} {store : Store Text Char} {process : Process Text Char}
  {phase next : Phase} {instruction : Step} {rest : List Step} {side : Side}

theorem Files.draft_file (h : c.Files identifier store phase) (hMessage : phase.message = none) :
    store.file (c.tmpFile identifier) = phase.draft := by
  by_cases hAux : c.useAuxFileForFileAvailability = true
  · rw [c.tmpFile_eq_of_aux hAux, h.data, if_pos hAux, hMessage, Option.or_none]
  · exact h.tmp (by simpa using hAux)

theorem Files.message_file (h : c.Files identifier store phase) (hDraft : phase.draft = none) :
    store.file (c.dataFile identifier) = phase.message := by
  rw [h.data, hDraft, Option.none_or, ite_self]

theorem Files.of_keeps {store' : Store Text Char} (h : c.Files identifier store phase)
    (hKeeps : ∀ path, c.Owned identifier path → Store.Keeps store store' path) :
    c.Files identifier store' phase where
  data := by rw [(hKeeps _ .data).file, h.data]
  tmp hAux := by rw [(hKeeps _ .tmp).file, h.tmp hAux]
  avail hAux := by rw [(hKeeps _ .avail).isFile, h.avail hAux]

theorem Holds.of_keeps {store' : Store Text Char} (h : c.Holds identifier store process phase)
    (hKeeps : ∀ path, c.Owned identifier path → Store.Keeps store store' path) :
    c.Holds identifier store' process phase := by
  unfold Holds at h ⊢
  split at h
  case h_2 =>
    obtain ⟨inode, hEntry, hHandle⟩ := h
    exact ⟨inode, (hKeeps _ .tmp).entry.trans hEntry, hHandle⟩
  case h_5 =>
    obtain ⟨inode, hEntry, hRest⟩ := h
    exact ⟨inode, (hKeeps _ .data).entry.trans hEntry, hRest⟩
  all_goals exact h

theorem Files.congr (h : c.Files identifier store phase) (hDraft : next.draft = phase.draft)
    (hMessage : next.message = phase.message) (hAnnounced : next.announced = phase.announced) :
    c.Files identifier store next where
  data := by rw [hDraft, hMessage, h.data]
  tmp hAux := by rw [hDraft, h.tmp hAux]
  avail hAux := by rw [hAnnounced, h.avail hAux]

theorem Files.createTmp {message : Text}
    (h : c.Files identifier store (.sending side message .opening)) :
    c.Files identifier (store.create (c.tmpFile identifier)).2
      (.sending side message (.writing [])) where
  data := by
    split
    · rename_i hAux
      rw [← c.tmpFile_eq_of_aux hAux, Store.file_create_self]
      rfl
    · rename_i hAux
      rw [(Store.keeps_create store (c.tmpFile_ne_dataFile (by simpa using hAux) _ _).symm).file,
        h.data, if_neg hAux]
      rfl
  tmp _ := Store.file_create_self _ _
  avail hAux := by
    rw [(Store.keeps_create store (c.availFile_ne_tmpFile _ _)).isFile, h.avail hAux]
    rfl

theorem Files.writeTmp {message written : Text} {inode : Nat}
    (h : c.Files identifier store (.sending side message (.writing written)))
    (hEntry : store.entry (c.tmpFile identifier) = some inode) (bytes : Text) :
    c.Files identifier (store.write inode written.length bytes)
      (.sending side message (.writing (written ++ bytes))) := by
  have hWritten := Store.file_write_self hEntry (h.draft_file rfl) bytes
  constructor
  · split
    · rename_i hAux
      rw [← c.tmpFile_eq_of_aux hAux, hWritten]
      rfl
    · rename_i hAux
      have hNe := (c.tmpFile_ne_dataFile (by simpa using hAux) identifier identifier).symm
      rw [(Store.keeps_write hEntry hNe _ bytes).file, h.data, if_neg hAux]
      rfl
  · intro _
    exact hWritten
  · intro hAux
    rw [Store.isFile_write, h.avail hAux]
    rfl

theorem Files.renameTmp {message : Text} (hAux : c.useAuxFileForFileAvailability = false)
    (h : c.Files identifier store (.sending side message .written)) :
    c.Files identifier (store.rename (c.tmpFile identifier) (c.dataFile identifier))
      (.ready side message) where
  data := by
    rw [Store.file_rename_target, h.draft_file rfl, hAux]
    rfl
  tmp _ := Store.file_rename_source store (c.tmpFile_ne_dataFile hAux _ _)
  avail h := by simp [hAux] at h

theorem Files.createAvail {message : Text} (hAux : c.useAuxFileForFileAvailability = true)
    (h : c.Files identifier store (.sending side message .written)) :
    c.Files identifier (store.create (Communication.availFile (c.dataFile identifier))).2
      (.ready side message) where
  data := by
    rw [(Store.keeps_create store (c.availFile_ne_dataFile _ _).symm).file, h.data, hAux]
    rfl
  tmp h := by simp [hAux] at h
  avail _ := by
    rw [Store.isFile_create, decide_eq_true rfl, Bool.true_or]
    rfl

theorem Files.removeAvail {message : Text} (hAux : c.useAuxFileForFileAvailability = true)
    (h : c.Files identifier store (.taking side message .announced)) :
    c.Files identifier (store.remove (Communication.availFile (c.dataFile identifier)))
      (.taking side message .holding) where
  data := by
    rw [(Store.keeps_remove store (c.availFile_ne_dataFile _ _).symm).file, h.data]
    rfl
  tmp h := by simp [hAux] at h
  avail _ := by
    rw [Store.isFile_remove, decide_eq_true rfl]
    rfl

theorem Files.removeData {message : Text}
    (h : c.Files identifier store (.taking side message .finished)) :
    c.Files identifier (store.remove (c.dataFile identifier)) .empty where
  data := by
    rw [Store.file_remove_self]
    split <;> rfl
  tmp hAux := by
    rw [(Store.keeps_remove store (c.tmpFile_ne_dataFile hAux _ _)).file, h.tmp hAux]
    rfl
  avail hAux := by
    rw [(Store.keeps_remove store (c.availFile_ne_dataFile _ _)).isFile, h.avail hAux]
    rfl

theorem Moves.exec (hMove : c.Moves identifier phase instruction next)
    (hFiles : c.Files identifier store phase) (hHolds : c.Holds identifier store process phase)
    (hRest : process.rest = instruction :: rest) :
    c.Moved identifier store process rest next
      (FileProcess.exec store process).1 (FileProcess.exec store process).2 := by
  cases hMove with
  | tryOpen side message =>
    have hMissing : store.entry (c.tmpFile identifier) = none := by
      simpa [Store.file, Phase.draft] using hFiles.draft_file rfl
    simp only [FileProcess.exec, hRest]
    exact ⟨rfl, rfl, hFiles, by simp [Holds, hMissing], fun path _ => Store.Keeps.refl store path⟩
  | createUnlessOpen side message =>
    have hHandle : process.handle = none := hHolds
    simp only [FileProcess.exec, hRest, hHandle]
    exact ⟨rfl, rfl, hFiles.createTmp, ⟨_, Store.entry_create_self _ _, rfl⟩,
      fun path hOther => Store.keeps_create store fun h => hOther (h ▸ .tmp)⟩
  | create side message =>
    simp only [FileProcess.exec, hRest]
    exact ⟨rfl, rfl, hFiles.createTmp, ⟨_, Store.entry_create_self _ _, rfl⟩,
      fun path hOther => Store.keeps_create store fun h => hOther (h ▸ .tmp)⟩
  | requireCreated side message written =>
    obtain ⟨inode, hEntry, hHandle⟩ := hHolds
    simp only [FileProcess.exec, hRest, hHandle, Option.isSome_some, if_true]
    exact ⟨rfl, rfl, hFiles, ⟨inode, hEntry, rfl⟩, fun path _ => Store.Keeps.refl store path⟩
  | write side message written bytes =>
    obtain ⟨inode, hEntry, hHandle⟩ := hHolds
    simp only [FileProcess.exec, hRest, hHandle]
    refine ⟨rfl, rfl, hFiles.writeTmp hEntry bytes, ⟨inode, hEntry, by simp⟩, fun path hOther => ?_⟩
    exact Store.keeps_write hEntry (by rintro rfl; exact hOther .tmp) _ bytes
  | closeWritten side message =>
    simp only [FileProcess.exec, hRest]
    exact ⟨rfl, rfl, hFiles.congr rfl rfl rfl, trivial, fun path _ => Store.Keeps.refl store path⟩
  | writtenSize side message =>
    have hFile : store.isFile (c.tmpFile identifier) = true := by
      rw [Store.isFile_eq_isSome, hFiles.draft_file rfl]
      rfl
    simp only [FileProcess.exec, hRest, hFile, if_true]
    exact ⟨rfl, rfl, hFiles, trivial, fun path _ => Store.Keeps.refl store path⟩
  | permissions side message =>
    have hFile : store.isFile (c.tmpFile identifier) = true := by
      rw [Store.isFile_eq_isSome, hFiles.draft_file rfl]
      rfl
    simp only [FileProcess.exec, hRest, hFile, if_true]
    exact ⟨rfl, rfl, hFiles, trivial, fun path _ => Store.Keeps.refl store path⟩
  | rename side message hAux =>
    have hFile : store.isFile (c.tmpFile identifier) = true := by
      rw [Store.isFile_eq_isSome, hFiles.draft_file rfl]
      rfl
    simp only [FileProcess.exec, hRest, hFile, if_true]
    exact ⟨rfl, rfl, hFiles.renameTmp hAux, trivial, fun path hOther =>
      Store.keeps_rename store (fun h => hOther (h ▸ .tmp)) fun h => hOther (h ▸ .data)⟩
  | announce side message hAux =>
    simp only [FileProcess.exec, hRest]
    exact ⟨rfl, rfl, hFiles.createAvail hAux, trivial,
      fun path hOther => Store.keeps_create store fun h => hOther (h ▸ .avail)⟩
  | removeAvail side message hAux =>
    have hFile : store.isFile (Communication.availFile (c.dataFile identifier)) = true :=
      hFiles.avail hAux
    simp only [FileProcess.exec, hRest, hFile, if_true]
    exact ⟨rfl, rfl, hFiles.removeAvail hAux, hHolds,
      fun path hOther => Store.keeps_remove store fun h => hOther (h ▸ .avail)⟩
  | receivedSize side message =>
    have hFile : store.isFile (c.dataFile identifier) = true := by
      rw [Store.isFile_eq_isSome, hFiles.message_file rfl]
      rfl
    simp only [FileProcess.exec, hRest, hFile, if_true]
    exact ⟨rfl, rfl, hFiles, hHolds, fun path _ => Store.Keeps.refl store path⟩
  | openReceived side message =>
    obtain ⟨inode, hEntry, -⟩ := Option.map_eq_some_iff.mp (hFiles.message_file rfl)
    have hBuffer : process.buffer = [] := hHolds
    simp only [FileProcess.exec, hRest, hEntry]
    exact ⟨rfl, rfl, hFiles.congr rfl rfl rfl, ⟨inode, hEntry, rfl, hBuffer⟩,
      fun path _ => Store.Keeps.refl store path⟩
  | stayOpen side message position =>
    obtain ⟨inode, hEntry, hHandle, hBuffer⟩ := hHolds
    simp only [FileProcess.exec, hRest, hHandle]
    exact ⟨rfl, rfl, hFiles, ⟨inode, hEntry, rfl, hBuffer⟩,
      fun path _ => Store.Keeps.refl store path⟩
  | requireReceived side message position =>
    obtain ⟨inode, hEntry, hHandle, hBuffer⟩ := hHolds
    simp only [FileProcess.exec, hRest, hHandle, Option.isSome_some, if_true]
    exact ⟨rfl, rfl, hFiles, ⟨inode, hEntry, rfl, hBuffer⟩,
      fun path _ => Store.Keeps.refl store path⟩
  | readSome side message position count =>
    obtain ⟨inode, hEntry, hHandle, hBuffer⟩ := hHolds
    have hContent : store.content inode = message := by
      simpa [Store.file, hEntry, Phase.message] using hFiles.message_file rfl
    simp only [FileProcess.exec, hRest, hHandle]
    refine ⟨rfl, rfl, hFiles.congr rfl rfl rfl, ⟨inode, hEntry, rfl, ?_⟩,
      fun path _ => Store.Keeps.refl store path⟩
    simp only [hBuffer, hContent, List.take_add]
  | readAll side message position =>
    obtain ⟨inode, hEntry, hHandle, hBuffer⟩ := hHolds
    have hContent : store.content inode = message := by
      simpa [Store.file, hEntry, Phase.message] using hFiles.message_file rfl
    simp only [FileProcess.exec, hRest, hHandle]
    refine ⟨rfl, rfl, hFiles.congr rfl rfl rfl, ?_, fun path _ => Store.Keeps.refl store path⟩
    simp only [Holds, hBuffer, hContent, List.take_append_drop]
  | closeReceived side message =>
    simp only [FileProcess.exec, hRest]
    exact ⟨rfl, rfl, hFiles, hHolds, fun path _ => Store.Keeps.refl store path⟩
  | removeReceived side message =>
    have hFile : store.isFile (c.dataFile identifier) = true := by
      rw [Store.isFile_eq_isSome, hFiles.message_file rfl]
      rfl
    simp only [FileProcess.exec, hRest, hFile, if_true]
    exact ⟨rfl, rfl, hFiles.removeData, trivial,
      fun path hOther => Store.keeps_remove store fun h => hOther (h ▸ .data)⟩

theorem Moves.sending_next {message : Text} {draft : Draft}
    (hMove : c.Moves identifier (.sending side message draft) instruction next) :
    (∃ draft', next = .sending side message draft') ∨ next = .ready side message := by
  cases hMove with
  | rename => exact Or.inr rfl
  | announce => exact Or.inr rfl
  | _ => exact Or.inl ⟨_, rfl⟩

theorem Moves.taking_next {message : Text} {stage : Stage}
    (hMove : c.Moves identifier (.taking side message stage) instruction next) :
    (∃ stage', next = .taking side message stage') ∨
      (next = .empty ∧ stage = .finished ∧ ∃ path, instruction = .remove path 5) := by
  cases hMove with
  | removeReceived => exact Or.inr ⟨rfl, rfl, _, rfl⟩
  | _ => exact Or.inl ⟨_, rfl⟩

theorem follows_cons (hMove : c.Moves identifier phase instruction next)
    (hActive : next.active = some side) (hRest : c.Follows identifier side next rest) :
    c.Follows identifier side phase (instruction :: rest) :=
  ⟨next, hMove, by rwa [if_pos hActive]⟩

theorem follows_last (hMove : c.Moves identifier phase instruction next)
    (hActive : next.active ≠ some side) (hRest : rest = [] ∨ rest = [.close]) :
    c.Follows identifier side phase (instruction :: rest) :=
  ⟨next, hMove, by rwa [if_neg hActive]⟩

theorem follows_writes {message : Text} (written : Text) (pieces : List Text)
    (hRest : c.Follows identifier side
      (.sending side message (.writing (written ++ pieces.flatten))) rest) :
    c.Follows identifier side (.sending side message (.writing written))
      (pieces.map .write ++ rest) := by
  induction pieces generalizing written with
  | nil => simpa using hRest
  | cons bytes pieces ih =>
    apply follows_cons (.write side message written bytes) rfl
    apply ih
    simpa using hRest

theorem follows_reads {message : Text} (position : Nat) (portions : List Nat)
    (hRest : ∀ position, c.Follows identifier side
      (.taking side message (.reading position)) rest) :
    c.Follows identifier side (.taking side message (.reading position))
      (portions.map .readSome ++ rest) := by
  induction portions generalizing position with
  | nil => exact hRest position
  | cons count portions ih =>
    exact follows_cons (.readSome side message position count) rfl (ih (position + count))

theorem follows_makeFileVisible (message : Text) :
    c.Follows identifier side (.sending side message .written)
      (c.makeFileVisible (c.dataFile identifier) c.useAuxFileForFileAvailability) := by
  have hPermissions : c.Moves identifier (.sending side message .written)
    (.permissions (c.tmpFile identifier)) (.sending side message .written) := .permissions side message
  cases hAux : c.useAuxFileForFileAvailability with
  | false =>
    rw [tmpFile, hAux] at hPermissions
    have hRename : c.Moves identifier (.sending side message .written)
      (.rename (c.tmpFile identifier) (c.dataFile identifier)) (.ready side message) :=
      .rename side message hAux
    rw [tmpFile, hAux] at hRename
    exact follows_cons hPermissions rfl
      (follows_last hRename (Option.some_ne_none side).symm (Or.inl rfl))
  | true =>
    rw [c.tmpFile_eq_of_aux hAux] at hPermissions
    exact follows_cons hPermissions rfl
      (follows_last (.announce side message hAux) (Option.some_ne_none side).symm (Or.inr rfl))

theorem follows_written (message : Text) (pieces : List Text) (hPieces : pieces.flatten = message)
    (hRest : c.Follows identifier side (.sending side message .written) rest) :
    c.Follows identifier side (.sending side message (.writing []))
      (.requireOpen :: (pieces.map .write ++ .close :: rest)) := by
  apply follows_cons (.requireCreated side message []) rfl
  apply follows_writes
  rw [List.nil_append, hPieces]
  exact follows_cons (.closeWritten side message) rfl hRest

theorem follows_received (message : Text) (portions : List Nat) :
    c.Follows identifier side (.taking side message (.reading 0))
      (.requireOpen :: (portions.map .readSome ++
        .readAll :: .close :: Communication.removePath (c.dataFile identifier))) := by
  apply follows_cons (.requireReceived side message 0) rfl
  apply follows_reads
  intro position
  exact follows_cons (.readAll side message position) rfl
    (follows_cons (.closeReceived side message) rfl
      (follows_last (.removeReceived side message) nofun (Or.inl rfl)))

/-- The phase of a receiver that has just seen the visible file. -/
def found (side : Side) (message : Text) : Phase :=
  .taking side message (if c.useAuxFileForFileAvailability then .announced else .holding)

variable (c identifier) in
theorem program_exportObject (kind : Kind) (pieces : List Text) :
    ∃ rest, c.program (.exportObject kind identifier pieces) =
        .waitRemoved (c.dataFile identifier) :: rest ∧
      ∀ side, c.Follows identifier side (.sending side pieces.flatten .opening) rest := by
  rw [program_export]
  split
  · refine ⟨.openExisting (c.tmpFile identifier) :: .createUnlessOpen (c.tmpFile identifier) ::
      .requireOpen :: (pieces.map .write ++ .close :: .fileSize (c.tmpFile identifier) ::
        c.makeFileVisible (c.dataFile identifier) c.useAuxFileForFileAvailability), ?_, ?_⟩
    · simp [genericSendWithFileSerializer, Communication.waitUntilFileIsRemoved, serializeToFile,
        openFileSerializer]
    · intro side
      apply follows_cons (.tryOpen side _) rfl
      apply follows_cons (.createUnlessOpen side _) rfl
      apply follows_written _ pieces rfl
      exact follows_cons (.writtenSize side _) rfl (follows_makeFileVisible _)
  · refine ⟨.create (c.tmpFile identifier) :: .requireOpen :: (pieces.map .write ++ .close ::
        c.makeFileVisible (c.dataFile identifier) c.useAuxFileForFileAvailability), ?_, ?_⟩
    · simp [genericSend, Communication.waitUntilFileIsRemoved]
    · intro side
      apply follows_cons (.create side _) rfl
      exact follows_written _ pieces rfl (follows_makeFileVisible _)

variable (c identifier) in
theorem waitForPath_dataFile :
    ∃ rest, Communication.waitForPath (c.dataFile identifier) c.useAuxFileForFileAvailability =
        .waitExists (c.visibleFile identifier) :: rest ∧
      ∀ side message after, c.Follows identifier side (.taking side message .holding) after →
        c.Follows identifier side (c.found side message) (rest ++ after) := by
  unfold Communication.waitForPath visibleFile found
  cases hAux : c.useAuxFileForFileAvailability with
  | false => exact ⟨[], rfl, fun side message after hAfter => hAfter⟩
  | true =>
    refine ⟨_, rfl, fun side message after hAfter => ?_⟩
    exact follows_cons (.removeAvail side message hAux) rfl hAfter

variable (c identifier) in
theorem program_importObject (kind : Kind) (portions : List Nat) :
    ∃ rest, c.program (.importObject kind identifier portions) =
        .waitExists (c.visibleFile identifier) :: rest ∧
      ∀ side message, c.Follows identifier side (c.found side message) rest := by
  obtain ⟨removed, hWait, hFound⟩ := waitForPath_dataFile c identifier
  rw [program_import]
  split
  · refine ⟨removed ++ .fileSize (c.dataFile identifier) ::
      .openExisting (c.dataFile identifier) :: .createUnlessOpen (c.dataFile identifier) ::
      .requireOpen :: (portions.map .readSome ++
        .readAll :: .close :: Communication.removePath (c.dataFile identifier)), ?_, ?_⟩
    · simp [genericReceiveWithFileSerializer, hWait, serializeFromFile, openFileSerializer]
    · intro side message
      apply hFound
      apply follows_cons (.receivedSize side message) rfl
      apply follows_cons (.openReceived side message) rfl
      exact follows_cons (.stayOpen side message 0) rfl (follows_received message portions)
  · refine ⟨removed ++ .openExisting (c.dataFile identifier) :: .requireOpen ::
      (portions.map .readSome ++
        .readAll :: .close :: Communication.removePath (c.dataFile identifier)), ?_, ?_⟩
    · simp [genericReceive, hWait]
    · intro side message
      apply hFound
      exact follows_cons (.openReceived side message) rfl (follows_received message portions)

theorem Follows.any_publishes {message : Text} {draft : Draft}
    (h : c.Follows identifier side (.sending side message draft) rest) :
    rest.any (c.publishes identifier) = true := by
  induction rest generalizing draft with
  | nil => exact h.elim
  | cons instruction rest ih =>
    obtain ⟨next, hMove, hNext⟩ := h
    rw [List.any_cons, Bool.or_eq_true]
    cases hMove with
    | rename _ _ hAux => exact Or.inl (by simp [publishes])
    | announce _ _ hAux => exact Or.inl (by simp [publishes])
    | _ => exact Or.inr (ih (by simpa [Phase.active] using hNext))

theorem Follows.any_removes {message : Text} {stage : Stage}
    (h : c.Follows identifier side (.taking side message stage) rest) :
    rest.any (c.removes identifier) = true := by
  induction rest generalizing stage with
  | nil => exact h.elim
  | cons instruction rest ih =>
    obtain ⟨next, hMove, hNext⟩ := h
    rw [List.any_cons, Bool.or_eq_true]
    cases hMove with
    | removeReceived => exact Or.inl (by simp [removes])
    | _ => exact Or.inr (ih (by simpa [Phase.active] using hNext))

theorem Follows.any_readsAll {message : Text} {stage : Stage}
    (h : c.Follows identifier side (.taking side message stage) rest) (hStage : stage ≠ .finished) :
    rest.any readsAll = true := by
  induction rest generalizing stage with
  | nil => exact h.elim
  | cons instruction rest ih =>
    obtain ⟨next, hMove, hNext⟩ := h
    rw [List.any_cons, Bool.or_eq_true]
    cases hMove with
    | readAll => exact Or.inl rfl
    | closeReceived => exact absurd rfl hStage
    | removeReceived => exact absurd rfl hStage
    | _ => exact Or.inr (ih (by simpa [Phase.active] using hNext) (by nofun))

theorem Follows.not_any_readsAll {message : Text}
    (h : c.Follows identifier side (.taking side message .finished) rest) :
    rest.any readsAll = false := by
  induction rest with
  | nil => exact h.elim
  | cons instruction rest ih =>
    obtain ⟨next, hMove, hNext⟩ := h
    cases hMove with
    | closeReceived => exact ih (by simpa [Phase.active] using hNext)
    | removeReceived =>
      have hRest : rest = [] ∨ rest = [.close] := by simpa [Phase.active] using hNext
      rcases hRest with rfl | rfl <;> rfl

end Moves

end CoSimIO.FileCommunication
