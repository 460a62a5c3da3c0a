import CoSimIO.Communication.BarrierProtocol
import CoSimIO.Communication.HandShakeAgreement
import CoSimIO.Communication.HandShakeProtocol
import CoSimIO.Library.FileCleaning
import CoSimIO.Library.FileSequel

/-! # `Connect` and `Disconnect` over files

The primary partner first removes what is left in the folder of the connection. The first barrier
keeps the other one from the handshake until then, and the last one keeps its files until both have
all they need.
-/

namespace CoSimIO.FileSession

open FileProcess FileScript HandShake Serializer

set_option autoImplicit false

variable (c : Communication) (depth : Nat)

abbrev SessionScript : Type := Script Text Char LocatedInfo (Except HandShakeError Unit)

/-- `fs::remove_all`, with the files of the folder in the order in which it meets them. -/
def removeAll (files : List Text) : List Step := files.map fun path => .remove path 1

/-- What `BaseConnectDetail` of the primary partner removes -/
def removedFiles (leftovers : List Text) : List Text := if c.commInFolder then leftovers else []

def baseConnectDetail (leftovers : List Text) (side : Side) :
    Script Text Char LocatedInfo Unit :=
  match side with
  | .primary => .run (removeAll (removedFiles c leftovers)) fun _ =>
    c.synchronize "conn".toList () .primary
  | .secondary => c.synchronize "conn".toList () .secondary

def connect (leftovers : List Text) (p : Partner) : SessionScript :=
  (baseConnectDetail c leftovers p.side).bind fun _ => handShake c depth p

/-- The folder that the primary partner removes after the barrier is empty. -/
def baseDisconnectDetail (side : Side) : SessionScript :=
  c.synchronize "disconn".toList (.ok ()) side

/-- The paths of the communication folder -/
def InFolder (path : Text) : Prop := ∃ name, path = Communication.appendPath c.commFolder name

/-- All files of the session -/
def SessionFile (path : Text) : Prop :=
  (path ∈ c.syncPaths "conn".toList ∨ path ∈ infoPaths c) ∨ path ∈ c.syncPaths "disconn".toList

section Paths

variable {c} {tag tag' path : Text}

theorem inFolder_getFileName (hFolder : c.commInFolder = true) (name extension : Text) :
    InFolder c (c.getFileName name extension) :=
  ⟨name ++ '.' :: extension, if_pos hFolder⟩

theorem InFolder.availFile (h : InFolder c path) : InFolder c (Communication.availFile path) := by
  obtain ⟨name, rfl⟩ := h
  exact ⟨name ++ ".avail".toList, by simp [Communication.availFile, Communication.appendPath]⟩

theorem SessionFile.inFolder (hFolder : c.commInFolder = true) (h : SessionFile c path) :
    InFolder c path := by
  have hSync : ∀ tag, path ∈ c.syncPaths tag → InFolder c path := by
    intro tag h
    obtain ⟨side, avail, rfl⟩ := Communication.exists_of_mem_syncPaths h
    have hFile : InFolder c (c.syncFile side tag) := inFolder_getFileName hFolder _ _
    cases avail with
    | false => exact hFile
    | true => exact hFile.availFile
  rcases h with (h | h) | h
  · exact hSync _ h
  · have hFile : ∀ writer, InFolder c (infoFile c writer) :=
      fun writer => inFolder_getFileName hFolder _ _
    simp only [infoPaths, List.mem_cons, List.not_mem_nil, or_false] at h
    rcases h with rfl | rfl | rfl | rfl
    · exact hFile _
    · exact (hFile _).availFile
    · exact hFile _
    · exact (hFile _).availFile
  · exact hSync _ h

end Paths

/-- What the directory may have before: leftovers in the folder, but not the announcement that
the first barrier waits for. -/
structure Startable (files : Text → Prop) (leftovers : List Text) (store : Store Text Char) :
    Prop where
  nodup : leftovers.Nodup
  leftovers : c.commInFolder = true → ∀ path,
    path ∈ leftovers ↔ InFolder c path ∧ store.isFile path = true
  fresh : c.commInFolder = false → ∀ path, files path → store.isFile path = false
  announced : store.isFile (c.syncPath .primary true "conn".toList) = false

/-- The primary partner removes the leftovers first. -/
def beginning {Result : Type} (scripts : Side → Script Text Char LocatedInfo Result)
    (leftovers : List Text) (store : Store Text Char) : World Side Text Char LocatedInfo Result :=
  start store (cleaning .primary (removedFiles c leftovers) scripts)

section Start

variable {c} {files : Text → Prop} {leftovers : List Text} {store : Store Text Char} {path : Text}

theorem Startable.nodup_removed (h : Startable c files leftovers store) :
    (removedFiles c leftovers).Nodup := by
  unfold removedFiles
  split
  · exact h.nodup
  · exact List.nodup_nil

theorem Startable.isFile_removed (h : Startable c files leftovers store)
    (hPath : path ∈ removedFiles c leftovers) : store.isFile path = true := by
  unfold removedFiles at hPath
  split at hPath
  · next hFolder => exact ((h.leftovers hFolder path).mp hPath).2
  · cases hPath

variable (hInFolder : c.commInFolder = true → ∀ path, files path → InFolder c path)

include hInFolder

theorem Startable.mem_removed (h : Startable c files leftovers store) (hPath : files path)
    (hFile : store.isFile path = true) : path ∈ removedFiles c leftovers := by
  unfold removedFiles
  split
  · next hFolder => exact (h.leftovers hFolder path).mpr ⟨hInFolder hFolder path hPath, hFile⟩
  · next hFolder =>
    rw [h.fresh (Bool.eq_false_iff.mpr hFolder) path hPath] at hFile
    cases hFile

/-- After the removal there is nothing in the folder, and no file of the session. -/
theorem Startable.gone (h : Startable c files leftovers store)
    (hPath : files path ∨ c.commInFolder = true ∧ InFolder c path) :
    (removed store (removedFiles c leftovers)).isFile path = false := by
  rw [FileScript.isFile_removed]
  cases hFile : store.isFile path with
  | false => exact Bool.and_false _
  | true =>
    have hMem : path ∈ removedFiles c leftovers := by
      rcases hPath with hPath | ⟨hFolder, hPath⟩
      · exact h.mem_removed hInFolder hPath hFile
      · rw [removedFiles, if_pos hFolder]
        exact (h.leftovers hFolder path).mpr ⟨hPath, hFile⟩
    simp [hMem]

variable {Result : Type} {scripts : Side → Script Text Char LocatedInfo Result}
  {result : Side → Result} {events : Side → List LocatedInfo} {uses : Text → Prop}
  (hWaits : ∀ side, side ≠ .primary → Waits (c.syncPath .primary true "conn".toList) (scripts side))

include hWaits

theorem Startable.completes (h : Startable c files leftovers store)
    (protocol : Protocol scripts result events uses) (hUses : ∀ path, uses path → files path) :
    Completes (beginning c scripts leftovers store) result events :=
  protocol.completes_cleaning h.nodup_removed (fun _ => h.isFile_removed)
    (fun path hPath => h.mem_removed hInFolder (hUses path hPath)) h.announced hWaits

theorem Startable.gone_of_ended (h : Startable c files leftovers store)
    (protocol : Protocol scripts result events uses) (hUses : ∀ path, uses path → files path)
    (schedule : List Side) {side : Side}
    (hEnded : ((run (beginning c scripts leftovers store) schedule).party side).result.isSome)
    (hOthers : protocol.Settles ∨
      ∀ side, ((run (beginning c scripts leftovers store) schedule).party side).result.isSome)
    (hPath : files path ∨ c.commInFolder = true ∧ InFolder c path) :
    (run (beginning c scripts leftovers store) schedule).store.isFile path = false :=
  protocol.gone_cleaning h.nodup_removed (fun _ => h.isFile_removed)
    (fun path hPath => h.mem_removed hInFolder (hUses path hPath)) h.announced hWaits schedule
    hEnded hOthers (.inr (h.gone hInFolder hPath))

end Start

/-- The scripts either end well and leave none of the files, or they are all refused. -/
structure Concludes {Result : Type} (files : Text → Prop)
    (scripts : Side → Script Text Char LocatedInfo (Except HandShakeError Result))
    (result : Side → Except HandShakeError Result) (events : Side → List LocatedInfo) : Prop where
  waits : ∀ side, side ≠ .primary → Waits (c.syncPath .primary true "conn".toList) (scripts side)
  protocol : ∃ uses, ∃ protocol : Protocol scripts result events uses,
    (∀ path, uses path → files path) ∧
      (protocol.Settles ∨ ∀ side r, result side ≠ .ok r)

theorem Concludes.completes {c : Communication} {Result : Type} {files : Text → Prop}
    {scripts : Side → Script Text Char LocatedInfo (Except HandShakeError Result)}
    {result : Side → Except HandShakeError Result} {events : Side → List LocatedInfo}
    (h : Concludes c files scripts result events)
    (hInFolder : c.commInFolder = true → ∀ path, files path → InFolder c path)
    {leftovers : List Text} {store : Store Text Char} (hStart : Startable c files leftovers store) :
    Completes (beginning c scripts leftovers store) result events ∧
    ∀ schedule side,
      ((∃ r, ((run (beginning c scripts leftovers store) schedule).party side).result =
          some (.ok r)) ∨
        ∀ side, ((run (beginning c scripts leftovers store) schedule).party side).result.isSome) →
      ∀ path, files path ∨ c.commInFolder = true ∧ InFolder c path →
        (run (beginning c scripts leftovers store) schedule).store.isFile path = false := by
  obtain ⟨uses, protocol, hUses, hSettles⟩ := h.protocol
  have hCompletes := hStart.completes hInFolder h.waits protocol hUses
  refine ⟨hCompletes, fun schedule side hEnded path hPath => ?_⟩
  rcases hEnded with ⟨r, hResult⟩ | hAll
  · rcases hSettles with hSettles | hRefused
    · exact hStart.gone_of_ended hInFolder h.waits protocol hUses schedule
        (by rw [hResult]; rfl) (.inl hSettles) hPath
    · exact absurd ((hCompletes.outcome schedule side).result _ hResult).1.symm (hRefused side r)
  · exact hStart.gone_of_ended hInFolder h.waits protocol hUses schedule (hAll side) (.inr hAll) hPath

section Protocols

variable {c} (plan : Plan c LocatedInfo (Except HandShakeError Unit))

end Protocols

section Partners

variable {c} {depth} {floats : FloatText} {p : Side → Partner} {data : Side → Text}
  {partnerInfo : Side → LocatedInfo}

end Partners

section OldFile

end OldFile

end CoSimIO.FileSession
