import CoSimIO.Communication.Files

/-! # File-system steps of `FileCommunication`

A message is the bytes that an export writes to its file, piece by piece; how an
object becomes bytes and bytes become an object again is the serializer's matter.
An import reads the file in portions of any sizes. What a pair of partners agrees on
in the handshake is shared by both, only the names differ from rank to rank.
-/

namespace CoSimIO

open FileProcess

set_option autoImplicit false

structure FileCommunication extends Communication where
  rank : Text
  useAuxFileForFileAvailability : Bool
  useFileSerializer : Bool
  alwaysUseSerializer : Bool

inductive Kind
  | info
  | data
  | mesh
deriving DecidableEq

inductive DataCall
  | exportObject (kind : Kind) (identifier : Text) (pieces : List Text)
  | importObject (kind : Kind) (identifier : Text) (portions : List Nat)
deriving DecidableEq

def DataCall.identifier : DataCall → Text
  | .exportObject _ identifier _ => identifier
  | .importObject _ identifier _ => identifier

def DataCall.isExport : DataCall → Bool
  | .exportObject .. => true
  | .importObject .. => false

namespace FileCommunication

variable (c : FileCommunication)

def dataFile (identifier : Text) : Text :=
  c.getFileName
    ("CoSimIO_data_".toList ++ c.connectionName ++ '_' :: identifier ++ '_' :: c.rank) "dat".toList

def tmpFile (identifier : Text) : Text :=
  c.getTmpFileName (c.dataFile identifier) c.useAuxFileForFileAvailability

/-- The file whose existence tells the receiver that the message is complete. -/
def visibleFile (identifier : Text) : Text :=
  if c.useAuxFileForFileAvailability then Communication.availFile (c.dataFile identifier)
  else c.dataFile identifier

def openFileSerializer (path : Text) : List Step :=
  [.openExisting path, .createUnlessOpen path, .requireOpen]

def serializeToFile (path : Text) (pieces : List Text) : List Step :=
  openFileSerializer path ++ pieces.map .write ++ [.close]

def serializeFromFile (path : Text) (portions : List Nat) : List Step :=
  openFileSerializer path ++ portions.map .readSome ++ [.readAll, .close]

def genericSendWithFileSerializer (identifier : Text) (pieces : List Text) : List Step :=
  Communication.waitUntilFileIsRemoved (c.dataFile identifier) ++
    serializeToFile (c.tmpFile identifier) pieces ++
    [.fileSize (c.tmpFile identifier)] ++
    c.makeFileVisible (c.dataFile identifier) c.useAuxFileForFileAvailability

def genericReceiveWithFileSerializer (identifier : Text) (portions : List Nat) : List Step :=
  Communication.waitForPath (c.dataFile identifier) c.useAuxFileForFileAvailability ++
    [.fileSize (c.dataFile identifier)] ++
    serializeFromFile (c.dataFile identifier) portions ++
    Communication.removePath (c.dataFile identifier)

def genericSend (identifier : Text) (pieces : List Text) : List Step :=
  Communication.waitUntilFileIsRemoved (c.dataFile identifier) ++
    [.create (c.tmpFile identifier), .requireOpen] ++ pieces.map .write ++ [.close] ++
    c.makeFileVisible (c.dataFile identifier) c.useAuxFileForFileAvailability

def genericReceive (identifier : Text) (portions : List Nat) : List Step :=
  Communication.waitForPath (c.dataFile identifier) c.useAuxFileForFileAvailability ++
    [.openExisting (c.dataFile identifier), .requireOpen] ++
    portions.map .readSome ++ [.readAll, .close] ++
    Communication.removePath (c.dataFile identifier)

def exportInfoImpl (identifier : Text) (pieces : List Text) : List Step :=
  if c.useFileSerializer then c.genericSendWithFileSerializer identifier pieces
  else c.genericSend identifier pieces

def exportDataImpl (identifier : Text) (pieces : List Text) : List Step :=
  if c.useFileSerializer && c.alwaysUseSerializer then
    c.genericSendWithFileSerializer identifier pieces
  else c.genericSend identifier pieces

def exportMeshImpl (identifier : Text) (pieces : List Text) : List Step :=
  if c.useFileSerializer then c.genericSendWithFileSerializer identifier pieces
  else c.genericSend identifier pieces

def importInfoImpl (identifier : Text) (portions : List Nat) : List Step :=
  if c.useFileSerializer then c.genericReceiveWithFileSerializer identifier portions
  else c.genericReceive identifier portions

def importDataImpl (identifier : Text) (portions : List Nat) : List Step :=
  if c.useFileSerializer && c.alwaysUseSerializer then
    c.genericReceiveWithFileSerializer identifier portions
  else c.genericReceive identifier portions

def importMeshImpl (identifier : Text) (portions : List Nat) : List Step :=
  if c.useFileSerializer then c.genericReceiveWithFileSerializer identifier portions
  else c.genericReceive identifier portions

def program : DataCall → List Step
  | .exportObject .info identifier pieces => c.exportInfoImpl identifier pieces
  | .exportObject .data identifier pieces => c.exportDataImpl identifier pieces
  | .exportObject .mesh identifier pieces => c.exportMeshImpl identifier pieces
  | .importObject .info identifier portions => c.importInfoImpl identifier portions
  | .importObject .data identifier portions => c.importDataImpl identifier portions
  | .importObject .mesh identifier portions => c.importMeshImpl identifier portions

def usesFileSerializer : Kind → Bool
  | .data => c.useFileSerializer && c.alwaysUseSerializer
  | _ => c.useFileSerializer

theorem program_export (kind : Kind) (identifier : Text) (pieces : List Text) :
    c.program (.exportObject kind identifier pieces) =
      if c.usesFileSerializer kind then c.genericSendWithFileSerializer identifier pieces
      else c.genericSend identifier pieces := by
  cases kind <;> rfl

theorem program_import (kind : Kind) (identifier : Text) (portions : List Nat) :
    c.program (.importObject kind identifier portions) =
      if c.usesFileSerializer kind then c.genericReceiveWithFileSerializer identifier portions
      else c.genericReceive identifier portions := by
  cases kind <;> rfl

section Paths

def folderPrefix : Text := if c.commInFolder then c.commFolder ++ ['/'] else []

@[irreducible] def localName (identifier : Text) : Text :=
  "CoSimIO_data_".toList ++ c.connectionName ++ '_' :: identifier ++ '_' :: c.rank ++
    '.' :: "dat".toList

theorem dataFile_eq (identifier : Text) :
    c.dataFile identifier = c.folderPrefix ++ c.localName identifier := by
  unfold dataFile folderPrefix localName Communication.getFileName Communication.appendPath
  split <;> simp

theorem tmpFile_eq_of_aux (h : c.useAuxFileForFileAvailability = true) (identifier : Text) :
    c.tmpFile identifier = c.dataFile identifier := by
  simp [tmpFile, Communication.getTmpFileName, h]

theorem tmpFile_eq (h : c.useAuxFileForFileAvailability = false) (identifier : Text) :
    c.tmpFile identifier = c.folderPrefix ++ '.' :: c.localName identifier := by
  rw [tmpFile, Communication.getTmpFileName, h, dataFile_eq, folderPrefix]
  by_cases hFolder : c.commInFolder = true
  · have hLength : c.commFolder.length + 1 = (c.commFolder ++ ['/']).length := by simp
    simp only [hFolder, if_true, Bool.not_false, hLength, List.take_left, List.drop_left]
  · simp [hFolder]

theorem localName_injective {identifier identifier' : Text}
    (h : c.localName identifier = c.localName identifier') : identifier = identifier' := by
  simpa [localName] using h

theorem localName_ne_dot (identifier : Text) (name : Text) :
    c.localName identifier ≠ '.' :: name := by
  simp [localName]

theorem dataFile_injective {identifier identifier' : Text}
    (h : c.dataFile identifier = c.dataFile identifier') : identifier = identifier' := by
  rw [dataFile_eq, dataFile_eq] at h
  exact c.localName_injective (List.append_cancel_left h)

theorem tmpFile_injective {identifier identifier' : Text}
    (h : c.tmpFile identifier = c.tmpFile identifier') : identifier = identifier' := by
  by_cases hAux : c.useAuxFileForFileAvailability = true
  · rw [c.tmpFile_eq_of_aux hAux, c.tmpFile_eq_of_aux hAux] at h
    exact c.dataFile_injective h
  · rw [Bool.not_eq_true] at hAux
    rw [c.tmpFile_eq hAux, c.tmpFile_eq hAux] at h
    exact c.localName_injective (List.cons.inj (List.append_cancel_left h)).2

theorem tmpFile_ne_dataFile (h : c.useAuxFileForFileAvailability = false)
    (identifier identifier' : Text) : c.tmpFile identifier ≠ c.dataFile identifier' := by
  rw [c.tmpFile_eq h, dataFile_eq]
  intro hEq
  exact c.localName_ne_dot identifier' _ (List.append_cancel_left hEq).symm

theorem identifier_eq_of_tmpFile {identifier identifier' : Text}
    (h : c.tmpFile identifier = c.dataFile identifier') : identifier = identifier' := by
  by_cases hAux : c.useAuxFileForFileAvailability = true
  · rw [c.tmpFile_eq_of_aux hAux] at h
    exact c.dataFile_injective h
  · rw [Bool.not_eq_true] at hAux
    exact absurd h (c.tmpFile_ne_dataFile hAux _ _)

theorem availFile_ne_dataFile (path identifier : Text) :
    Communication.availFile path ≠ c.dataFile identifier := by
  intro h
  simpa [dataFile] using congrArg List.getLast? h

theorem availFile_ne_tmpFile (path identifier : Text) :
    Communication.availFile path ≠ c.tmpFile identifier := by
  by_cases hAux : c.useAuxFileForFileAvailability = true
  · rw [c.tmpFile_eq_of_aux hAux]
    exact c.availFile_ne_dataFile path identifier
  · intro h
    rw [Bool.not_eq_true] at hAux
    rw [c.tmpFile_eq hAux] at h
    have hLast := congrArg List.getLast? h
    simp [localName, List.getLast?_append, List.getLast?_cons] at hLast

/-- The files that calls under one identifier use. -/
inductive Owned (identifier : Text) : Text → Prop
  | data : Owned identifier (c.dataFile identifier)
  | tmp : Owned identifier (c.tmpFile identifier)
  | avail : Owned identifier (Communication.availFile (c.dataFile identifier))

theorem Owned.identifier_eq {c : FileCommunication} {identifier identifier' path path' : Text}
    (h : c.Owned identifier path) (h' : c.Owned identifier' path') (hPath : path = path') :
    identifier = identifier' := by
  cases h <;> cases h'
  case data.data => exact c.dataFile_injective hPath
  case data.tmp => exact (c.identifier_eq_of_tmpFile hPath.symm).symm
  case data.avail => exact absurd hPath.symm (c.availFile_ne_dataFile _ _)
  case tmp.data => exact c.identifier_eq_of_tmpFile hPath
  case tmp.tmp => exact c.tmpFile_injective hPath
  case tmp.avail => exact absurd hPath.symm (c.availFile_ne_tmpFile _ _)
  case avail.data => exact absurd hPath (c.availFile_ne_dataFile _ _)
  case avail.tmp => exact absurd hPath (c.availFile_ne_tmpFile _ _)
  case avail.avail =>
    exact c.dataFile_injective (by simpa [Communication.availFile] using hPath)

end Paths

end FileCommunication

end CoSimIO
