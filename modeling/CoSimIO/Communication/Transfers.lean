import CoSimIO.Communication.HandShake
import CoSimIO.Communication.SocketDialog
import CoSimIO.ModelPart.Serialization

/-! # The transfers of `Communication` over a socket

An object is sent as the string that the serializer makes of it. Times are measured by the caller.
-/

namespace CoSimIO.Communication

open Block Duplex Restore Serializer

set_option autoImplicit false

variable {E α γ : Type}

/-- What a call throws -/
inductive CallError
  | fault (fault : Fault)
  | get (error : GetError)

/-- A call that sends and receives -/
abbrev Task (E α : Type) : Type := ExceptT CallError (Process UInt8 E) α

namespace Task

def of (result : Except CallError α) : Task E α := Process.ended result

def lift (process : Process UInt8 E α) : Task E α := process.bind fun a => .ended (.ok a)

def report (event : E) : Task E Unit := Process.report event (.ended (.ok ()))

end Task

/-- The last thing that a partner reports is how its calls have ended. -/
def concluding (task : Task E α) (event : Except CallError α → E) : Process UInt8 E Unit :=
  Process.bind task fun result => .report (event result) (.ended ())

def throwText {α : Type} (result : Except Text α) : Except CallError α :=
  result.mapError fun message => .fault (.error message)

def require (condition : Bool) (message : Text) : Except CallError Unit :=
  if condition then .ok () else .error (.fault (.error message))

def has (info : LocatedInfo) (key : Text) : Bool := (OrderedMap.find info.2 key).isSome

def get (info : LocatedInfo) (type : ScalarType) (key : Text) :
    Except CallError type.kind.Carrier :=
  (info.2.get info.1 (.scalar type) key).mapError .get

/-- The info is in the same process, so it gets the new object. -/
def set (info : LocatedInfo) (key : Text) (type : ScalarType) (value : type.kind.Carrier) :
    LocatedInfo :=
  let added := info.1.add (.scalar type value)
  (added.2, OrderedMap.set key (some added.1) info.2)

def elapsedTimeKey : Text := "elapsed_time".toList

def elapsedTimeIpcKey : Text := "elapsed_time_ipc".toList

def elapsedTimeSerializerKey : Text := "elapsed_time_serializer".toList

def memoryUsageIpcKey : Text := "memory_usage_ipc".toList

/-- The first time is the sum of the others. -/
structure Timing where
  elapsedTime : Double
  ipc : Double
  serializer : Double

def setTiming (info : LocatedInfo) (timing : Timing) (memoryUsage : BitVec 64) : LocatedInfo :=
  let info := set info elapsedTimeKey .double timing.elapsedTime
  let info := set info elapsedTimeIpcKey .double timing.ipc
  let info := set info elapsedTimeSerializerKey .double timing.serializer
  set info memoryUsageIpcKey .sizeT memoryUsage

/-- `CheckConnection` -/
def checkConnection (isConnected : Bool) (info : LocatedInfo) : Except CallError Unit := do
  require isConnected "No active connection exists!\n".toList
  require (has info "identifier".toList) "\"identifier\" must be specified!\n".toList
  let identifier ← get info .string "identifier".toList
  throwText (Utilities.checkEntry identifier "identifier".toList)

def postChecks (info : LocatedInfo) : Except CallError Unit := do
  require (has info elapsedTimeKey) "\"elapsed_time\" must be specified!\n".toList
  require (has info memoryUsageIpcKey) "\"memory_usage_ipc\" must be specified!\n".toList

/-- `PrintElapsedTime`, of which only the errors matter here. -/
def printElapsedTime (iInfo oInfo : LocatedInfo) : Except CallError Unit := do
  let _ ← get iInfo .string "identifier".toList
  let _ ← get oInfo .double elapsedTimeKey
  return ()

/-- What every exporting and importing function does around its own part. `i_info` is a copy of the
argument. -/
def checked (isConnected : Bool) (iInfo : LocatedInfo) (oInfo : α → LocatedInfo)
    (impl : Task E α) : Task E α := do
  Task.of (checkConnection isConnected iInfo)
  let result ← impl
  Task.of (postChecks (oInfo result))
  Task.of (printElapsedTime ((oInfo result).1, iInfo.2) (oInfo result))
  return result

section Objects

variable (cfg : Config) (timing : Timing)

def sendString (data : Text) : Task E Unit :=
  Task.lift (BaseSocketCommunication.sendString (data.map charByte)).silent

def receiveString : Task E Text :=
  Task.lift ((BaseSocketCommunication.receiveString []).silent.bind fun bytes =>
    .ended (bytesText bytes))

/-- The info that is returned is a new one. -/
def sendObjectWithStreamSerializer (heap : InfoHeap) (items : List Item) : Task E LocatedInfo := do
  let data ← Task.of (throwText (writeAll cfg items))
  sendString data
  return setTiming (heap, []) timing (BitVec.ofNat 64 data.length)

/-- The object is loaded from the string, perhaps with infos in it. -/
def receiveObjectWithStreamSerializer (heap : InfoHeap)
    (load : Text → InfoHeap → Except CallError (InfoHeap × α)) : Task E (LocatedInfo × α) := do
  let buffer ← receiveString
  let (heap, object) ← Task.of (load buffer heap)
  return (setTiming (heap, []) timing (BitVec.ofNat 64 buffer.length), object)

end Objects

section Infos

variable (cfg : Config) (timing : Timing) (isConnected : Bool)

/-- `serializer.save("object", info)` -/
def infoItems (layout : Nat → BitVec 64) (depth : Nat) (info : LocatedInfo) : List Item :=
  tracePoint cfg "object".toList ++ (Info.save cfg info.1 layout depth info.2 []).1

/-- `serializer.load("object", info)` for an empty `info` -/
def loadInfo (depth : Nat) (data : Text) (heap : InfoHeap) : Except Text LocatedInfo := do
  let loaded ← (do
    loadPoint cfg "object".toList
    Info.load cfg depth [] : Loader InfoHeap Info) (streamSerializer data, startMemory heap)
  return (loaded.2.2.heap, loaded.1)

def exportInfoImpl (layout : Nat → BitVec 64) (depth : Nat) (iInfo : LocatedInfo) :
    Task E LocatedInfo :=
  sendObjectWithStreamSerializer cfg timing iInfo.1 (infoItems cfg layout depth iInfo)

/-- The sizes and times replace what the partner may have set under their keys. -/
def importInfoImpl (depth : Nat) (heap : InfoHeap) : Task E LocatedInfo := do
  let (recInfo, importedInfo) ← receiveObjectWithStreamSerializer timing heap fun buffer heap =>
    throwText (loadInfo cfg depth buffer heap)
  let elapsedTime ← Task.of (get recInfo .double elapsedTimeKey)
  let ipc ← Task.of (get recInfo .double elapsedTimeIpcKey)
  let serializer ← Task.of (get recInfo .double elapsedTimeSerializerKey)
  let memoryUsage ← Task.of (get recInfo .sizeT memoryUsageIpcKey)
  return setTiming (recInfo.1, importedInfo) ⟨elapsedTime, ipc, serializer⟩ memoryUsage

def exportInfo (layout : Nat → BitVec 64) (depth : Nat) (iInfo : LocatedInfo) :
    Task E LocatedInfo :=
  checked isConnected iInfo id (exportInfoImpl cfg timing layout depth iInfo)

def importInfo (depth : Nat) (iInfo : LocatedInfo) : Task E LocatedInfo :=
  checked isConnected iInfo id (importInfoImpl cfg timing depth iInfo.1)

end Infos

section Meshes

variable (cfg : Config) (timing : Timing) (isConnected : Bool)

def exportMesh (layout : Object → BitVec 64) (iInfo : LocatedInfo) (modelPart : ModelPart.State) :
    Task E LocatedInfo :=
  checked isConnected iInfo id
    (sendObjectWithStreamSerializer cfg timing iInfo.1 (ModelPart.saveObject cfg layout modelPart))

def loadMesh (rehash : Rehash) (depth : Nat) (modelPart : ModelPart.State) (data : Text)
    (heap : InfoHeap) : Except CallError (InfoHeap × ModelPart.State) := do
  let loaded ← throwText (ModelPart.loadObject cfg rehash depth modelPart data)
  return (heap, loaded)

def importMesh (rehash : Rehash) (depth : Nat) (iInfo : LocatedInfo)
    (modelPart : ModelPart.State) : Task E (LocatedInfo × ModelPart.State) :=
  checked isConnected iInfo Prod.fst
    (receiveObjectWithStreamSerializer timing iInfo.1 (loadMesh cfg rehash depth modelPart))

end Meshes

section Data

variable (cfg : Config) (timing : Timing) (isConnected alwaysUseSerializer : Bool)

def faulting {α : Type} (result : Except Fault α) : Except CallError α := result.mapError .fault

def sendDataContainer (rData : DataContainer Double) : Task E Unit := do
  let values ← Task.of (faulting (rData.readElements rData.size 0))
  Task.lift (BaseSocketCommunication.sendDataContainer values).silent

def receiveDataContainer (allocator : Allocator Double 8) (rData : DataContainer Double) :
    Task E (DataContainer Double) := do
  let receivedSize ← Task.lift BaseSocketCommunication.receiveSize.silent
  let rData ← Task.of (faulting (rData.resize allocator receivedSize))
  let bytes ← Task.lift (BaseSocketCommunication.asioRead (sizeT (rData.size * 8))).silent
  Task.of (faulting (FileCommunication.copyBytes rData.size 0 (bytesText bytes) rData))

/-- Without the serializer there is one time only. -/
def dataInfo (heap : InfoHeap) (rData : DataContainer Double) : LocatedInfo :=
  let info := set (heap, []) elapsedTimeKey .double timing.elapsedTime
  set info memoryUsageIpcKey .sizeT (BitVec.ofNat 64 (rData.size * 8))

def exportDataImpl (heap : InfoHeap) (rData : DataContainer Double) : Task E LocatedInfo :=
  if alwaysUseSerializer then do
    let items ← Task.of (faulting (rData.saveObject cfg))
    sendObjectWithStreamSerializer cfg timing heap items
  else do
    sendDataContainer rData
    return dataInfo timing heap rData

def loadData (allocator : Allocator Double 8) (rData : DataContainer Double) (data : Text)
    (heap : InfoHeap) : Except CallError (InfoHeap × DataContainer Double) := do
  let loaded ← faulting (rData.loadObject cfg allocator (streamSerializer data))
  return (heap, loaded)

def importDataImpl (allocator : Allocator Double 8) (heap : InfoHeap)
    (rData : DataContainer Double) : Task E (LocatedInfo × DataContainer Double) :=
  if alwaysUseSerializer then
    receiveObjectWithStreamSerializer timing heap (loadData cfg allocator rData)
  else do
    let received ← receiveDataContainer allocator rData
    return (dataInfo timing heap received, received)

def exportData (iInfo : LocatedInfo) (rData : DataContainer Double) : Task E LocatedInfo :=
  checked isConnected iInfo id (exportDataImpl cfg timing alwaysUseSerializer iInfo.1 rData)

def importData (allocator : Allocator Double 8) (iInfo : LocatedInfo)
    (rData : DataContainer Double) : Task E (LocatedInfo × DataContainer Double) :=
  checked isConnected iInfo Prod.fst
    (importDataImpl cfg timing alwaysUseSerializer allocator iInfo.1 rData)

end Data

end CoSimIO.Communication
