import CoSimIO.Data.Containers
import CoSimIO.Serializer.Values

/-! # `ExportData` and `ImportData` of `FileCommunication`

The array goes through a serializer, or it is sent as its size and the raw block. Either way the
message is the contents of one file.
-/

namespace CoSimIO

open Block LittleEndian Serializer

set_option autoImplicit false

/-- The bits of a `double` -/
abbrev Double : Type := BitVec 64

/-- The exceptions of the serializer -/
def throwing {α : Type} (result : Except Text α) : Except Fault α := result.mapError .error

structure DataSettings where
  alwaysUseSerializer : Bool
  mUseFileSerializer : Bool

namespace DataContainer

variable (cfg : Config)

section Save

/-- `DataContainer::save` -/
def saveBase (c : DataContainer Double) : Except Fault (List Item) := do
  let vs ← c.readElements c.size 0
  return saveSize cfg c.size ++ vs.flatMap fun v => save cfg "v".toList ⟨.double, v⟩

/-- The `save` of the derived classes, called with the tag of `SendObjectWithStreamSerializer` and
`SerializeToFile` -/
def saveObject (c : DataContainer Double) : Except Fault (List Item) := do
  let items ← c.saveBase cfg
  return tracePoint cfg "object".toList ++ (tracePoint cfg "BaseClass".toList ++ items)

end Save

section Load

variable (allocator : Allocator Double 8)

def loadElements : (count i : Nat) → DataContainer Double → Input →
    Except Fault (DataContainer Double × Input)
  | 0, _, c, input => .ok (c, input)
  | count + 1, i, c, input => do
    let old ← c.element i
    let (v, input) ← throwing (load cfg "v".toList .double old input)
    loadElements count (i + 1) (c.set i v) input

def resizeIfDifferent (c : DataContainer Double) (newSize : Nat) :
    Except Fault (DataContainer Double) :=
  if c.size ≠ newSize then c.resize allocator newSize else .ok c

/-- `DataContainer::load` -/
def loadBase (c : DataContainer Double) (input : Input) :
    Except Fault (DataContainer Double × Input) := do
  let (newSize, input) ← throwing (loadSize cfg cfg.uninitialized input)
  let c ← c.resizeIfDifferent allocator newSize.toNat
  loadElements cfg c.size 0 c input

/-- The `load` of the derived classes -/
def load (c : DataContainer Double) (input : Input) :
    Except Fault (DataContainer Double × Input) :=
  if c.ReadOnly then .error (.error loadError)
  else do
    let input ← throwing (loadTracePoint cfg "BaseClass".toList input)
    c.loadBase cfg allocator input

def loadObject (c : DataContainer Double) (input : Input) : Except Fault (DataContainer Double) := do
  let input ← throwing (loadTracePoint cfg "object".toList input)
  let (c, _) ← c.load cfg allocator input
  return c

end Load

end DataContainer

namespace FileCommunication

variable (cfg : Config)

def openFile (file : Text) : Input := { chars := file, good := true, numberOfLines := 0 }

section Send

/-- `GenericSend` of a string -/
def sendString (data : Text) : Text := bytesText (encode 8 data.length) ++ data

/-- `GenericSend` of a container -/
def sendDataContainer (c : DataContainer Double) : Except Fault Text := do
  let vs ← c.readElements c.size 0
  return bytesText (encode 8 c.size) ++ vs.flatMap fun v => bytesText (encode 8 v.toNat)

def exportData (settings : DataSettings) (c : DataContainer Double) : Except Fault Text :=
  if settings.mUseFileSerializer && settings.alwaysUseSerializer then do
    let items ← c.saveObject cfg
    throwing (writeAll cfg items)
  else if settings.alwaysUseSerializer then do
    let items ← c.saveObject cfg
    let data ← throwing (writeAll cfg items)
    return sendString data
  else sendDataContainer c

end Send

section Receive

/-- `GenericReceive` of a string -/
def receiveString (file : Text) : Text :=
  let size := (openFile file).readNat 8 cfg.uninitialized.toNat
  let data := size.2.readBytes size.1
  data.1 ++ (resize [] size.1).drop data.1.length

/-- The bytes that have been read over those of the elements -/
def copyBytes : (count i : Nat) → Text → DataContainer Double →
    Except Fault (DataContainer Double)
  | 0, _, _, c => .ok c
  | count + 1, i, bytes, c =>
    if bytes = [] then .ok c
    else do
      let old ← c.element i
      let v := decode ((bytes.take 8).map charByte ++ (encode 8 old.toNat).drop bytes.length)
      copyBytes count (i + 1) (bytes.drop 8) (c.set i (BitVec.ofNat 64 v))

variable (allocator : Allocator Double 8)

/-- `GenericReceive` of a container -/
def receiveDataContainer (file : Text) (c : DataContainer Double) :
    Except Fault (DataContainer Double) := do
  let sizeRead := (openFile file).readNat 8 cfg.uninitialized.toNat
  let c ← c.resize allocator sizeRead.1
  copyBytes sizeRead.1 0 (sizeRead.2.readBytes (sizeT (sizeRead.1 * 8))).1 c

def importData (settings : DataSettings) (file : Text) (c : DataContainer Double) :
    Except Fault (DataContainer Double) :=
  if settings.mUseFileSerializer && settings.alwaysUseSerializer then
    c.loadObject cfg allocator (openFile file)
  else if settings.alwaysUseSerializer then
    c.loadObject cfg allocator (streamSerializer (receiveString cfg file))
  else receiveDataContainer cfg allocator file c

end Receive

end FileCommunication

end CoSimIO
