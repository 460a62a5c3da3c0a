import CoSimIO.Info.Basic
import CoSimIO.Serializer.Pointers

/-! # `save` and `load` of an `Info` -/

namespace CoSimIO

open Restore Restore.Writer Serializer

set_option autoImplicit false

variable (cfg : Config)

/-- `RegisterTypesInSerializer` -/
def ScalarType.registeredName : ScalarType → Text
  | .int => "info_data_int".toList
  | .sizeT => "info_data_size_t".toList
  | .double => "info_data_double".toList
  | .bool => "info_data_bool".toList
  | .string => "info_data_string".toList

def InfoData.registeredName : InfoData → Option Text
  | .base => none
  | .scalar type _ => some type.registeredName
  | .info _ => some "info_data_info".toList

/-- What `InfoData()` leaves in `mData` -/
def ScalarType.uninitialized : (type : ScalarType) → type.kind.Carrier
  | .int => cfg.uninitialized.setWidth 32
  | .sizeT => cfg.uninitialized
  | .double => cfg.uninitialized
  | .bool => decide (cfg.uninitialized ≠ 0)
  | .string => []

def ScalarType.prototype (type : ScalarType) : Text × InfoData :=
  (type.registeredName, .scalar type (type.uninitialized cfg))

def InfoData.prototypes : List (Text × InfoData) :=
  [ScalarType.int.prototype cfg, ScalarType.sizeT.prototype cfg, ScalarType.double.prototype cfg,
    ScalarType.bool.prototype cfg, ScalarType.string.prototype cfg,
    ("info_data_info".toList, .info [])]

section Save

variable (heap : InfoHeap) (layout : Nat → BitVec 64)

def InfoData.save (saveInfo : Info → Saver) : InfoData → Saver
  | .base => emit []
  | .scalar type mData =>
    (emit (tracePoint cfg "BaseClass".toList)).andThen
      (emit (Serializer.save cfg "mData".toList ⟨type.kind, mData⟩))
  | .info mData =>
    (emit (tracePoint cfg "BaseClass".toList)).andThen
      ((emit (tracePoint cfg "mData".toList)).andThen (saveInfo mData))

def Info.saveData (saveInfo : Info → Saver) : Option Nat → Saver
  | none => saveNull
  | some ref => savePointer cfg "Second".toList (heap.data ref).registeredName (layout ref)
      ((heap.data ref).save cfg saveInfo)

def Info.saveEntry (saveInfo : Info → Saver) (entry : Text × Option Nat) : Saver :=
  (emit (tracePoint cfg "E".toList)).andThen
    ((emit (Serializer.save cfg "First".toList ⟨.string, entry.1⟩)).andThen
      (Info.saveData cfg heap layout saveInfo entry.2))

/-- The calls of `save` for infos inside infos are bounded by `depth`. -/
def Info.save : Nat → Info → Saver
  | 0, _ => emit []
  | depth + 1, info =>
    (emit (tracePoint cfg "mOptions".toList)).andThen
      ((emit (Serializer.save cfg "size".toList (sizeItem info.length))).andThen
        (each (Info.saveEntry cfg heap layout (Info.save depth)) info))

end Save

section Load

def setData (ref : Nat) (data : InfoData) : Loader InfoHeap Unit := do
  let memory ← getMemory
  setMemory { memory with heap := memory.heap.set ref data }

/-- The class of the object decides which `load` is called. -/
def InfoData.load (loadInfo : Info → Loader InfoHeap Info) (ref : Nat) :
    Loader InfoHeap Unit := do
  let memory ← getMemory
  match memory.heap.data ref with
  | .base => pure ()
  | .scalar type old => do
    loadPoint cfg "BaseClass".toList
    let mData ← loadItem cfg "mData".toList type.kind old
    setData ref (.scalar type mData)
  | .info old => do
    loadPoint cfg "BaseClass".toList
    loadPoint cfg "mData".toList
    let mData ← loadInfo old
    setData ref (.info mData)

def InfoData.pointee (loadInfo : Info → Loader InfoHeap Info) : Pointee InfoHeap where
  create heap := heap.add .base
  registered name := ((InfoData.prototypes cfg).lookup name).map fun data heap => heap.add data
  load := InfoData.load cfg loadInfo

/-- One pass of the loop of `load_map`. The entry is moved from the local variable into the map,
then this ceases to exist. -/
def Info.loadEntry (loadInfo : Info → Loader InfoHeap Info) (info : Info) :
    Loader InfoHeap Info := do
  loadPoint cfg "E".toList
  let key ← loadItem cfg "First".toList .string []
  let memory ← getMemory
  let slot := memory.nextSlot
  setMemory (memory.newSlots [none])
  loadPointer cfg "Second".toList (InfoData.pointee cfg loadInfo) slot
  let memory ← getMemory
  setMemory (memory.destroy slot)
  return OrderedMap.insert key (memory.slots slot).content info

def Info.depthError : Text := "depth\n".toList

def Info.load : Nat → Info → Loader InfoHeap Info
  | 0, _ => fail depthError
  | depth + 1, old => do
    loadPoint cfg "mOptions".toList
    let size ← loadItem cfg "size".toList (.integer .unsignedLong) (BitVec.ofNat 64 old.length)
    (List.range size.toNat).foldlM (fun info _ => Info.loadEntry cfg (Info.load depth) info) old

end Load

/-- `serializer.save("info", info)` -/
def Info.saveObject (heap : InfoHeap) (layout : Nat → BitVec 64) (depth : Nat) (info : Info) :
    List Item :=
  tracePoint cfg "info".toList ++ (Info.save cfg heap layout depth info []).1

/-- `serializer.load("info", info)` for an empty `info` -/
def Info.loadObject (depth : Nat) (heap : InfoHeap) (data : Text) :
    Except Text (InfoHeap × Info) := do
  let loaded ← (do
    loadPoint cfg "info".toList
    Info.load cfg depth [] : Loader InfoHeap Info) (streamSerializer data, startMemory heap)
  return (loaded.2.2.heap, loaded.1)

end CoSimIO
