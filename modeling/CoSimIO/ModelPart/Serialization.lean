import CoSimIO.ModelPart.Basic
import CoSimIO.Serializer.Pointers

/-! # `save` and `load` of nodes, elements and model parts -/

namespace CoSimIO

open Restore Restore.Writer Sequences Serializer

set_option autoImplicit false

variable (cfg : Config)

/-- The objects of a `ModelPart` that a pointer can point to. -/
inductive Object
  | node (ref : Nat)
  | element (ref : Nat)
  | modelPart (ref : Nat)
deriving DecidableEq

def idItem (id : Int64) : Item := ⟨.integer .long, id.toBitVec⟩

def Node.save (node : Node) : List Item :=
  Serializer.save cfg "mId".toList (idItem node.id) ++
    Serializer.save cfg "mX".toList ⟨.double, node.x⟩ ++
    Serializer.save cfg "mY".toList ⟨.double, node.y⟩ ++
    Serializer.save cfg "mZ".toList ⟨.double, node.z⟩

/-- `static_cast<int>` -/
def ElementType.code (type : ElementType) : BitVec 32 :=
  BitVec.ofNat 32 type.ctorIdx

def ElementType.ofCode (code : BitVec 32) : Option ElementType :=
  if code.toNat < 25 then some (.ofNat code.toNat) else none

theorem ElementType.ofCode_code (type : ElementType) : ofCode type.code = some type := by
  cases type <;> rfl

namespace Heap

variable (heap : Heap)

def setNode (ref : Nat) (node : Node) : Heap :=
  { heap with nodes := fun r => if r = ref then node else heap.nodes r }

def setElement (ref : Nat) (element : Element) : Heap :=
  { heap with elements := fun r => if r = ref then element else heap.elements r }

end Heap

section Save

variable (heap : Heap) (layout : Object → BitVec 64)

def saveNodePointer (ref : Nat) : Saver :=
  savePointer cfg "E".toList none (layout (.node ref)) (emit ((heap.nodes ref).save cfg))

def Element.save (element : Element) : Saver :=
  (emit (Serializer.save cfg "mId".toList (idItem element.id))).andThen
    ((emit (Serializer.save cfg "mType".toList ⟨.integer .int, element.type.code⟩)).andThen
      (saveVector cfg "mNodes".toList (saveNodePointer cfg heap layout) element.nodes))

def saveElementPointer (ref : Nat) : Saver :=
  savePointer cfg "E".toList none (layout (.element ref))
    ((heap.elements ref).save cfg heap layout)

def IndexedVector.save (tag : Text) (saveElement : Nat → Saver) (v : IndexedVector) : Saver :=
  (emit (tracePoint cfg tag)).andThen (saveVector cfg "mData".toList saveElement v.data)

namespace ModelPart

mutual

def save : ModelPart → Saver
  | ⟨name, nodes, elements, localPart, ghostPart, partitions⟩ =>
    (emit (Serializer.save cfg "mName".toList ⟨.string, name⟩)).andThen
      ((nodes.save cfg "mNodes".toList (saveNodePointer cfg heap layout)).andThen
        ((elements.save cfg "mElements".toList (saveElementPointer cfg heap layout)).andThen
          ((saveOwned "mpLocalModelPart".toList localPart).andThen
            ((saveOwned "mpGhostModelPart".toList ghostPart).andThen
              ((emit (tracePoint cfg "mPartitionModelParts".toList)).andThen
                ((emit (Serializer.save cfg "size".toList (sizeItem partitions.length))).andThen
                  (saveEntries partitions)))))))

def saveOwned (tag : Text) : Option (Nat × ModelPart) → Saver
  | none => saveNull
  | some (owner, part) =>
    savePointer cfg tag none (layout (.modelPart owner)) part.save

def saveEntries : List (Int32 × Nat × ModelPart) → Saver
  | [] => emit []
  | (partitionIndex, owner, part) :: entries =>
    (emit (tracePoint cfg "E".toList)).andThen
      ((emit (Serializer.save cfg "First".toList ⟨.integer .int, partitionIndex.toBitVec⟩)).andThen
        ((savePointer cfg "Second".toList none (layout (.modelPart owner)) part.save).andThen
          (saveEntries entries)))

end

end ModelPart

end Save

section Load

def Node.load (ref : Nat) : Loader Heap Unit := do
  let memory ← getMemory
  let old := memory.heap.nodes ref
  let id ← loadItem cfg "mId".toList (.integer .long) old.id.toBitVec
  let x ← loadItem cfg "mX".toList .double old.x
  let y ← loadItem cfg "mY".toList .double old.y
  let z ← loadItem cfg "mZ".toList .double old.z
  let memory ← getMemory
  setMemory { memory with heap := memory.heap.setNode ref ⟨.ofBitVec id, x, y, z⟩ }

def uninitializedNode : Node :=
  ⟨.ofBitVec cfg.uninitialized, cfg.uninitialized, cfg.uninitialized, cfg.uninitialized⟩

def nodePointee : Pointee Heap where
  create heap := (heap.nextNode, heap.addNode (uninitializedNode cfg))
  registered _ := none
  load := Node.load cfg

def elementTypeError : Text := "not an ElementType\n".toList

/-- An integer that is no enumerator is none of the values of the model, which stops there. -/
def Element.load (ref : Nat) : Loader Heap Unit := do
  let memory ← getMemory
  let old := memory.heap.elements ref
  let id ← loadItem cfg "mId".toList (.integer .long) old.id.toBitVec
  let code ← loadItem cfg "mType".toList (.integer .int) (cfg.uninitialized.setWidth 32)
  match ElementType.ofCode code with
  | none => fail elementTypeError
  | some type => do
    let nodes ← loadPointerVector cfg "mNodes".toList
      (loadPointer cfg "E".toList (nodePointee cfg)) old.nodes
    let memory ← getMemory
    setMemory { memory with
      heap := memory.heap.setElement ref ⟨.ofBitVec id, type, nodes⟩ }

def elementPointee : Pointee Heap where
  create heap :=
    (heap.nextElement, heap.addElement ⟨.ofBitVec cfg.uninitialized, .point2D, []⟩)
  registered _ := none
  load := Element.load cfg

/-- `ComputeAccessMap` follows the loop over the data. -/
def IndexedVector.load (tag : Text) (T : Pointee Heap) (idOf : Heap → Nat → Int64)
    (old : IndexedVector) : Loader Heap IndexedVector := do
  loadPoint cfg tag
  let data ← loadPointerVector cfg "mData".toList (loadPointer cfg "E".toList T) old.data
  let memory ← getMemory
  return ⟨data, buildIndex (idOf memory.heap) (fun _ => none) 0 data⟩

namespace ModelPart

def createDefault : Loader Heap (Nat × ModelPart) := do
  let memory ← getMemory
  let owner := memory.heap.nextModelPart
  setMemory { memory with heap := { memory.heap with nextModelPart := owner + 1 } }
  return (owner, internal [])

def loadOwned (load : ModelPart → Loader Heap ModelPart) (tag : Text)
    (old : Option (Nat × ModelPart)) : Loader Heap (Option (Nat × ModelPart)) :=
  loadUnique cfg tag createDefault (fun _ => none) load old

/-- One pass of the loop over the partition parts. A null pointer is not in the program's
maps, the model stops there. -/
def loadEntry (rehash : Rehash) (load : ModelPart → Loader Heap ModelPart)
    (entries : List (Int32 × Nat × ModelPart)) :
    Loader Heap (List (Int32 × Nat × ModelPart)) := do
  loadPoint cfg "E".toList
  let key ← loadItem cfg "First".toList (.integer .int) 0
  let owned ← loadOwned cfg load "Second".toList none
  match owned with
  | none => fail nullPointer
  | some owned =>
    if entries.any fun entry => entry.1 = .ofBitVec key then return entries
    else return rehash.order (entries ++ [(.ofBitVec key, owned)])

def depthError : Text := "depth\n".toList

/-- The calls of `load` for parts inside parts are bounded by `depth`. -/
def load (rehash : Rehash) : Nat → ModelPart → Loader Heap ModelPart
  | 0, _ => fail depthError
  | depth + 1, old => do
    let name ← loadItem cfg "mName".toList .string old.name
    let nodes ← old.nodes.load cfg "mNodes".toList (nodePointee cfg) Heap.nodeId
    let elements ← old.elements.load cfg "mElements".toList (elementPointee cfg) Heap.elementId
    let localPart ← loadOwned cfg (load rehash depth) "mpLocalModelPart".toList
      old.localModelPart
    let ghostPart ← loadOwned cfg (load rehash depth) "mpGhostModelPart".toList
      old.ghostModelPart
    loadPoint cfg "mPartitionModelParts".toList
    let size ← loadItem cfg "size".toList (.integer .unsignedLong)
      (BitVec.ofNat 64 old.partitionModelParts.length)
    let partitions ← (List.range size.toNat).foldlM
      (fun entries _ => loadEntry cfg rehash (load rehash depth) entries)
      old.partitionModelParts
    return ⟨name, nodes, elements, localPart, ghostPart, partitions⟩

end ModelPart

end Load

namespace ModelPart

/-- `serializer.save("object", part)` -/
def saveObject (layout : Object → BitVec 64) (s : State) : List Item :=
  tracePoint cfg "object".toList ++ (s.part.save cfg s.heap layout []).1

/-- `serializer.load("object", part)` -/
def loadObject (rehash : Rehash) (depth : Nat) (target : State) (data : Text) :
    Except Text State := do
  let loaded ← (do
    loadPoint cfg "object".toList
    load cfg rehash depth target.part : Loader Heap ModelPart)
      (streamSerializer data, startMemory target.heap)
  return ⟨loaded.2.2.heap, loaded.1⟩

end ModelPart

end CoSimIO
