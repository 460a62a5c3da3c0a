import CoSimIO.Library.Sequences
import CoSimIO.Serializer.Stream

/-! # `Node`, `Element` and `ModelPart`

Nodes and elements are objects of the heap that pointers share. The local, the ghost and the
partition parts belong to one `unique_ptr` each, so they are values, together with the identity
of the object. An operation gives the next state and what it throws.
-/

namespace CoSimIO

open Sequences

set_option autoImplicit false

abbrev Outcome : Type := Except Text Unit

/-- The coordinates are bits of doubles. -/
structure Node where
  id : Int64
  x : BitVec 64
  y : BitVec 64
  z : BitVec 64
deriving DecidableEq

inductive ElementType
  | hexahedra3D20
  | hexahedra3D27
  | hexahedra3D8
  | prism3D15
  | prism3D6
  | pyramid3D13
  | pyramid3D5
  | quadrilateral2D4
  | quadrilateral2D8
  | quadrilateral2D9
  | quadrilateral3D4
  | quadrilateral3D8
  | quadrilateral3D9
  | tetrahedra3D10
  | tetrahedra3D4
  | triangle2D3
  | triangle2D6
  | triangle3D3
  | triangle3D6
  | line2D2
  | line2D3
  | line3D2
  | line3D3
  | point2D
  | point3D
deriving DecidableEq

/-- `Utilities::GetNumberOfNodesForElementType` -/
def ElementType.numberOfNodes : ElementType → Nat
  | .hexahedra3D20 => 20
  | .hexahedra3D27 => 27
  | .hexahedra3D8 => 8
  | .prism3D15 => 15
  | .prism3D6 => 6
  | .pyramid3D13 => 13
  | .pyramid3D5 => 5
  | .quadrilateral2D4 => 4
  | .quadrilateral2D8 => 8
  | .quadrilateral2D9 => 9
  | .quadrilateral3D4 => 4
  | .quadrilateral3D8 => 8
  | .quadrilateral3D9 => 9
  | .tetrahedra3D10 => 10
  | .tetrahedra3D4 => 4
  | .triangle2D3 => 3
  | .triangle2D6 => 6
  | .triangle3D3 => 3
  | .triangle3D6 => 6
  | .line2D2 => 2
  | .line2D3 => 3
  | .line3D2 => 2
  | .line3D3 => 3
  | .point2D => 1
  | .point3D => 1

/-- The nodes are references into the heap. -/
structure Element where
  id : Int64
  type : ElementType
  nodes : List Nat
deriving DecidableEq

/-- References are never used twice. -/
structure Heap where
  nodes : Nat → Node
  elements : Nat → Element
  nextNode : Nat
  nextElement : Nat
  nextModelPart : Nat

namespace Heap

variable (heap : Heap)

/-- The new node is at `nextNode`. -/
def addNode (node : Node) : Heap :=
  { heap with
    nodes := fun ref => if ref = heap.nextNode then node else heap.nodes ref
    nextNode := heap.nextNode + 1 }

def addElement (element : Element) : Heap :=
  { heap with
    elements := fun ref => if ref = heap.nextElement then element else heap.elements ref
    nextElement := heap.nextElement + 1 }

def nodeId (heap : Heap) (ref : Nat) : Int64 := (heap.nodes ref).id

def elementId (heap : Heap) (ref : Nat) : Int64 := (heap.elements ref).id

end Heap

/-- `Internals::IndexedVector` of references -/
structure IndexedVector where
  data : List Nat
  accessMap : Int64 → Option Nat

namespace IndexedVector

def empty : IndexedVector := ⟨[], fun _ => none⟩

def contains (v : IndexedVector) (id : Int64) : Bool := (v.accessMap id).isSome

def find (v : IndexedVector) (id : Int64) : Option Nat :=
  (v.accessMap id).bind fun i => v.data[i]?

def pushBack (v : IndexedVector) (ref : Nat) (id : Int64) : IndexedVector :=
  let data := v.data ++ [ref]
  ⟨data, setIndex v.accessMap id (data.length - 1)⟩

end IndexedVector

structure ModelPart where
  name : Text
  nodes : IndexedVector
  elements : IndexedVector
  localModelPart : Option (Nat × ModelPart)
  ghostModelPart : Option (Nat × ModelPart)
  partitionModelParts : List (Int32 × Nat × ModelPart)

/-- The iteration order of `mPartitionModelParts` after an insertion. -/
structure Rehash where
  order : List (Int32 × Nat × ModelPart) → List (Int32 × Nat × ModelPart)
  perm : ∀ parts, (order parts).Perm parts

structure ModelPart.State where
  heap : Heap
  part : ModelPart

def idText (id : Int64) : Text := Serializer.integerText id.toInt

def idError : Text := "Id must be >= 1!\n".toList

def Node.new (id : Int64) (x y z : BitVec 64) : Except Text Node :=
  if id < 1 then .error idError else .ok ⟨id, x, y, z⟩

def noNodesError : Text := "No nodes were passed!\n".toList

def numberOfNodesError (given expected : Nat) : Text :=
  "Number of nodes (".toList ++ Nat.toDigits 10 given ++
    ") does not match expected number for element type (".toList ++
    Nat.toDigits 10 expected ++ ")!\n".toList

/-- The number of nodes is cast to `int` before the comparison. -/
def Element.new (id : Int64) (type : ElementType) (nodes : List Nat) : Except Text Element :=
  if id < 1 then .error idError
  else if nodes.length < 1 then .error noNodesError
  else if Int32.ofNat type.numberOfNodes ≠ Int32.ofNat nodes.length then
    .error (numberOfNodesError nodes.length type.numberOfNodes)
  else .ok ⟨id, type, nodes⟩

namespace ModelPart

def emptyNameError : Text :=
  "Please don't use empty names (\"\") when creating a ModelPart\n".toList

def dotNameError (name : Text) : Text :=
  "Please don't use names containing (\".\") when creating a ModelPart (used in \"".toList ++
    name ++ "\")\n".toList

def internal (name : Text) : ModelPart :=
  ⟨name, .empty, .empty, none, none, []⟩

def initializeInternalModelParts (heap : Heap) (part : ModelPart) : Heap × ModelPart :=
  ({ heap with nextModelPart := heap.nextModelPart + 2 },
    { part with
      localModelPart := some (heap.nextModelPart, internal "local".toList)
      ghostModelPart := some (heap.nextModelPart + 1, internal "ghost".toList) })

/-- The constructor that takes a name -/
def new (heap : Heap) (name : Text) : Except Text (Heap × ModelPart) :=
  if name = [] then .error emptyNameError
  else if '.' ∈ name then .error (dotNameError name)
  else .ok (initializeInternalModelParts heap (internal name))

def accessError : Text := "Internal ModelPart, access is not allowed!\n".toList

def nodeExistsError (id : Int64) : Text :=
  "The Node with Id ".toList ++ idText id ++ " exists already!\n".toList

def elementExistsError (id : Int64) : Text :=
  "The Element with Id ".toList ++ idText id ++ " exists already!\n".toList

def nodeMissingError (id : Int64) : Text :=
  "Node with Id ".toList ++ idText id ++ " does not exist!\n".toList

def elementMissingError (id : Int64) : Text :=
  "Element with Id ".toList ++ idText id ++ " does not exist!\n".toList

def partitionIndexError : Text := "PartitionIndex must be >= 0!\n".toList

def pGetNode (part : ModelPart) (id : Int64) : Except Text Nat :=
  match part.nodes.find id with
  | some ref => .ok ref
  | none => .error (nodeMissingError id)

def pGetElement (part : ModelPart) (id : Int64) : Except Text Nat :=
  match part.elements.find id with
  | some ref => .ok ref
  | none => .error (elementMissingError id)

def pushNode (ref : Nat) (id : Int64) (part : ModelPart) : ModelPart :=
  { part with nodes := part.nodes.pushBack ref id }

def pushElement (ref : Nat) (id : Int64) (part : ModelPart) : ModelPart :=
  { part with elements := part.elements.pushBack ref id }

variable (s : State)

def createNewNode (id : Int64) (x y z : BitVec 64) : State × Outcome :=
  if s.part.nodes.contains id then (s, .error (nodeExistsError id))
  else match Node.new id x y z with
    | .error message => (s, .error message)
    | .ok node =>
      let ref := s.heap.nextNode
      let heap := s.heap.addNode node
      let part := pushNode ref id s.part
      match part.localModelPart with
      | none => (⟨heap, part⟩, .error accessError)
      | some (owner, localPart) =>
        (⟨heap, { part with localModelPart := some (owner, pushNode ref id localPart) }⟩, .ok ())

/-- A missing part is created. -/
def getPartitionModelPart (rehash : Rehash) (partitionIndex : Int32) : State × Outcome :=
  if s.part.partitionModelParts.any fun entry => entry.1 = partitionIndex then (s, .ok ())
  else
    let owner := s.heap.nextModelPart
    match new { s.heap with nextModelPart := owner + 1 }
        (Serializer.integerText partitionIndex.toInt) with
    | .error message => (s, .error message)
    | .ok (heap, part) =>
      let parts := rehash.order (s.part.partitionModelParts ++ [(partitionIndex, owner, part)])
      (⟨heap, { s.part with partitionModelParts := parts }⟩, .ok ())

def pushPartitionNode (partitionIndex : Int32) (ref : Nat) (id : Int64)
    (entry : Int32 × Nat × ModelPart) : Int32 × Nat × ModelPart :=
  if entry.1 = partitionIndex then (entry.1, entry.2.1, pushNode ref id entry.2.2) else entry

def createNewGhostNode (rehash : Rehash) (id : Int64) (x y z : BitVec 64)
    (partitionIndex : Int32) : State × Outcome :=
  if s.part.nodes.contains id then (s, .error (nodeExistsError id))
  else if partitionIndex < 0 then (s, .error partitionIndexError)
  else match Node.new id x y z with
    | .error message => (s, .error message)
    | .ok node =>
      let ref := s.heap.nextNode
      let heap := s.heap.addNode node
      let part := pushNode ref id s.part
      match part.ghostModelPart with
      | none => (⟨heap, part⟩, .error accessError)
      | some (owner, ghostPart) =>
        let part := { part with ghostModelPart := some (owner, pushNode ref id ghostPart) }
        match getPartitionModelPart ⟨heap, part⟩ rehash partitionIndex with
        | (s', .error message) => (s', .error message)
        | (s', .ok ()) =>
          let parts := s'.part.partitionModelParts.map (pushPartitionNode partitionIndex ref id)
          (⟨s'.heap, { s'.part with partitionModelParts := parts }⟩, .ok ())

def nodesOf (part : ModelPart) : List Int64 → Except Text (List Nat)
  | [] => .ok []
  | id :: ids => do
    let ref ← pGetNode part id
    let refs ← nodesOf part ids
    return ref :: refs

def createNewElement (id : Int64) (type : ElementType) (connectivities : List Int64) :
    State × Outcome :=
  if s.part.elements.contains id then (s, .error (elementExistsError id))
  else match nodesOf s.part connectivities with
    | .error message => (s, .error message)
    | .ok nodes => match Element.new id type nodes with
      | .error message => (s, .error message)
      | .ok element =>
        let ref := s.heap.nextElement
        let heap := s.heap.addElement element
        let part := pushElement ref id s.part
        match part.localModelPart with
        | none => (⟨heap, part⟩, .error accessError)
        | some (owner, localPart) =>
          (⟨heap, { part with localModelPart := some (owner, pushElement ref id localPart) }⟩,
            .ok ())

def clear : State :=
  let initialized := initializeInternalModelParts s.heap s.part
  ⟨initialized.1, { initialized.2 with
    nodes := .empty, elements := .empty, partitionModelParts := [] }⟩

structure NodeData where
  id : Int64
  x : BitVec 64
  y : BitVec 64
  z : BitVec 64

theorem numberOfNodes_lt (type : ElementType) : type.numberOfNodes < 2 ^ 64 := by
  cases type <;> decide

/-- The creation of one entity. The size of the connectivities is a `std::size_t`. -/
inductive Creation
  | node (data : NodeData)
  | ghostNode (data : NodeData) (partitionIndex : Int32) (rehash : Rehash)
  | element (id : Int64) (type : ElementType) (connectivities : List Int64)
      (size : connectivities.length < 2 ^ 64)

def create : Creation → State × Outcome
  | .node data => createNewNode s data.id data.x data.y data.z
  | .ghostNode data partitionIndex rehash =>
    createNewGhostNode s rehash data.id data.x data.y data.z partitionIndex
  | .element id type connectivities _ => createNewElement s id type connectivities

/-- The first exception ends the loop. -/
def createEach (s : State) : List Creation → State × Outcome
  | [] => (s, .ok ())
  | creation :: creations => match create s creation with
    | (s', .ok ()) => createEach s' creations
    | (s', .error message) => (s', .error message)

/-- The loop runs when the checks before it have passed. -/
def createAll : Except Text (List Creation) → State × Outcome
  | .ok creations => createEach s creations
  | .error message => (s, .error message)

def sizeError (what : Text) : Text := "Wrong number of ".toList ++ what ++ "!\n".toList

def nodeData : List Int64 → List (BitVec 64) → List (BitVec 64) → List (BitVec 64) →
    List NodeData
  | id :: ids, x :: xs, y :: ys, z :: zs => ⟨id, x, y, z⟩ :: nodeData ids xs ys zs
  | _, _, _, _ => []

def newNodes (ids : List Int64) (xs ys zs : List (BitVec 64)) :
    Except Text (List Creation) :=
  if ids.length ≠ xs.length then .error (sizeError "X-Coordinates".toList)
  else if ids.length ≠ ys.length then .error (sizeError "Y-Coordinates".toList)
  else if ids.length ≠ zs.length then .error (sizeError "Z-Coordinates".toList)
  else if s.part.localModelPart.isNone then .error accessError
  else .ok ((nodeData ids xs ys zs).map .node)

def createNewNodes (ids : List Int64) (xs ys zs : List (BitVec 64)) : State × Outcome :=
  createAll s (newNodes s ids xs ys zs)

def newGhostNodes (ids : List Int64) (xs ys zs : List (BitVec 64))
    (partitionIndices : List (Int32 × Rehash)) : Except Text (List Creation) :=
  if ids.length ≠ xs.length then .error (sizeError "X-Coordinates".toList)
  else if ids.length ≠ ys.length then .error (sizeError "Y-Coordinates".toList)
  else if ids.length ≠ zs.length then .error (sizeError "Z-Coordinates".toList)
  else if ids.length ≠ partitionIndices.length then
    .error (sizeError "partition indices".toList)
  else if s.part.ghostModelPart.isNone then .error accessError
  else .ok (((nodeData ids xs ys zs).zip partitionIndices).map fun (data, index, rehash) =>
    .ghostNode data index rehash)

def createNewGhostNodes (ids : List Int64) (xs ys zs : List (BitVec 64))
    (partitionIndices : List (Int32 × Rehash)) : State × Outcome :=
  createAll s (newGhostNodes s ids xs ys zs partitionIndices)

/-- The slices of the connectivities for the elements. -/
def elementData : List Int64 → List ElementType → List Int64 → List Creation
  | id :: ids, type :: types, connectivities =>
    .element id type (connectivities.take type.numberOfNodes)
        (Nat.lt_of_le_of_lt (List.length_take_le _ _) (numberOfNodes_lt type)) ::
      elementData ids types (connectivities.drop type.numberOfNodes)
  | _, _, _ => []

def connectivitiesError (expected given : Nat) : Text :=
  "Wrong number of Connectivities! Expected: ".toList ++ Nat.toDigits 10 expected ++
    " but got ".toList ++ Nat.toDigits 10 given ++ ['\n']

def newElements (ids : List Int64) (types : List ElementType) (connectivities : List Int64) :
    Except Text (List Creation) :=
  let expected := (types.map ElementType.numberOfNodes).sum
  if ids.length ≠ types.length then .error (sizeError "Types".toList)
  else if expected ≠ connectivities.length then
    .error (connectivitiesError expected connectivities.length)
  else if s.part.localModelPart.isNone then .error accessError
  else .ok (elementData ids types connectivities)

def createNewElements (ids : List Int64) (types : List ElementType)
    (connectivities : List Int64) : State × Outcome :=
  createAll s (newElements s ids types connectivities)

inductive Op
  | create (creation : Creation)
  | createNewNodes (ids : List Int64) (xs ys zs : List (BitVec 64))
  | createNewGhostNodes (ids : List Int64) (xs ys zs : List (BitVec 64))
      (partitionIndices : List (Int32 × Rehash))
  | createNewElements (ids : List Int64) (types : List ElementType)
      (connectivities : List Int64)
  | clear

def apply : Op → State × Outcome
  | .create creation => create s creation
  | .createNewNodes ids xs ys zs => createNewNodes s ids xs ys zs
  | .createNewGhostNodes ids xs ys zs partitionIndices =>
    createNewGhostNodes s ids xs ys zs partitionIndices
  | .createNewElements ids types connectivities => createNewElements s ids types connectivities
  | .clear => (clear s, .ok ())

def run (s : State) : List Op → State
  | [] => s
  | op :: ops => run (apply s op).1 ops

end ModelPart

end CoSimIO
