import CoSimIO.Library.Restore
import CoSimIO.Serializer.ReadBack

/-! # Pointers in `Serializer`

An object is written where its address is met for the first time, later only the address.
While loading, `mLoadedPointers` maps the addresses of the saved objects to the smart pointers
that were loaded for them, so it is of use only as long as these are alive.
-/

namespace CoSimIO.Serializer

open Restore Restore.Writer

set_option autoImplicit false

/-- The state is `mSavedPointers`. -/
abbrev Saver : Type := Restore.Writer Item (List (BitVec 64))

/-- The memory of a smart pointer. -/
inductive Slot
  | dead
  | live (content : Option Nat)

def Slot.content : Slot → Option Nat
  | .dead => none
  | .live content => content

/-- A smart pointer, or with `unique_ptr` the object itself. -/
inductive Loaded
  | slot (index : Nat)
  | object (ref : Nat)

structure Memory (H : Type) where
  loadedPointers : BitVec 64 → Option Loaded
  slots : Nat → Slot
  nextSlot : Nat
  heap : H

abbrev Loader (H α : Type) : Type := Reader Input (Memory H) Text α

variable {H α : Type}

namespace Memory

variable (m : Memory H)

def assign (slot : Nat) (content : Option Nat) : Memory H :=
  { m with slots := fun i => if i = slot then .live content else m.slots i }

def destroy (slot : Nat) : Memory H :=
  { m with slots := fun i => if i = slot then .dead else m.slots i }

def record (address : BitVec 64) (loaded : Loaded) : Memory H :=
  { m with loadedPointers := fun a => if a = address then some loaded else m.loadedPointers a }

/-- The pointer that a copy of what was loaded holds. Nothing is in a dead one. -/
def deref : Loaded → Option Nat
  | .slot index => (m.slots index).content
  | .object _ => none

def newSlots (contents : List (Option Nat)) : Memory H :=
  { m with
    slots := fun i => if i < m.nextSlot then m.slots i else
      match contents[i - m.nextSlot]? with
      | some content => .live content
      | none => m.slots i
    nextSlot := m.nextSlot + contents.length }

def contents : List Nat → Option (List Nat)
  | [] => some []
  | slot :: slots => do
    let ref ← (m.slots slot).content
    let refs ← contents slots
    return ref :: refs

/-- The pointer gets a new object when it is null. -/
def make (create : H → Nat × H) (slot : Nat) : Nat × Memory H :=
  match (m.slots slot).content with
  | some ref => (ref, m)
  | none =>
    let made := create m.heap
    (made.1, { m with heap := made.2 }.assign slot (some made.1))

end Memory

def startMemory (heap : H) : Memory H :=
  { loadedPointers := fun _ => none, slots := fun _ => .dead, nextSlot := 0, heap := heap }

def fail (message : Text) : Loader H α := fun _ => .error message

def getMemory : Loader H (Memory H) := fun s => .ok (s.2, s)

def setMemory (memory : Memory H) : Loader H Unit := fun s => .ok ((), s.1, memory)

variable (cfg : Config)

def readItem (k : Kind) (old : k.Carrier) : Loader H k.Carrier := fun s =>
  .ok ((read cfg k old s.1).1, (read cfg k old s.1).2, s.2)

def loadPoint (tag : Text) : Loader H Unit := fun s =>
  (loadTracePoint cfg tag s.1).map fun input => ((), input, s.2)

def loadItem (tag : Text) (k : Kind) (old : k.Carrier) : Loader H k.Carrier := do
  loadPoint cfg tag
  readItem cfg k old

def sizeItem (size : Nat) : Item :=
  ⟨.integer .unsignedLong, BitVec.ofNat 64 size⟩

def saveNull : Saver :=
  emit [⟨.pointerType, .invalidPointer⟩]

def pointerType (registered : Option Text) : PointerType :=
  if registered.isSome then .derivedClassPointer else .baseClassPointer

def nameItems : Option Text → List Item
  | some name => [⟨.string, name⟩]
  | none => []

def saveNew (tag : Text) (registered : Option Text) (content : Saver) : Saver :=
  (emit (nameItems registered)).andThen ((emit (tracePoint cfg tag)).andThen content)

/-- `save` of a pointer to an object of the type itself, or of a derived one with its
registered name -/
def savePointer (tag : Text) (registered : Option Text) (address : BitVec 64)
    (content : Saver) : Saver :=
  (emit [⟨.pointerType, pointerType registered⟩]).andThen
    ((emit [⟨.address, address⟩]).andThen fun saved =>
      if address ∈ saved then ([], saved)
      else saveNew cfg tag registered content (address :: saved))

def saveVector (tag : Text) (saveElement : α → Saver) (elements : List α) : Saver :=
  (emit (tracePoint cfg tag)).andThen
    ((emit (save cfg "size".toList (sizeItem elements.length))).andThen
      (each saveElement elements))

/-- The class of an object: `new`, the registered classes, and `load`. -/
structure Pointee (H : Type) where
  create : H → Nat × H
  registered : Text → Option (H → Nat × H)
  load : Nat → Loader H Unit

def unregisteredError (name : Text) : Text :=
  "There is no object registered in CoSimIO with name : ".toList ++ name ++ ['\n']

/-- How an object of the pointer type is created. -/
def prototype (create : α) (registered : Text → Option α) : PointerType → Loader H α
  | .derivedClassPointer => do
    let name ← readItem cfg .string []
    match registered name with
    | some create => pure create
    | none => fail (unregisteredError name)
  | _ => pure create

/-- The address was not met before. -/
def loadNew (tag : Text) (T : Pointee H) (slot : Nat) (type : PointerType)
    (address : BitVec 64) : Loader H Unit := do
  let create ← prototype cfg T.create T.registered type
  let memory ← getMemory
  let made := memory.make create slot
  setMemory (made.2.record address (.slot slot))
  loadPoint cfg tag
  T.load made.1

/-- `load` of a `shared_ptr` or an `intrusive_ptr` -/
def loadPointer (tag : Text) (T : Pointee H) (slot : Nat) : Loader H Unit := do
  let type ← readItem cfg .pointerType .invalidPointer
  if type = .invalidPointer then pure () else do
    let address ← readItem cfg .address cfg.uninitialized
    let memory ← getMemory
    match memory.loadedPointers address with
    | some loaded => setMemory (memory.assign slot (memory.deref loaded))
    | none => loadNew cfg tag T slot type address

def secondOwner : Text := "second owner\n".toList

def loadNewUnique (tag : Text) (create : Loader H (Nat × α))
    (registered : Text → Option (Loader H (Nat × α))) (load : α → Loader H α)
    (old : Option (Nat × α)) (type : PointerType) (address : BitVec 64) :
    Loader H (Option (Nat × α)) := do
  let create ← prototype cfg create registered type
  let owned ← old.elim create pure
  let memory ← getMemory
  setMemory (memory.record address (.object owned.1))
  loadPoint cfg tag
  let value ← load owned.2
  return some (owned.1, value)

/-- `load` of a `unique_ptr`. An object with a second owner is undefined behaviour, the model
stops there. -/
def loadUnique (tag : Text) (create : Loader H (Nat × α))
    (registered : Text → Option (Loader H (Nat × α))) (load : α → Loader H α)
    (old : Option (Nat × α)) : Loader H (Option (Nat × α)) := do
  let type ← readItem cfg .pointerType .invalidPointer
  if type = .invalidPointer then pure old else do
    let address ← readItem cfg .address cfg.uninitialized
    let memory ← getMemory
    match memory.loadedPointers address with
    | some _ => fail secondOwner
    | none => loadNewUnique cfg tag create registered load old type address

def nullPointer : Text := "null pointer\n".toList

/-- The pointers of a vector. No vector of the program holds a null pointer, the model stops
there. -/
def contents (slots : List Nat) : Loader H (List Nat) := do
  let memory ← getMemory
  match memory.contents slots with
  | some refs => pure refs
  | none => fail nullPointer

def loadPointerVector (tag : Text) (loadElement : Nat → Loader H Unit) (old : List Nat) :
    Loader H (List Nat) := do
  loadPoint cfg tag
  let size ← loadItem cfg "size".toList (.integer .unsignedLong) cfg.uninitialized
  let memory ← getMemory
  let kept := (old.map some).take size.toNat
  setMemory (memory.newSlots (kept ++ List.replicate (size.toNat - old.length) none))
  let slots := List.range' memory.nextSlot size.toNat
  slots.foldlM (fun _ slot => loadElement slot) ()
  contents slots

end CoSimIO.Serializer
