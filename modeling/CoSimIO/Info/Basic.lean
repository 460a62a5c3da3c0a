import CoSimIO.Library.OrderedMap
import CoSimIO.Serializer.Stream
import Mathlib.Data.Char
import Mathlib.Data.List.Lex

/-! # `Info`

The values are objects that the shared pointers of a map point to. The copies of an `Info` share
them, and no function of it changes one.
-/

namespace CoSimIO

open Serializer

set_option autoImplicit false

/-- `mOptions` in the order of its keys. The program only sets pointers that are not null. -/
abbrev Info : Type := List (Text × Option Nat)

/-- The types of `ValidateType`, apart from `Info` -/
inductive ScalarType
  | int
  | sizeT
  | double
  | bool
  | string
deriving DecidableEq

def ScalarType.kind : ScalarType → Serializer.Kind
  | .int => .integer .int
  | .sizeT => .integer .unsignedLong
  | .double => .double
  | .bool => .bool
  | .string => .string

/-- The objects of the classes `InfoDataBase` and `InfoData` -/
inductive InfoData
  | base
  | scalar (type : ScalarType) (mData : type.kind.Carrier)
  | info (mData : Info)

/-- References are never used twice. -/
structure InfoHeap where
  data : Nat → InfoData
  next : Nat

namespace InfoHeap

variable (heap : InfoHeap)

/-- `new` and `make_shared` -/
def add (data : InfoData) : Nat × InfoHeap :=
  (heap.next, ⟨fun ref => if ref = heap.next then data else heap.data ref, heap.next + 1⟩)

def set (ref : Nat) (data : InfoData) : InfoHeap :=
  { heap with data := fun r => if r = ref then data else heap.data r }

@[simp] theorem add_fst (data : InfoData) : (heap.add data).1 = heap.next := rfl

@[simp] theorem add_next (data : InfoData) : (heap.add data).2.next = heap.next + 1 := rfl

@[simp] theorem add_data_self (data : InfoData) : (heap.add data).2.data heap.next = data :=
  if_pos rfl

@[simp] theorem set_next (ref : Nat) (data : InfoData) : (heap.set ref data).next = heap.next := rfl

@[simp] theorem set_data_self (ref : Nat) (data : InfoData) : (heap.set ref data).data ref = data :=
  if_pos rfl

variable {heap} {ref r : Nat} (data : InfoData)

theorem add_data_of_lt (h : r < heap.next) : (heap.add data).2.data r = heap.data r :=
  if_neg (Nat.ne_of_lt h)

theorem set_data_of_ne (h : r ≠ ref) : (heap.set ref data).data r = heap.data r := if_neg h

end InfoHeap

namespace Info

/-- `Get<Info>` one key after the other. Without such an `Info` it throws. -/
def select (heap : InfoHeap) (info : Info) : List Text → Option Info
  | [] => some info
  | key :: path => match OrderedMap.find info key with
    | some (some ref) => match heap.data ref with
      | .info inner => select heap inner path
      | _ => none
    | _ => none

end Info

/-- The variables of a program that have the type `Info`, and the objects. -/
structure InfoState where
  heap : InfoHeap
  infos : Nat → Info

namespace InfoState

/-- The second variable of `setInfo` and `copy` is the argument, or the path leads from it to
the argument. -/
inductive Op
  | set (info : Nat) (key : Text) (type : ScalarType) (value : type.kind.Carrier)
  | setInfo (info : Nat) (key : Text) (source : Nat) (path : List Text)
  | erase (info : Nat) (key : Text)
  | clear (info : Nat)
  | copy (info : Nat) (source : Nat) (path : List Text)

variable (s : InfoState)

def assign (info : Nat) (value : Info) : InfoState :=
  { s with infos := fun i => if i = info then value else s.infos i }

/-- The pointer of a new entry -/
def setData (info : Nat) (key : Text) (data : InfoData) : InfoState :=
  ({ s with heap := (s.heap.add data).2 } : InfoState).assign info
    (OrderedMap.set key (some (s.heap.add data).1) (s.infos info))

def apply : Op → InfoState
  | .set info key type value => s.setData info key (.scalar type value)
  | .setInfo info key source path => match (s.infos source).select s.heap path with
    | some value => s.setData info key (.info value)
    | none => s
  | .erase info key => s.assign info (OrderedMap.erase key (s.infos info))
  | .clear info => s.assign info []
  | .copy info source path => match (s.infos source).select s.heap path with
    | some value => s.assign info value
    | none => s

def run (s : InfoState) : List Op → InfoState
  | [] => s
  | op :: ops => run (s.apply op) ops

/-- All variables are empty. -/
def start : InfoState := ⟨⟨fun _ => .base, 0⟩, fun _ => []⟩

end InfoState

end CoSimIO
