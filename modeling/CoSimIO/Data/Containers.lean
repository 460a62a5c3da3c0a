import CoSimIO.Basic
import CoSimIO.Library.Block

/-! # `DataContainer` and the derived containers -/

namespace CoSimIO

open Block

set_option autoImplicit false

/-- A call throws, or it leaves the memory it may use. -/
inductive Fault
  | error (message : Text)
  | outOfBounds
deriving DecidableEq

/-- A number of the type `std::size_t` -/
def sizeT (n : Nat) : Nat := n % 2 ^ 64

/-- `block` is what `*mppData` points to. -/
structure DataContainerRawMemory (α : Type) where
  block : List α
  mSize : Nat
  mCapacity : Nat
deriving DecidableEq

inductive DataContainer (α : Type)
  | stdVector (mrVector : List α)
  | stdVectorReadOnly (mrVector : List α)
  | rawMemory (memory : DataContainerRawMemory α)
  | rawMemoryReadOnly (block : List α) (mSize : Nat)
deriving DecidableEq

def reallocationError : Text := "Memory reallocation failed!".toList

def resizeError : Text := "Resizing of readonly object is not possible!\n".toList

def nonConstError : Text := "Using non-const member of readonly object!\n".toList

def loadError : Text := "Loading a readonly object is not possible!\n".toList

namespace DataContainerRawMemory

variable {α : Type} {sizeOf : Nat}

/-- The initial allocation starts from a null pointer, and the capacity is doubled at least. -/
def resize (allocator : Allocator α sizeOf) (m : DataContainerRawMemory α) (newSize : Nat) :
    Except Fault (DataContainerRawMemory α) :=
  if newSize > m.mCapacity then
    let block := if m.mCapacity = 0 then [] else m.block
    let capacity := max (sizeT (m.mCapacity * 2)) newSize
    match allocator.realloc block (sizeT (capacity * sizeOf)) with
    | some block => .ok ⟨block, newSize, capacity⟩
    | none => .error (.error reallocationError)
  else .ok { m with mSize := newSize }

/-- The container does not expect more memory than there is. -/
structure Valid (m : DataContainerRawMemory α) : Prop where
  size_le : m.mSize ≤ m.mCapacity
  capacity_le : m.mCapacity ≤ m.block.length

/-- What a resize leaves -/
structure Resized (m m' : DataContainerRawMemory α) (newSize : Nat) : Prop where
  valid : m'.Valid
  size_eq : m'.mSize = newSize
  capacity_le : m.mCapacity ≤ m'.mCapacity
  kept : ∀ i < min m.mSize newSize, m'.block[i]? = m.block[i]?

variable {allocator : Allocator α sizeOf} {m m' : DataContainerRawMemory α} {newSize : Nat}

theorem resize_of_le (h : newSize ≤ m.mCapacity) :
    m.resize allocator newSize = .ok { m with mSize := newSize } :=
  if_neg (Nat.not_lt.mpr h)

theorem resize_of_gt (h : newSize > m.mCapacity) : m.resize allocator newSize =
    match allocator.realloc (if m.mCapacity = 0 then [] else m.block)
      (sizeT (max (sizeT (m.mCapacity * 2)) newSize * sizeOf)) with
    | some block => .ok ⟨block, newSize, max (sizeT (m.mCapacity * 2)) newSize⟩
    | none => .error (.error reallocationError) :=
  if_pos h

theorem sizeT_of_lt {n : Nat} (h : n < 2 ^ 64) : sizeT n = n := Nat.mod_eq_of_lt h

theorem bytes_eq (hSizeOf : 0 < sizeOf) (hCapacity : m.mCapacity * 2 * sizeOf < 2 ^ 64)
    (hNew : newSize * sizeOf < 2 ^ 64) :
    sizeT (max (sizeT (m.mCapacity * 2)) newSize * sizeOf) =
      max (m.mCapacity * 2) newSize * sizeOf := by
  have hDouble : m.mCapacity * 2 ≤ m.mCapacity * 2 * sizeOf := Nat.le_mul_of_pos_right _ hSizeOf
  rw [sizeT_of_lt (Nat.lt_of_le_of_lt hDouble hCapacity), sizeT_of_lt]
  rw [Nat.max_def]
  split
  · exact hNew
  · exact hCapacity

theorem Valid.resized (h : m.Valid) (hSizeOf : 0 < sizeOf)
    (hCapacity : m.mCapacity * 2 * sizeOf < 2 ^ 64) (hNew : newSize * sizeOf < 2 ^ 64)
    (hResize : m.resize allocator newSize = .ok m') : m.Resized m' newSize := by
  have hSize := h.size_le
  have hRoom := h.capacity_le
  rcases Nat.lt_or_ge m.mCapacity newSize with hMore | hFits
  · rw [resize_of_gt hMore, bytes_eq hSizeOf hCapacity hNew] at hResize
    split at hResize
    next block hRealloc =>
      obtain rfl := Except.ok.inj hResize
      have hLength : block.length = max (m.mCapacity * 2) newSize := by
        rw [allocator.length_realloc hRealloc, Nat.mul_div_cancel _ hSizeOf]
      have hDouble : sizeT (m.mCapacity * 2) = m.mCapacity * 2 :=
        sizeT_of_lt (Nat.lt_of_le_of_lt (Nat.le_mul_of_pos_right _ hSizeOf) hCapacity)
      have hAll : max (sizeT (m.mCapacity * 2)) newSize = block.length := by
        rw [hDouble, hLength]
      have hMoreRoom : m.mCapacity ≤ max (sizeT (m.mCapacity * 2)) newSize := by omega
      refine ⟨⟨Nat.le_max_right _ _, Nat.le_of_eq hAll⟩, rfl, hMoreRoom, ?_⟩
      intro i hi
      have hOld : m.mCapacity ≠ 0 := by omega
      rw [if_neg hOld] at hRealloc
      have hKept : block[i]? = m.block[i]? := allocator.kept hRealloc (by omega) (by omega)
      exact hKept
    next hRealloc => nomatch hResize
  · rw [resize_of_le hFits] at hResize
    obtain rfl := Except.ok.inj hResize
    exact ⟨⟨hFits, hRoom⟩, rfl, Nat.le_refl _, fun _ _ => rfl⟩

theorem resize_ne_outOfBounds : m.resize allocator newSize ≠ .error .outOfBounds := by
  rcases Nat.lt_or_ge m.mCapacity newSize with hMore | hLe
  · rw [resize_of_gt hMore]
    split
    · nofun
    · nofun
  · rw [resize_of_le hLe]
    nofun

end DataContainerRawMemory

namespace DataContainer

variable {α : Type} {sizeOf : Nat}

def size : DataContainer α → Nat
  | .stdVector v | .stdVectorReadOnly v => v.length
  | .rawMemory m => m.mSize
  | .rawMemoryReadOnly _ size => size

def resize [Inhabited α] (allocator : Allocator α sizeOf) :
    DataContainer α → Nat → Except Fault (DataContainer α)
  | .stdVector v, newSize =>
    .ok (.stdVector (v.take newSize ++ List.replicate (newSize - v.length) default))
  | .rawMemory m, newSize => (m.resize allocator newSize).map .rawMemory
  | .stdVectorReadOnly _, _ | .rawMemoryReadOnly _ _, _ => .error (.error resizeError)

/-- The memory behind `data()` -/
def block : DataContainer α → List α
  | .stdVector v | .stdVectorReadOnly v => v
  | .rawMemory m => m.block
  | .rawMemoryReadOnly block _ => block

def withBlock : DataContainer α → List α → DataContainer α
  | .stdVector _, block => .stdVector block
  | .rawMemory m, block => .rawMemory { m with block := block }
  | c, _ => c

/-- `operator[]` of a constant container -/
def get (c : DataContainer α) (i : Nat) : Except Fault α :=
  match c.block[i]? with
  | some v => .ok v
  | none => .error .outOfBounds

def ReadOnly : DataContainer α → Bool
  | .stdVector _ | .rawMemory _ => false
  | .stdVectorReadOnly _ | .rawMemoryReadOnly _ _ => true

/-- The element that `operator[]` refers to -/
def element (c : DataContainer α) (i : Nat) : Except Fault α :=
  if c.ReadOnly then .error (.error nonConstError) else c.get i

/-- An assignment to the element -/
def set (c : DataContainer α) (i : Nat) (v : α) : DataContainer α := c.withBlock (c.block.set i v)

/-- The elements that a loop over the container reads -/
def readElements (c : DataContainer α) : (count i : Nat) → Except Fault (List α)
  | 0, _ => .ok []
  | count + 1, i => do
    let v ← c.get i
    let vs ← c.readElements count (i + 1)
    return v :: vs

/-- The elements in use -/
def values (c : DataContainer α) : List α := c.block.take c.size

/-- The container does not expect more memory than there is. -/
def Valid : DataContainer α → Prop
  | .stdVector _ | .stdVectorReadOnly _ => True
  | .rawMemory m => m.Valid
  | .rawMemoryReadOnly block size => size ≤ block.length

/-- Twice the capacity has a number of bytes that a `std::size_t` can hold. -/
def Fits (sizeOf : Nat) : DataContainer α → Prop
  | .rawMemory m => m.mCapacity * 2 * sizeOf < 2 ^ 64
  | _ => True

section Memory

variable {c : DataContainer α} {i : Nat}

theorem Valid.memory {m : DataContainerRawMemory α} (h : (rawMemory m).Valid) : m.Valid := h

theorem Valid.size_le (h : c.Valid) : c.size ≤ c.block.length := by
  cases c with
  | stdVector v => exact Nat.le_refl _
  | stdVectorReadOnly v => exact Nat.le_refl _
  | rawMemory m => exact Nat.le_trans h.memory.size_le h.memory.capacity_le
  | rawMemoryReadOnly block size => exact h

theorem Valid.length_values (h : c.Valid) : c.values.length = c.size := by
  rw [values, List.length_take, Nat.min_eq_left h.size_le]

theorem get_eq_values (hi : i < c.values.length) : c.get i = .ok c.values[i] := by
  have hBlock : i < c.block.length := by
    rw [values, List.length_take] at hi
    omega
  rw [get, List.getElem?_eq_getElem hBlock]
  simp only [values, List.getElem_take]

theorem Valid.readElements_eq (h : c.Valid) {count : Nat} (hCount : i + count = c.size) :
    c.readElements count i = .ok (c.values.drop i) := by
  induction count generalizing i with
  | zero =>
    rw [readElements, List.drop_of_length_le (by rw [h.length_values]; omega)]
  | succ count ih =>
    have hi : i < c.values.length := by
      rw [h.length_values]
      omega
    rw [readElements, get_eq_values hi, ih (by omega), List.drop_eq_getElem_cons hi]
    rfl

theorem element_of_lt (hMutable : c.ReadOnly = false) (hi : i < c.block.length) :
    c.element i = .ok c.block[i] := by
  rw [element, hMutable, if_neg (by decide), get, List.getElem?_eq_getElem hi]

variable {block : List α}

@[simp] theorem block_withBlock (hMutable : c.ReadOnly = false) :
    (c.withBlock block).block = block := by
  cases c with
  | stdVector v => rfl
  | rawMemory m => rfl
  | stdVectorReadOnly v => nomatch hMutable
  | rawMemoryReadOnly block size => nomatch hMutable

@[simp] theorem readOnly_withBlock : (c.withBlock block).ReadOnly = c.ReadOnly := by
  cases c with
  | _ => rfl

theorem withBlock_withBlock (block block' : List α) :
    (c.withBlock block).withBlock block' = c.withBlock block' := by
  cases c with
  | _ => rfl

theorem withBlock_block (c : DataContainer α) : c.withBlock c.block = c := by
  cases c with
  | _ => rfl

theorem size_withBlock (h : block.length = c.block.length) : (c.withBlock block).size = c.size := by
  cases c with
  | stdVector v => exact h
  | _ => rfl

theorem Valid.withBlock (hValid : c.Valid) (h : block.length = c.block.length) :
    (c.withBlock block).Valid := by
  cases c with
  | rawMemory m => exact ⟨hValid.memory.size_le, h ▸ hValid.memory.capacity_le⟩
  | _ => exact hValid

end Memory

section Resize

variable [Inhabited α] {allocator : Allocator α sizeOf} {c c' : DataContainer α} {newSize : Nat}

/-- What a resize leaves -/
structure Resized (c c' : DataContainer α) (newSize : Nat) : Prop where
  valid : c'.Valid
  mutable : c'.ReadOnly = false
  size_eq : c'.size = newSize
  kept : ∀ i < min c.size newSize, c'.block[i]? = c.block[i]?

theorem Valid.resized (h : c.Valid) (hSizeOf : 0 < sizeOf) (hFits : c.Fits sizeOf)
    (hNew : newSize * sizeOf < 2 ^ 64) (hResize : c.resize allocator newSize = .ok c') :
    c.Resized c' newSize := by
  cases c with
  | stdVector v =>
    obtain rfl := Except.ok.inj hResize
    refine ⟨trivial, rfl, ?_, ?_⟩
    · rw [size, List.length_append, List.length_take, List.length_replicate]
      omega
    · intro i hi
      rw [size] at hi
      rw [block, block, List.getElem?_append_left (by rw [List.length_take]; omega),
        List.getElem?_take_of_lt (by omega)]
  | rawMemory m =>
    rw [resize] at hResize
    cases hMemory : m.resize allocator newSize with
    | error fault =>
      rw [hMemory] at hResize
      nomatch hResize
    | ok m' =>
      rw [hMemory] at hResize
      obtain rfl := Except.ok.inj hResize
      have hResized := DataContainerRawMemory.Valid.resized h hSizeOf hFits hNew hMemory
      exact ⟨hResized.valid, rfl, hResized.size_eq, hResized.kept⟩
  | stdVectorReadOnly v => nomatch hResize
  | rawMemoryReadOnly block size => nomatch hResize

theorem resize_size (h : c.Valid) (hMutable : c.ReadOnly = false) :
    c.resize allocator c.size = .ok c := by
  cases c with
  | stdVector v =>
    rw [resize, size, List.take_length, Nat.sub_self, List.replicate_zero, List.append_nil]
  | rawMemory m =>
    rw [resize, size, DataContainerRawMemory.resize_of_le h.memory.size_le]
    rfl
  | stdVectorReadOnly v => nomatch hMutable
  | rawMemoryReadOnly block size => nomatch hMutable

theorem resize_ne_outOfBounds : c.resize allocator newSize ≠ .error .outOfBounds := by
  cases c with
  | rawMemory m =>
    rw [resize]
    cases hMemory : m.resize allocator newSize with
    | error fault =>
      rintro hFault
      rw [Except.error.inj hFault] at hMemory
      exact DataContainerRawMemory.resize_ne_outOfBounds hMemory
    | ok m' => nofun
  | _ => nofun

end Resize

end DataContainer

end CoSimIO
