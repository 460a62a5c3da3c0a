import CoSimIO.Communication.PipeChunks
import CoSimIO.Data.Exchange

/-! # `CoSimIO_ImportData` of the C interface

The capacity is not kept between the calls: every call makes a container whose capacity is the
size that the previous one has left.
-/

namespace CoSimIO.CInterface

open Block Serializer
open Pipe (toSizeT toSizeT_of_nonneg)

set_option autoImplicit false

/-- `O_Size` and `O_Data`, with the memory that has really been allocated. -/
structure OutputArray where
  oSize : Int32
  block : List Double
deriving DecidableEq

def OutputArray.container (s : OutputArray) : DataContainerRawMemory Double :=
  { block := s.block, mSize := toSizeT s.oSize, mCapacity := toSizeT s.oSize }

/-- An import with the message it finds -/
structure Call where
  settings : DataSettings
  file : Text
  values : List Double

section Calls

variable (cfg : Config) (allocator : Allocator Double 8)

def importData (call : Call) (s : OutputArray) : Except Fault OutputArray := do
  let c ← FileCommunication.importData cfg allocator call.settings call.file
    (.rawMemory s.container)
  return { oSize := Int32.ofNat c.size, block := c.block }

def run : List Call → OutputArray → Except Fault OutputArray
  | [], s => .ok s
  | call :: calls, s => do
    let s ← importData cfg allocator call s
    run calls s

end Calls

/-- The array really holds as many elements as its size says. -/
structure OutputArray.Valid (s : OutputArray) : Prop where
  nonneg : 0 ≤ s.oSize.toInt
  size_le : s.oSize.toInt ≤ s.block.length

/-- The message is the array, and an `int` can hold its length. -/
structure Call.Sized (cfg : Config) (call : Call) : Prop where
  holds : Holds cfg call.settings call.file call.values
  length_lt : call.values.length < 2 ^ 31

variable {cfg : Config} {allocator : Allocator Double 8} {s : OutputArray} {call : Call}

theorem OutputArray.Valid.toSizeT_eq (h : s.Valid) : (toSizeT s.oSize : Int) = s.oSize.toInt :=
  toSizeT_of_nonneg h.nonneg

theorem OutputArray.Valid.container (h : s.Valid) : s.container.Valid := by
  have hSize := h.toSizeT_eq
  have hRoom := h.size_le
  have hCapacity : toSizeT s.oSize ≤ s.block.length := by omega
  exact ⟨Nat.le_refl _, hCapacity⟩

theorem OutputArray.Valid.capacity_lt (h : s.Valid) : s.container.mCapacity * 2 * 8 < 2 ^ 64 := by
  have hSize := h.toSizeT_eq
  have hLt := s.oSize.toInt_lt
  have hCapacity : toSizeT s.oSize * 2 * 8 < 2 ^ 64 := by omega
  exact hCapacity

/-- A call resizes the memory and writes the array to its beginning. -/
theorem importData_eq (h : s.Valid) (hHolds : Holds cfg call.settings call.file call.values)
    (hLength : call.values.length < 2 ^ 60) : importData cfg allocator call s =
      (s.container.resize allocator call.values.length).map fun m =>
        ⟨Int32.ofNat m.mSize, overwrite m.block 0 call.values⟩ := by
  have hFits : (DataContainer.rawMemory s.container).Fits 8 := h.capacity_lt
  have hValid : (DataContainer.rawMemory s.container).Valid := h.container
  rw [importData, DataContainer.importData_eq hHolds hValid rfl hFits (by omega),
    DataContainer.resize]
  cases hResize : s.container.resize allocator call.values.length with
  | error fault => rfl
  | ok m => rfl

/-- After a call that returns the memory holds the array, and its size is that of the array. -/
structure Imported (s : OutputArray) (values : List Double) : Prop where
  valid : s.Valid
  size_eq : s.oSize.toInt = values.length
  values_eq : s.block.take values.length = values

theorem importData_imported (h : s.Valid) (hCall : call.Sized cfg) {s' : OutputArray}
    (hImport : importData cfg allocator call s = .ok s') : Imported s' call.values := by
  have hLt := hCall.length_lt
  have hBytes : call.values.length * 8 < 2 ^ 64 := by omega
  rw [importData_eq h hCall.holds (by omega)] at hImport
  cases hResize : s.container.resize allocator call.values.length with
  | error fault =>
    rw [hResize] at hImport
    nomatch hImport
  | ok m =>
    have hResized := h.container.resized (by decide) h.capacity_lt hBytes hResize
    have hRoom := Nat.le_trans hResized.valid.size_le hResized.valid.capacity_le
    rw [hResized.size_eq] at hRoom
    rw [hResize] at hImport
    obtain rfl := Except.ok.inj hImport
    have hBlock : (overwrite m.block 0 call.values).length = m.block.length :=
      length_overwrite (by omega)
    have hSize : (Int32.ofNat m.mSize).toInt = call.values.length := by
      rw [hResized.size_eq, Int32.toInt_ofNat_of_lt hLt]
    refine ⟨⟨?_, ?_⟩, hSize, take_overwrite _ _⟩
    · rw [hSize]
      exact Int.natCast_nonneg _
    · rw [hSize, hBlock]
      omega

theorem importData_ne_outOfBounds (h : s.Valid) (hCall : call.Sized cfg) :
    importData cfg allocator call s ≠ .error .outOfBounds := by
  have hLt := hCall.length_lt
  rw [importData_eq h hCall.holds (by omega)]
  cases hResize : s.container.resize allocator call.values.length with
  | error fault =>
    intro hFault
    rw [Except.error.inj hFault] at hResize
    exact DataContainerRawMemory.resize_ne_outOfBounds hResize
  | ok m => nofun

section Runs

variable {calls : List Call} {s' : OutputArray}

theorem run_imported (h : s.Valid) (hCalls : ∀ call ∈ calls, call.Sized cfg)
    (hRun : run cfg allocator calls s = .ok s') :
    s'.Valid ∧ ∀ call, calls.getLast? = some call → Imported s' call.values := by
  induction calls generalizing s with
  | nil =>
    obtain rfl := Except.ok.inj hRun
    exact ⟨h, fun _ hLast => nomatch hLast⟩
  | cons call calls ih =>
    rw [run] at hRun
    cases hImport : importData cfg allocator call s with
    | error fault =>
      rw [hImport] at hRun
      nomatch hRun
    | ok next =>
      rw [hImport] at hRun
      have hNext := importData_imported h (hCalls call List.mem_cons_self) hImport
      have hRest := ih hNext.valid (fun other hOther => hCalls other (List.mem_cons_of_mem _ hOther))
        hRun
      cases calls with
      | nil =>
        obtain rfl := Except.ok.inj hRun
        refine ⟨hNext.valid, ?_⟩
        intro last hLast
        obtain rfl := Option.some.inj hLast
        exact hNext
      | cons second calls => exact ⟨hRest.1, fun last hLast => hRest.2 last hLast⟩

theorem run_ne_outOfBounds (h : s.Valid) (hCalls : ∀ call ∈ calls, call.Sized cfg) :
    run cfg allocator calls s ≠ .error .outOfBounds := by
  induction calls generalizing s with
  | nil => nofun
  | cons call calls ih =>
    have hCall := hCalls call List.mem_cons_self
    rw [run]
    cases hImport : importData cfg allocator call s with
    | error fault =>
      intro hFault
      rw [Except.error.inj hFault] at hImport
      exact importData_ne_outOfBounds h hCall hImport
    | ok next =>
      exact ih (importData_imported h hCall hImport).valid
        fun other hOther => hCalls other (List.mem_cons_of_mem _ hOther)

/-- The memory after the resize of a call -/
structure Enlarged (s : OutputArray) (newSize : Nat) (m : DataContainerRawMemory Double) : Prop where
  size_eq : m.mSize = newSize
  new_le : newSize ≤ m.block.length
  old_le : s.oSize.toInt ≤ m.block.length
  kept : ∀ i : Nat, (i : Int) < s.oSize.toInt → i < newSize → m.block[i]? = s.block[i]?

theorem enlarged_of_resize (h : s.Valid) {newSize : Nat} (hSize : newSize < 2 ^ 31)
    {m : DataContainerRawMemory Double} (hResize : s.container.resize allocator newSize = .ok m) :
    Enlarged s newSize m := by
  have hBytes : newSize * 8 < 2 ^ 64 := by omega
  have hResized := h.container.resized (by decide) h.capacity_lt hBytes hResize
  have hRoom := Nat.le_trans hResized.valid.size_le hResized.valid.capacity_le
  have hOld : toSizeT s.oSize ≤ m.block.length :=
    Nat.le_trans hResized.capacity_le hResized.valid.capacity_le
  have hCount := h.toSizeT_eq
  refine ⟨hResized.size_eq, hResized.size_eq ▸ hRoom, by omega, ?_⟩
  intro i hi hNew
  exact hResized.kept i (Nat.lt_min.mpr ⟨show i < toSizeT s.oSize by omega, hNew⟩)

end Runs

/-- No call writes behind the memory, whatever is imported before. After a call the memory holds the
array and as many elements as the size says, and so it does after the resize of the next one, which
keeps the elements. -/
theorem imports_safe (allocator : Allocator Double 8) (calls : List Call)
    (h : s.Valid) (hCalls : ∀ call ∈ calls, call.Sized cfg) :
    run cfg allocator calls s ≠ .error .outOfBounds ∧
    ∀ s', run cfg allocator calls s = .ok s' →
      s'.Valid ∧ (∀ call, calls.getLast? = some call → Imported s' call.values) ∧
      ∀ newSize < 2 ^ 31, ∀ m, s'.container.resize allocator newSize = .ok m →
        Enlarged s' newSize m := by
  refine ⟨run_ne_outOfBounds h hCalls, fun s' hRun => ?_⟩
  obtain ⟨hValid, hLast⟩ := run_imported h hCalls hRun
  exact ⟨hValid, hLast, fun newSize hSize m => enlarged_of_resize hValid hSize⟩

def noArray : OutputArray := ⟨0, []⟩

def importTwo : Call := ⟨⟨false, false⟩, rawMessage [1, 2], [1, 2]⟩

def importOne : Call := ⟨⟨false, false⟩, rawMessage [3], [3]⟩

theorem imports_safe_shrinking :
    run binaryMode (endless 0 8) [importTwo, importOne] noArray ≠ .error .outOfBounds :=
  (imports_safe (endless 0 8) [importTwo, importOne] ⟨by decide, by decide⟩
    (List.forall_mem_cons.mpr ⟨⟨rfl, by decide⟩, List.forall_mem_singleton.mpr ⟨rfl, by decide⟩⟩)).1

section LongArray

theorem size_wraps {values : List Double} (hLength : values.length = 2 ^ 31) :
    ∃ s', importData binaryMode (endless 0 8) ⟨⟨false, false⟩, rawMessage values, values⟩ noArray =
      .ok s' ∧ s'.oSize.toInt ≠ values.length ∧ ¬ s'.container.Valid := by
  have hMore : values.length > noArray.container.mCapacity := by
    rw [hLength]
    decide
  have hValid : noArray.Valid := ⟨by decide, by decide⟩
  have hImport : importData binaryMode (endless 0 8) ⟨⟨false, false⟩, rawMessage values, values⟩
      noArray = (noArray.container.resize (endless 0 8) values.length).map fun m =>
        ⟨Int32.ofNat m.mSize, overwrite m.block 0 values⟩ :=
    importData_eq hValid rfl (by rw [hLength]; decide)
  obtain ⟨block, hRealloc⟩ : ∃ block, (endless (0 : Double) 8).realloc
      (if noArray.container.mCapacity = 0 then [] else noArray.container.block)
      (sizeT (max (sizeT (noArray.container.mCapacity * 2)) values.length * 8)) = some block :=
    ⟨_, rfl⟩
  have hBlock : block.length = 2 ^ 31 := by
    rw [(endless (0 : Double) 8).length_realloc hRealloc, hLength]
    decide
  rw [DataContainerRawMemory.resize_of_gt hMore, hRealloc] at hImport
  refine ⟨⟨Int32.ofNat values.length, overwrite block 0 values⟩, hImport, ?_, ?_⟩
  · have hWrapped : (Int32.ofNat (2 ^ 31)).toInt ≠ ((2 ^ 31 : Nat) : Int) := by decide
    rw [hLength]
    exact hWrapped
  · intro hContainer
    have hRoom : toSizeT (Int32.ofNat values.length) ≤ (overwrite block 0 values).length :=
      hContainer.capacity_le
    rw [length_overwrite (by omega), hBlock, hLength] at hRoom
    exact absurd hRoom (by decide)

def longArray : List Double := List.replicate (2 ^ 31) 0

def importLong : Call := ⟨⟨false, false⟩, rawMessage longArray, longArray⟩

/-- The size of an array that is too long for an `int` becomes negative, and the next call expects
more memory than there is. -/
theorem imports_longArray : ∃ s', importData binaryMode (endless 0 8) importLong noArray = .ok s' ∧
    s'.oSize.toInt ≠ longArray.length ∧ ¬ s'.container.Valid :=
  size_wraps List.length_replicate

end LongArray

end CoSimIO.CInterface
