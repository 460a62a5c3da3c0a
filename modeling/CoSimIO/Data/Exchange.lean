import CoSimIO.Data.Importing
import CoSimIO.Serializer.TraceTags

/-! # An array from one partner to the other -/

namespace CoSimIO

open Block LittleEndian Serializer

set_option autoImplicit false

variable {cfg : Config} {values : List Double}

section Messages

theorem binary_of_noTrace (hTrace : cfg.trace = .noTrace) : cfg.binary = true :=
  decide_eq_true hTrace

theorem tracePoint_of_noTrace (hTrace : cfg.trace = .noTrace) (tag : Text) :
    tracePoint cfg tag = [] := by
  rw [tracePoint, Config.tracing, hTrace]
  rfl

theorem delivers_of_ready (hTrace : cfg.trace = .noTrace) {input : Input}
    (hReady : Ready cfg input (values.flatMap fun v => save cfg "v".toList ⟨.double, v⟩)) :
    Delivers cfg values input := by
  induction values generalizing input with
  | nil => trivial
  | cons v values ih =>
    rw [List.flatMap_cons] at hReady
    intro old
    have hFaithful : Faithful cfg .double v := by
      intro hText
      rw [binary_of_noTrace hTrace] at hText
      nomatch hText
    obtain ⟨rest, hLoad, hRest⟩ := hReady.load (fun _ => by decide) hFaithful old
    exact ⟨rest, hLoad, ih hRest⟩

/-- What the serializer is given -/
def arrayItems (cfg : Config) (values : List Double) : List Item :=
  tracePoint cfg "object".toList ++ (tracePoint cfg "BaseClass".toList ++
    (saveSize cfg values.length ++ values.flatMap fun v => save cfg "v".toList ⟨.double, v⟩))

theorem deliversObject_of_ready (hTrace : cfg.trace = .noTrace) (hSize : values.length < 2 ^ 64)
    {input : Input} (hReady : Ready cfg input (arrayItems cfg values)) :
    DeliversObject cfg values input := by
  refine ⟨hSize, ?_⟩
  obtain ⟨atObject, hObject, hReady⟩ := hReady.loadTracePoint fun _ => by decide
  obtain ⟨atBase, hBase, hReady⟩ := hReady.loadTracePoint fun _ => by decide
  obtain ⟨atElements, hLoad, hReady⟩ := hReady.load (fun _ => by decide) trivial cfg.uninitialized
  exact ⟨atObject, atBase, atElements, hObject, hBase, hLoad, delivers_of_ready hTrace hReady⟩

theorem writeAll_elements (hTrace : cfg.trace = .noTrace) (values : List Double) :
    writeAll cfg (values.flatMap fun v => save cfg "v".toList ⟨.double, v⟩) =
      .ok (blockText values) := by
  induction values with
  | nil => rfl
  | cons v values ih =>
    rw [List.flatMap_cons, save, tracePoint_of_noTrace hTrace, List.nil_append,
      List.singleton_append, writeAll, ih, write, if_pos (binary_of_noTrace hTrace)]
    rfl

/-- In the binary mode the serializer writes the size and the raw block. -/
theorem writeAll_arrayItems (hTrace : cfg.trace = .noTrace) (hSize : values.length < 2 ^ 64) :
    writeAll cfg (arrayItems cfg values) = .ok (rawMessage values) := by
  have hCount : (BitVec.ofNat 64 values.length).toNat = values.length := by
    rw [BitVec.toNat_ofNat, Nat.mod_eq_of_lt hSize]
  rw [arrayItems, saveSize, save, tracePoint_of_noTrace hTrace, tracePoint_of_noTrace hTrace,
    tracePoint_of_noTrace hTrace, List.nil_append, List.nil_append, List.nil_append,
    List.singleton_append, writeAll, writeAll_elements hTrace, write,
    if_pos (binary_of_noTrace hTrace)]
  change Except.ok (bytesText (encode 8 (BitVec.ofNat 64 values.length).toNat) ++ _) = _
  rw [hCount]
  rfl

end Messages

section Export

variable {sender : DataContainer Double}

end Export

/-- No block of memory has more bytes than a `std::ptrdiff_t` can count. -/
def DataContainer.Addressable (c : DataContainer Double) : Prop := 8 * c.block.length < 2 ^ 63

theorem DataContainer.Addressable.fits {c : DataContainer Double} (h : c.Addressable)
    (hValid : c.Valid) : c.Fits 8 := by
  cases c with
  | rawMemory m =>
    have hCapacity := hValid.memory.capacity_le
    rw [DataContainer.Addressable, DataContainer.block] at h
    rw [DataContainer.Fits]
    omega
  | _ => trivial

/-- `ExportData` of the one partner and `ImportData` of the other -/
def transfer (cfg : Config) (allocator : Allocator Double 8) (settings : DataSettings)
    (sender receiver : DataContainer Double) : Except Fault (DataContainer Double) := do
  let file ← FileCommunication.exportData cfg settings sender
  FileCommunication.importData cfg allocator settings file receiver

def binaryMode : Config where
  trace := .noTrace
  debug := true
  doubles := fourteenDigits
  uninitialized := 5

end CoSimIO
