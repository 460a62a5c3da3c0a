import CoSimIO.Communication.InfoTransfer
import CoSimIO.Data.Exchange
import CoSimIO.ModelPart.RoundTrip

/-! # Infos, meshes and arrays from one partner to the other -/

namespace CoSimIO.Communication

open Block Duplex LittleEndian Serializer

set_option autoImplicit false

section Mesh

variable {E : Type} {cfg : Config} {layout : Object → BitVec 64} {depth : Nat}
  {iInfo iInfo' : LocatedInfo} {name name' data : Text} {ref ref' : Nat}
  {modelPart target : ModelPart.State} {timing timing' : Timing}

end Mesh

section Data

variable {E : Type} {cfg : Config} {allocator : Allocator Double 8} {heap heap' : InfoHeap}
  {iInfo iInfo' : LocatedInfo} {name name' : Text} {ref ref' : Nat} {timing timing' : Timing}
  {rData target resized : DataContainer Double}

/-- An array with the memory for it on the other side -/
structure DataSent (cfg : Config) (allocator : Allocator Double 8)
    (rData target resized : DataContainer Double) : Prop where
  trace : cfg.trace = .noTrace
  valid : rData.Valid
  addressable : rData.Addressable
  targetValid : target.Valid
  targetMutable : target.ReadOnly = false
  targetAddressable : target.Addressable
  resized : target.resize allocator rData.size = .ok resized

theorem DataSent.size_lt (h : DataSent cfg allocator rData target resized) :
    rData.size < 2 ^ 60 := by
  have hBlock := h.valid.size_le
  have hMemory := h.addressable
  rw [DataContainer.Addressable] at hMemory
  omega

theorem DataSent.room (h : DataSent cfg allocator rData target resized) :
    resized.ReadOnly = false ∧ resized.size = rData.values.length ∧
      rData.values.length ≤ resized.block.length := by
  have hSize := h.size_lt
  have hFits := h.targetAddressable.fits h.targetValid
  have hResized := h.targetValid.resized (by decide) hFits (by omega) h.resized
  rw [h.valid.length_values]
  exact ⟨hResized.mutable, hResized.size_eq, hResized.size_eq ▸ hResized.valid.size_le⟩

theorem DataSent.received (h : DataSent cfg allocator rData target resized) :
    (resized.received rData.values).size = rData.size ∧
      (resized.received rData.values).values = rData.values := by
  obtain ⟨hMutable, hSize, hRoom⟩ := h.room
  have hValues := DataContainer.values_received hMutable hSize hRoom
  rwa [h.valid.length_values] at hValues

theorem bytesText_bytes (values : List Double) :
    bytesText (BaseSocketCommunication.Message.doubles values).bytes = blockText values := by
  rw [BaseSocketCommunication.Message.bytes, bytesText, List.map_flatMap]
  rfl

theorem DataSent.countable (h : DataSent cfg allocator rData target resized) :
    (BaseSocketCommunication.Message.doubles rData.values).Countable := by
  have hSize := h.size_lt
  rw [BaseSocketCommunication.Message.Countable, BaseSocketCommunication.length_bytes,
    h.valid.length_values]
  omega

theorem dialog_sendDataContainer (h : DataSent cfg allocator rData target resized) :
    Dialog (E := E) (sendDataContainer rData) (receiveDataContainer allocator target) [] []
      (.ok ()) (.ok (resized.received rData.values)) := by
  obtain ⟨hMutable, hSize, hRoom⟩ := h.room
  have hRead : rData.readElements rData.size 0 = .ok (rData.values.drop 0) :=
    h.valid.readElements_eq (Nat.zero_add _)
  have hCopy : FileCommunication.copyBytes rData.values.length 0 (blockText rData.values) resized =
      .ok (resized.received rData.values) :=
    DataContainer.copyBytes_eq hMutable ((Nat.zero_add _).symm ▸ hRoom)
  have hPayload := (Dialog.send (E := E)
    (BaseSocketCommunication.Message.doubles rData.values).bytes).bind
      (f := fun u => .ended (Except.ok (ε := CallError) u))
      (g := fun bytes => .ended (faulting (FileCommunication.copyBytes resized.size 0
        (bytesText bytes) resized))) (.pure _ _)
  rw [bytesText_bytes, hSize, hCopy, ← BaseSocketCommunication.sizeT_bytes h.countable,
    ← hSize] at hPayload
  rw [sendDataContainer, hRead, List.drop_zero]
  change Dialog (Task.lift (BaseSocketCommunication.sendDataContainer rData.values).silent) _ _ _ _ _
  rw [BaseSocketCommunication.sendDataContainer_silent h.countable]
  refine BaseSocketCommunication.dialog_sendSize (q := fun size => ((do
    let rData ← Task.of (faulting (target.resize allocator size))
    let bytes ← Task.lift (BaseSocketCommunication.asioRead (sizeT (rData.size * 8))).silent
    Task.of (faulting (FileCommunication.copyBytes rData.size 0 (bytesText bytes) rData))) :
      Task E (DataContainer Double))) h.countable.size_lt ?_
  rw [BaseSocketCommunication.Message.size, h.valid.length_values, h.resized]
  exact hPayload

theorem mem_bytesText {bytes : List UInt8} : ∀ c ∈ bytesText bytes, c.toNat < 256 := by
  intro c hc
  obtain ⟨b, -, rfl⟩ := List.mem_map.mp hc
  have hByte := b.toNat_lt
  have hValid : b.toNat.isValidChar := .inl (by omega)
  rw [Char.ofNat, dif_pos hValid]
  exact hByte

theorem DataSent.sent (h : DataSent cfg allocator rData target resized) :
    Sent cfg (arrayItems cfg rData.values) (rawMessage rData.values) := by
  have hSize := h.size_lt
  have hLength := h.valid.length_values
  refine ⟨writeAll_arrayItems h.trace (by omega), ?_, ?_⟩
  · rw [rawMessage, blockText]
    intro c hc
    rcases List.mem_append.mp hc with hCount | hBlock
    · exact mem_bytesText c hCount
    · obtain ⟨v, -, hByte⟩ := List.mem_flatMap.mp hBlock
      exact mem_bytesText c hByte
  · rw [rawMessage, List.length_append, length_bytesText, length_encode,
      DataContainer.length_blockText]
    omega

theorem DataSent.loadObject (h : DataSent cfg allocator rData target resized) :
    target.loadObject cfg allocator (streamSerializer (rawMessage rData.values)) =
      .ok (resized.received rData.values) := by
  have hSize := h.size_lt
  have hLength := h.valid.length_values
  have hDelivers := deliversObject_of_ready h.trace (by omega)
    (ready_streamSerializer h.sent.written)
  rw [DataContainer.loadObject_eq hDelivers h.targetValid h.targetMutable, hLength, h.resized]
  · rfl
  · intro other hResize
    rw [hLength] at hResize
    obtain rfl := Except.ok.inj (hResize.symm.trans h.resized)
    exact h.room

end Data

section Transfers

/-- The argument of a call, and the times that it measures -/
structure CallInfo where
  iInfo : LocatedInfo
  timing : Timing

/-- A call of an exporting function and the call of the importing function of the partner. They
come with the addresses, the object, and for a mesh or an array what it is loaded into. -/
inductive Transfer
  | info (sender : Party) (exporter importer : CallInfo) (layout : Nat → BitVec 64)
  | mesh (sender : Party) (exporter importer : CallInfo) (layout : Object → BitVec 64)
    (rehash : Rehash) (modelPart target : ModelPart.State)
  | data (sender : Party) (exporter importer : CallInfo) (allocator : Allocator Double 8)
    (rData target : DataContainer Double)

inductive Received
  | info (imported : LocatedInfo)
  | mesh (modelPart : ModelPart.State)
  | data (rData : DataContainer Double)

/-- The objects that were imported, and how the calls have ended -/
inductive Report
  | received (object : Received)
  | ended (result : Except CallError Unit)

def Transfer.sender : Transfer → Party
  | .info sender _ _ _ => sender
  | .mesh sender _ _ _ _ _ _ => sender
  | .data sender _ _ _ _ _ => sender

section Calls

variable (cfg : Config) (alwaysUseSerializer : Bool) (depth : Nat)

def Transfer.exporting : Transfer → Task Report Unit
  | .info _ exporter _ layout => do
    let _ ← exportInfo cfg exporter.timing true layout depth exporter.iInfo
    return ()
  | .mesh _ exporter _ layout _ modelPart _ => do
    let _ ← exportMesh cfg exporter.timing true layout exporter.iInfo modelPart
    return ()
  | .data _ exporter _ _ rData _ => do
    let _ ← exportData cfg exporter.timing true alwaysUseSerializer exporter.iInfo rData
    return ()

def Transfer.importing : Transfer → Task Report Unit
  | .info _ _ importer _ => do
    let imported ← importInfo cfg importer.timing true depth importer.iInfo
    Task.report (.received (.info imported))
  | .mesh _ _ importer _ rehash _ target => do
    let imported ← importMesh cfg importer.timing true rehash depth importer.iInfo target
    Task.report (.received (.mesh imported.2))
  | .data _ _ importer allocator _ target => do
    let imported ←
      importData cfg importer.timing true alwaysUseSerializer allocator importer.iInfo target
    Task.report (.received (.data imported.2))

def Transfer.call (transfer : Transfer) (a : Party) : Task Report Unit :=
  if a = transfer.sender then transfer.exporting cfg alwaysUseSerializer depth
  else transfer.importing cfg alwaysUseSerializer depth

def calls (a : Party) : List Transfer → Task Report Unit
  | [] => pure ()
  | transfer :: transfers => do
    transfer.call cfg alwaysUseSerializer depth a
    calls a transfers

/-- The calls of one partner, in their order -/
def partner (transfers : List Transfer) (a : Party) : Process UInt8 Report Unit :=
  concluding (calls cfg alwaysUseSerializer depth a transfers) .ended

end Calls

variable {cfg : Config} {alwaysUseSerializer : Bool} {depth : Nat} {transfer : Transfer}
  {transfers : List Transfer} {object : Received} {objects : List Received}

/-- What the partner gets -/
inductive Delivers : Transfer → Received → Prop
  | info {sender : Party} {exporter importer : CallInfo} {layout : Nat → BitVec 64}
    {entries : List (Text × InfoValue)} {imported : LocatedInfo} (memoryUsage : BitVec 64)
    (h : DenotesInfo exporter.iInfo.1 entries exporter.iInfo.2)
    (h' : DenotesInfo imported.1 (timed entries importer.timing memoryUsage) imported.2) :
    Delivers (.info sender exporter importer layout) (.info imported)
  | mesh {sender : Party} {exporter importer : CallInfo} {layout : Object → BitVec 64}
    {rehash : Rehash} {modelPart target imported : ModelPart.State}
    (h : ModelPart.Isomorphic modelPart imported ↔ ModelPart.Matches modelPart target) :
    Delivers (.mesh sender exporter importer layout rehash modelPart target) (.mesh imported)
  | data {sender : Party} {exporter importer : CallInfo} {allocator : Allocator Double 8}
    {rData target imported : DataContainer Double} (hSize : imported.size = rData.size)
    (hValues : imported.values = rData.values) :
    Delivers (.data sender exporter importer allocator rData target) (.data imported)

/-- The reports of the party for what it imports -/
def reports (pairs : List (Transfer × Received)) (a : Party) : List Report :=
  (pairs.filter fun pair => a ≠ pair.1.sender).map fun pair => .received pair.2

section Reporting

variable {α γ : Type} {p : Task Report α} {q : Task Report γ} {x : α} {y : γ}

end Reporting

end Transfers

section Example

def nodeData : Text :=
  (writeAll ModelPart.binaryConfig (ModelPart.saveObject ModelPart.binaryConfig
    ModelPart.someLayout ModelPart.localNode)).toOption.getD []

end Example

end CoSimIO.Communication
