import CoSimIO.Data.Transfer

/-! # What `ImportData` leaves in the container -/

namespace CoSimIO

open Block LittleEndian Serializer

set_option autoImplicit false

section Delivery

variable (cfg : Config)

/-- The elements are loaded one after the other, over whatever is in the container. -/
def Delivers : List Double → Input → Prop
  | [], _ => True
  | v :: vs, input => ∀ old, ∃ rest,
    Serializer.load cfg "v".toList .double old input = .ok (v, rest) ∧ Delivers vs rest

/-- The stream holds an array with its size. -/
structure DeliversObject (values : List Double) (input : Input) : Prop where
  size_lt : values.length < 2 ^ 64
  loads : ∃ atObject atBase atElements,
    loadTracePoint cfg "object".toList input = .ok atObject ∧
    loadTracePoint cfg "BaseClass".toList atObject = .ok atBase ∧
    loadSize cfg cfg.uninitialized atBase = .ok (BitVec.ofNat 64 values.length, atElements) ∧
    Delivers cfg values atElements

def blockText (values : List Double) : Text :=
  values.flatMap fun v => bytesText (encode 8 v.toNat)

/-- The size and the raw block -/
def rawMessage (values : List Double) : Text :=
  bytesText (encode 8 values.length) ++ blockText values

/-- The message is the array. -/
def Holds (settings : DataSettings) (file : Text) (values : List Double) : Prop :=
  if settings.mUseFileSerializer && settings.alwaysUseSerializer then
    DeliversObject cfg values (FileCommunication.openFile file)
  else if settings.alwaysUseSerializer then
    DeliversObject cfg values (streamSerializer (FileCommunication.receiveString cfg file))
  else file = rawMessage values

end Delivery

namespace DataContainer

variable {cfg : Config} {allocator : Allocator Double 8} {c : DataContainer Double}
  {values : List Double}

/-- The container with the values at its beginning -/
def received (c : DataContainer Double) (values : List Double) : DataContainer Double :=
  c.withBlock (overwrite c.block 0 values)

theorem set_room {i : Nat} {v : Double} (hMutable : c.ReadOnly = false)
    (h : i + (v :: values).length ≤ c.block.length) :
    i + 1 + values.length ≤ (c.set i v).block.length := by
  rw [set, block_withBlock hMutable, List.length_set]
  rw [List.length_cons] at h
  omega

theorem withBlock_set {i : Nat} {v : Double} (hMutable : c.ReadOnly = false)
    (h : i < c.block.length) :
    (c.set i v).withBlock (overwrite (c.set i v).block (i + 1) values) =
      c.withBlock (overwrite c.block i (v :: values)) := by
  rw [set, withBlock_withBlock, block_withBlock hMutable, overwrite_set h]

theorem loadElements_of_delivers {input : Input} {i : Nat} (hDelivers : Delivers cfg values input)
    (hMutable : c.ReadOnly = false) (hRoom : i + values.length ≤ c.block.length) :
    ∃ rest, loadElements cfg values.length i c input =
      .ok (c.withBlock (overwrite c.block i values), rest) := by
  induction values generalizing i c input with
  | nil =>
    refine ⟨input, ?_⟩
    rw [overwrite_nil, withBlock_block]
    rfl
  | cons v values ih =>
    have hi : i < c.block.length := by
      rw [List.length_cons] at hRoom
      omega
    obtain ⟨next, hLoad, hNext⟩ := hDelivers c.block[i]
    have hStep : (c.set i v).ReadOnly = false := readOnly_withBlock.trans hMutable
    obtain ⟨rest, hRest⟩ := ih hNext hStep (set_room hMutable hRoom)
    refine ⟨rest, ?_⟩
    rw [List.length_cons, loadElements, element_of_lt hMutable hi]
    change (throwing (Serializer.load cfg "v".toList .double c.block[i] input) >>= _) = _
    rw [hLoad]
    exact hRest.trans (by rw [withBlock_set hMutable hi])

theorem resizeIfDifferent_eq (hValid : c.Valid) (hMutable : c.ReadOnly = false) (newSize : Nat) :
    c.resizeIfDifferent allocator newSize = c.resize allocator newSize := by
  rw [resizeIfDifferent]
  split
  · rfl
  · next hSame =>
    rw [not_not] at hSame
    rw [← hSame, resize_size hValid hMutable]

theorem copyBytes_eq {i : Nat} (hMutable : c.ReadOnly = false)
    (hRoom : i + values.length ≤ c.block.length) :
    FileCommunication.copyBytes values.length i (blockText values) c =
      .ok (c.withBlock (overwrite c.block i values)) := by
  induction values generalizing i c with
  | nil =>
    rw [overwrite_nil, withBlock_block]
    rfl
  | cons v values ih =>
    have hi : i < c.block.length := by
      rw [List.length_cons] at hRoom
      omega
    have hWidth : (bytesText (encode 8 v.toNat)).length = 8 := by simp
    have hBytes : bytesText (encode 8 v.toNat) ++ blockText values ≠ [] := by
      intro hEmpty
      rw [(List.append_eq_nil_iff.mp hEmpty).1] at hWidth
      nomatch hWidth
    have hOld : (encode 8 (c.block[i]).toNat).drop
        (bytesText (encode 8 v.toNat) ++ blockText values).length = [] := by
      apply List.drop_of_length_le
      rw [length_encode, List.length_append, hWidth]
      omega
    have hValue : BitVec.ofNat 64 (decode (encode 8 v.toNat)) = v := by
      rw [decode_encode (bitVec_lt 8 v)]
      exact BitVec.ofNat_toNat 64 v
    have hStep : (c.set i v).ReadOnly = false := readOnly_withBlock.trans hMutable
    have hRest := ih hStep (set_room hMutable hRoom)
    rw [withBlock_set hMutable hi] at hRest
    have hTake : (bytesText (encode 8 v.toNat) ++ blockText values).take 8 =
        bytesText (encode 8 v.toNat) :=
      List.take_left' hWidth
    have hDrop : (bytesText (encode 8 v.toNat) ++ blockText values).drop 8 = blockText values :=
      List.drop_left' hWidth
    rw [blockText, List.flatMap_cons, ← blockText, List.length_cons, FileCommunication.copyBytes,
      if_neg hBytes, element_of_lt hMutable hi]
    change FileCommunication.copyBytes values.length (i + 1)
      ((bytesText (encode 8 v.toNat) ++ blockText values).drop 8)
      (c.set i (BitVec.ofNat 64 (decode
        (((bytesText (encode 8 v.toNat) ++ blockText values).take 8).map charByte ++
          (encode 8 (c.block[i]).toNat).drop
            (bytesText (encode 8 v.toNat) ++ blockText values).length)))) = _
    rw [hTake, hOld, hDrop, List.append_nil, map_charByte_bytesText, hValue]
    exact hRest

theorem length_blockText (values : List Double) : (blockText values).length = values.length * 8 := by
  induction values with
  | nil => rfl
  | cons v values ih =>
    rw [blockText, List.flatMap_cons, ← blockText, List.length_append, ih, length_bytesText,
      length_encode, List.length_cons]
    omega

theorem receiveDataContainer_eq (hSize : values.length < 2 ^ 61) (hRoom : ∀ c',
    c.resize allocator values.length = .ok c' → c'.ReadOnly = false ∧
      values.length ≤ c'.block.length) :
    FileCommunication.receiveDataContainer cfg allocator (rawMessage values) c =
      (c.resize allocator values.length).map fun c' => c'.received values := by
  have hHeader : (FileCommunication.openFile (rawMessage values)).readNat 8 cfg.uninitialized.toNat =
      (values.length, FileCommunication.openFile (blockText values)) :=
    Input.readNat_encode (by omega) rfl rfl _
  have hBytes : sizeT (values.length * 8) = (blockText values).length := by
    rw [length_blockText, sizeT, Nat.mod_eq_of_lt (by omega)]
  have hRead : (FileCommunication.openFile (blockText values)).readBytes
      (blockText values).length = (blockText values, FileCommunication.openFile []) :=
    Input.readBytes_append rfl (List.append_nil _).symm rfl
  rw [FileCommunication.receiveDataContainer, hHeader]
  dsimp only
  rw [hBytes, hRead]
  cases hResize : c.resize allocator values.length with
  | error fault => rfl
  | ok c' =>
    obtain ⟨hMutable, hLength⟩ := hRoom c' hResize
    exact copyBytes_eq hMutable (by omega)

theorem loadObject_eq {input : Input} (hDelivers : DeliversObject cfg values input)
    (hValid : c.Valid) (hMutable : c.ReadOnly = false) (hRoom : ∀ c',
      c.resize allocator values.length = .ok c' → c'.ReadOnly = false ∧
        c'.size = values.length ∧ values.length ≤ c'.block.length) :
    c.loadObject cfg allocator input =
      (c.resize allocator values.length).map fun c' => c'.received values := by
  obtain ⟨atObject, atBase, atElements, hObject, hBase, hSize, hElements⟩ := hDelivers.loads
  have hCount : (BitVec.ofNat 64 values.length).toNat = values.length := by
    rw [BitVec.toNat_ofNat, Nat.mod_eq_of_lt hDelivers.size_lt]
  have hLoad : c.loadBase cfg allocator atBase =
      (c.resize allocator values.length >>= fun c' => loadElements cfg c'.size 0 c' atElements) := by
    rw [loadBase, hSize, ← resizeIfDifferent_eq hValid hMutable]
    change (c.resizeIfDifferent allocator (BitVec.ofNat 64 values.length).toNat >>= _) = _
    rw [hCount]
  rw [loadObject, hObject]
  change (c.load cfg allocator atObject >>= fun loaded => pure loaded.1) = _
  rw [load, hMutable, if_neg (by decide), hBase]
  change (c.loadBase cfg allocator atBase >>= fun loaded => pure loaded.1) = _
  rw [hLoad]
  cases hResize : c.resize allocator values.length with
  | error fault => rfl
  | ok c' =>
    obtain ⟨hMutable', hSize', hLength⟩ := hRoom c' hResize
    obtain ⟨rest, hRest⟩ := loadElements_of_delivers hElements hMutable' (i := 0) (by omega)
    change (loadElements cfg c'.size 0 c' atElements >>= fun loaded => pure loaded.1) = _
    rw [hSize', hRest]
    rfl

/-- However the array comes, the container is resized and its first elements are overwritten. -/
theorem importData_eq {settings : DataSettings} {file : Text} (hHolds : Holds cfg settings file values)
    (hValid : c.Valid) (hMutable : c.ReadOnly = false) (hFits : c.Fits 8)
    (hSize : values.length < 2 ^ 61) :
    FileCommunication.importData cfg allocator settings file c =
      (c.resize allocator values.length).map fun c' => c'.received values := by
  have hRoom : ∀ c', c.resize allocator values.length = .ok c' → c'.ReadOnly = false ∧
      c'.size = values.length ∧ values.length ≤ c'.block.length := by
    intro c' hResize
    have hResized := hValid.resized (by decide) hFits (by omega) hResize
    exact ⟨hResized.mutable, hResized.size_eq, hResized.size_eq ▸ hResized.valid.size_le⟩
  rw [Holds] at hHolds
  rw [FileCommunication.importData]
  split
  · next hFile =>
    rw [if_pos hFile] at hHolds
    exact loadObject_eq hHolds hValid hMutable hRoom
  · next hFile =>
    rw [if_neg hFile] at hHolds
    split
    · next hStream =>
      rw [if_pos hStream] at hHolds
      exact loadObject_eq hHolds hValid hMutable hRoom
    · next hRaw =>
      rw [if_neg hRaw] at hHolds
      rw [hHolds]
      exact receiveDataContainer_eq hSize fun c' hResize =>
        ⟨(hRoom c' hResize).1, (hRoom c' hResize).2.2⟩

/-- The container has the size of the array and its values. -/
theorem values_received (hMutable : c.ReadOnly = false) (hSize : c.size = values.length)
    (hLength : values.length ≤ c.block.length) :
    (c.received values).size = values.length ∧ (c.received values).values = values := by
  have hBlock : (overwrite c.block 0 values).length = c.block.length :=
    length_overwrite (by omega)
  have hCount : (c.received values).size = values.length := by
    rw [received, size_withBlock hBlock, hSize]
  refine ⟨hCount, ?_⟩
  rw [DataContainer.values, hCount, received, block_withBlock hMutable, take_overwrite]

end DataContainer

end CoSimIO
