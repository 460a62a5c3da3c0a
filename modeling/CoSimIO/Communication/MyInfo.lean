import CoSimIO.Communication.ConnectionInfo
import CoSimIO.Communication.Files
import CoSimIO.Info.Files

/-! # `GetMyInfo` -/

namespace CoSimIO

open Serializer

set_option autoImplicit false

/-- `GetOsName` -/
inductive OperatingSystem
  | windows
  | macOsx
  | linux
  | other
deriving DecidableEq

def OperatingSystem.name : OperatingSystem → Text
  | .windows => "Windows".toList
  | .macOsx => "Mac OSX".toList
  | .linux => "Linux".toList
  | .other => "Other".toList

def traceTypeToString : TraceType → Text
  | .noTrace => "no_trace".toList
  | .traceError => "trace_error".toList
  | .traceAll => "trace_all".toList
  | .ascii => "ascii".toList

/-- The patch is a number, or another name for a release. -/
structure Version where
  major : BitVec 32
  minor : BitVec 32
  patch : Text
  patch_plain : PlainTag patch
  patch_length : patch.length < 2 ^ 64

/-- `GetMajorVersion`, `GetMinorVersion` and `GetPatchVersion` -/
def Version.this : Version := ⟨4, 3, "1".toList, by decide, by decide⟩

/-- The classes derived from `Communication`, with the members that the settings show. -/
inductive CommunicationFormat
  | file (useAuxFileForFileAvailability useFileSerializer : Bool)
  | pipe (bufferSize : BitVec 64)
  | localSocket
  | socket (serializedConnectionInfo : Text)
deriving DecidableEq

def CommunicationFormat.name : CommunicationFormat → Text
  | .file _ _ => "file".toList
  | .pipe _ => "pipe".toList
  | .localSocket => "local_socket".toList
  | .socket _ => "socket".toList

/-- The members of a `Communication` on rank 0 that the partner gets to know. The trace type is
the one of the serializer. -/
structure Configuration where
  version : Version
  isPrimaryConnection : Bool
  primaryWasExplicitlySpecified : Bool
  operatingSystem : OperatingSystem
  size : BitVec 32
  isBigEndian : Bool
  alwaysUseSerializer : Bool
  serializer : Config
  format : CommunicationFormat

namespace Configuration

variable (c : Configuration)

/-- The variable is the one that is returned. -/
def getCommunicationSettings (info : Nat) : List InfoState.Op :=
  .clear info :: match c.format with
    | .file useAuxFileForFileAvailability useFileSerializer =>
      [.set info "use_aux_file_for_file_availability".toList .bool useAuxFileForFileAvailability,
        .set info "use_file_serializer".toList .bool useFileSerializer]
    | .pipe bufferSize => [.set info "buffer_size".toList .sizeT bufferSize]
    | .localSocket => []
    | .socket serializedConnectionInfo =>
      if c.isPrimaryConnection then
        [.set info "connection_info".toList .string serializedConnectionInfo]
      else []

/-- `my_info` is the first variable, the second one is for the settings. -/
def getMyInfo (myInfo info : Nat) : List InfoState.Op :=
  [.clear myInfo,
    .set myInfo "version_major".toList .int c.version.major,
    .set myInfo "version_minor".toList .int c.version.minor,
    .set myInfo "version_patch".toList .string c.version.patch,
    .set myInfo "primary_was_explicitly_specified".toList .bool c.primaryWasExplicitlySpecified,
    .set myInfo "communication_format".toList .string c.format.name,
    .set myInfo "operating_system".toList .string c.operatingSystem.name,
    .set myInfo "num_processes".toList .int c.size,
    .set myInfo "is_big_endian".toList .bool c.isBigEndian,
    .set myInfo "always_use_serializer".toList .bool c.alwaysUseSerializer,
    .set myInfo "serializer_trace_type".toList .string (traceTypeToString c.serializer.trace)] ++
  (c.getCommunicationSettings info ++
    [.setInfo myInfo "communication_settings".toList info []])

section Values

def settingsEntries : List (Text × InfoValue) :=
  match c.format with
  | .file useAuxFileForFileAvailability useFileSerializer =>
    [("use_aux_file_for_file_availability".toList, .scalar .bool useAuxFileForFileAvailability),
      ("use_file_serializer".toList, .scalar .bool useFileSerializer)]
  | .pipe bufferSize => [("buffer_size".toList, .scalar .sizeT bufferSize)]
  | .localSocket => []
  | .socket serializedConnectionInfo =>
    if c.isPrimaryConnection then
      [("connection_info".toList, .scalar .string serializedConnectionInfo)]
    else []

/-- In the order of the keys -/
def entries : List (Text × InfoValue) :=
  [("always_use_serializer".toList, .scalar .bool c.alwaysUseSerializer),
    ("communication_format".toList, .scalar .string c.format.name),
    ("communication_settings".toList, .info c.settingsEntries),
    ("is_big_endian".toList, .scalar .bool c.isBigEndian),
    ("num_processes".toList, .scalar .int c.size),
    ("operating_system".toList, .scalar .string c.operatingSystem.name),
    ("primary_was_explicitly_specified".toList, .scalar .bool c.primaryWasExplicitlySpecified),
    ("serializer_trace_type".toList, .scalar .string (traceTypeToString c.serializer.trace)),
    ("version_major".toList, .scalar .int c.version.major),
    ("version_minor".toList, .scalar .int c.version.minor),
    ("version_patch".toList, .scalar .string c.version.patch)]

theorem run_getCommunicationSettings (values : InfoValues) (info : Nat) :
    values.run (c.getCommunicationSettings info) = values.assign info c.settingsEntries := by
  rw [getCommunicationSettings, settingsEntries]
  cases c.format with
  | file useAuxFileForFileAvailability useFileSerializer =>
    simp only [InfoValues.run, InfoValues.apply, InfoValues.assign_assign, InfoValues.assign_self]
    rfl
  | pipe bufferSize =>
    simp only [InfoValues.run, InfoValues.apply, InfoValues.assign_assign, InfoValues.assign_self]
    rfl
  | localSocket => rfl
  | socket serializedConnectionInfo =>
    cases c.isPrimaryConnection with
    | false => rfl
    | true =>
      simp only [InfoValues.run, InfoValues.apply, InfoValues.assign_assign,
        InfoValues.assign_self, if_true]
      rfl

theorem run_getMyInfo (values : InfoValues) {myInfo info : Nat} (hNe : info ≠ myInfo) :
    values.run (c.getMyInfo myInfo info) myInfo = c.entries := by
  rw [getMyInfo, InfoValues.run_append, InfoValues.run_append, run_getCommunicationSettings]
  simp only [InfoValues.run, InfoValues.apply, InfoValues.select, InfoValues.assign_assign,
    InfoValues.assign_self, InfoValues.assign_other _ hNe.symm]
  rfl

end Values

section Objects

variable {c} {s : InfoState} {myInfo info : Nat}

theorem denotesInfo_getMyInfo (hSound : s.Sound) (hNe : info ≠ myInfo) :
    DenotesInfo (s.run (c.getMyInfo myInfo info)).heap c.entries
      ((s.run (c.getMyInfo myInfo info)).infos myInfo) := by
  have hAll : ∃ values, s.Contains values :=
    ⟨fun i => (hSound.exists_entries i).choose, fun i => (hSound.exists_entries i).choose_spec⟩
  obtain ⟨values, hValues⟩ := hAll
  have hRun := hValues.run hSound (c.getMyInfo myInfo info) myInfo
  rwa [run_getMyInfo c values hNe] at hRun

theorem exists_settings_ops (c : Configuration) (info : Nat) : ∃ ops,
    c.getCommunicationSettings info = .clear info :: ops ∧
      ∀ op ∈ ops, InfoState.Op.Sets info op := by
  rw [getCommunicationSettings]
  refine ⟨_, rfl, ?_⟩
  intro op hOp
  split at hOp
  · rcases List.mem_cons.mp hOp with rfl | hOp
    · exact rfl
    · obtain rfl := List.mem_singleton.mp hOp
      exact rfl
  · obtain rfl := List.mem_singleton.mp hOp
    exact rfl
  · nomatch hOp
  · split at hOp
    · obtain rfl := List.mem_singleton.mp hOp
      exact rfl
    · nomatch hOp

/-- No object is under two paths of keys. -/
theorem unshared_getMyInfo (hSound : s.Sound) (hNe : info ≠ myInfo) (depth : Nat) :
    ((s.run (c.getMyInfo myInfo info)).infos myInfo).Unshared
      (s.run (c.getMyInfo myInfo info)).heap depth := by
  obtain ⟨ops, hSettings, hOps⟩ := exists_settings_ops c info
  rw [getMyInfo, hSettings]
  refine (exclusive_nested hSound hNe ?_ hOps _).nodup depth
  intro op hOp
  simp only [List.mem_cons, List.not_mem_nil, or_false] at hOp
  rcases hOp with rfl | rfl | rfl | rfl | rfl | rfl | rfl | rfl | rfl | rfl
  all_goals exact rfl

end Objects

/-- What one partner writes is what the other one reads: the trace types are equal or those with
tags. In `no_trace` the bytes of a number are in the order of the machine. -/
structure SameFileFormat (c c' : Configuration) : Prop where
  serializer : c.serializer.SameFormat c'.serializer
  byteOrder : c.serializer.binary = true → c.isBigEndian = c'.isBigEndian

theorem SameFileFormat.symm {c c' : Configuration} (h : c.SameFileFormat c') :
    c'.SameFileFormat c where
  serializer := h.serializer.symm
  byteOrder hBinary := (h.byteOrder (h.serializer.binary.trans hBinary)).symm

section Sent

variable {c : Configuration} {cfg : Config}

/-- The file of the handshake, when all is written. -/
def savedInfo (c : Configuration) (s : InfoState) (layout : Nat → BitVec 64) (depth : Nat) :
    Except Text Text :=
  writeAll c.serializer (Info.saveObject c.serializer (s.run (c.getMyInfo 0 1)).heap layout depth
    ((s.run (c.getMyInfo 0 1)).infos 0))

/-- Objects that exist at the same time have different addresses. -/
def Placed (c : Configuration) (s : InfoState) (layout : Nat → BitVec 64) (depth : Nat) : Prop :=
  ∀ r ∈ ((s.run (c.getMyInfo 0 1)).infos 0).visits (s.run (c.getMyInfo 0 1)).heap depth,
    ∀ r' ∈ ((s.run (c.getMyInfo 0 1)).infos 0).visits (s.run (c.getMyInfo 0 1)).heap depth,
      layout r = layout r' → r = r'

/-- The string is one that the trace type represents. -/
def Prepared (c : Configuration) : Prop :=
  ∀ t, c.format = .socket t →
    t.length < 2 ^ 64 ∧ (c.serializer.binary = false → '"' ∉ t ∧ '\n' ∉ t)

theorem legible_string {v : Text} (hPlain : PlainTag v) (hLength : v.length < 2 ^ 64) :
    Faithful cfg .string v ∧ Writable cfg ⟨.string, v⟩ :=
  ⟨faithful_of_plain hLength hPlain.1, writable_string fun _ _ => hPlain⟩

theorem legible_serialized (hFormat : c.serializer.SameFormat cfg) {t : Text}
    (hLength : t.length < 2 ^ 64) (hPlain : c.serializer.binary = false → '"' ∉ t ∧ '\n' ∉ t) :
    Faithful cfg .string t ∧ Writable cfg ⟨.string, t⟩ := by
  rw [hFormat.binary] at hPlain
  constructor
  · rw [Faithful]
    split
    · exact hLength
    · next hMode => exact (hPlain (by simpa using hMode)).1
  · exact writable_string fun hMode _ => hPlain hMode

theorem legible_settings (hFormat : c.serializer.SameFormat cfg) (hPrepared : c.Prepared) :
    LegibleEntries cfg c.settingsEntries := by
  rw [settingsEntries]
  split
  · exact ⟨legible_string (by decide) (by decide), ⟨trivial, writable_of_kind (by nofun)⟩,
      legible_string (by decide) (by decide), ⟨trivial, writable_of_kind (by nofun)⟩, trivial⟩
  · exact ⟨legible_string (by decide) (by decide), ⟨trivial, writable_of_kind (by nofun)⟩, trivial⟩
  · trivial
  · next t hSocket =>
    obtain ⟨hLength, hPlain⟩ := hPrepared t hSocket
    split
    · exact ⟨legible_string (by decide) (by decide), legible_serialized hFormat hLength hPlain,
        trivial⟩
    · trivial

theorem settings_length (c : Configuration) : c.settingsEntries.length < 2 ^ 64 := by
  have hTwo : c.settingsEntries.length ≤ 2 := by
    rw [settingsEntries]
    split
    · exact Nat.le_refl _
    · exact Nat.le_succ _
    · exact Nat.zero_le _
    · split
      · exact Nat.le_succ _
      · exact Nat.zero_le _
  exact Nat.lt_of_le_of_lt hTwo (by decide)

theorem legible_entries (hFormat : c.serializer.SameFormat cfg) (hPrepared : c.Prepared) :
    LegibleEntries cfg c.entries := by
  have hNames : PlainTag c.format.name ∧ c.format.name.length < 2 ^ 64 := by
    have hAll : ∀ name ∈ ["file".toList, "pipe".toList, "local_socket".toList, "socket".toList],
        PlainTag name ∧ name.length < 2 ^ 64 := by decide
    apply hAll
    cases c.format with
    | file _ _ => exact .head _
    | pipe _ => exact .tail _ (.head _)
    | localSocket => exact .tail _ (.tail _ (.head _))
    | socket _ => exact .tail _ (.tail _ (.tail _ (.head _)))
  have hSystem : PlainTag c.operatingSystem.name ∧ c.operatingSystem.name.length < 2 ^ 64 := by
    cases c.operatingSystem <;> decide
  have hTrace : PlainTag (traceTypeToString c.serializer.trace) ∧
      (traceTypeToString c.serializer.trace).length < 2 ^ 64 := by
    cases c.serializer.trace <;> decide
  have hKey : ∀ key : Text, PlainTag key → key.length < 2 ^ 64 →
      Faithful cfg .string key ∧ Writable cfg ⟨.string, key⟩ := fun _ => legible_string
  have hBool : ∀ v : Bool, (InfoValue.scalar .bool v).Legible cfg :=
    fun _ => ⟨trivial, writable_of_kind (by nofun)⟩
  have hInt : ∀ v : BitVec 32, (InfoValue.scalar .int v).Legible cfg :=
    fun _ => ⟨trivial, writable_of_kind (by nofun)⟩
  refine ⟨hKey _ (by decide) (by decide), hBool _, hKey _ (by decide) (by decide),
    legible_string hNames.1 hNames.2, hKey _ (by decide) (by decide),
    ⟨c.settings_length, legible_settings hFormat hPrepared⟩, hKey _ (by decide) (by decide),
    hBool _, hKey _ (by decide) (by decide), hInt _, hKey _ (by decide) (by decide),
    legible_string hSystem.1 hSystem.2, hKey _ (by decide) (by decide), hBool _,
    hKey _ (by decide) (by decide), legible_string hTrace.1 hTrace.2,
    hKey _ (by decide) (by decide), hInt _, hKey _ (by decide) (by decide), hInt _,
    hKey _ (by decide) (by decide), ?_, trivial⟩
  exact legible_string c.version.patch_plain c.version.patch_length

/-- The partner loads what `GetMyInfo` returned. -/
theorem loadFile_of_savedInfo (hFormat : c.serializer.SameFormat cfg) (hPrepared : c.Prepared)
    {s : InfoState} (hSound : s.Sound) {layout : Nat → BitVec 64} {depth : Nat}
    (hDepth : (s.run (c.getMyInfo 0 1)).heap.next < depth) (hPlaced : c.Placed s layout depth) :
    ∃ file, c.savedInfo s layout depth = .ok file ∧
      ∀ heap, ∃ r, Info.loadFile cfg depth heap file = .ok r ∧ DenotesInfo r.1 c.entries r.2 := by
  have hOwn : c.serializer.SameFormat c.serializer := ⟨.inl rfl, rfl⟩
  have hFinal := hSound.run (c.getMyInfo 0 1)
  exact loadFile_of_saveObject hFormat hFinal.heap (hFinal.infos 0) hDepth
    (denotesInfo_getMyInfo hSound (by decide)) (legible_entries hOwn hPrepared)
    (legible_entries hFormat hPrepared) (by simp [entries])
    (unshared_getMyInfo hSound (by decide) _) hPlaced

/-- Eight bytes for each object -/
theorem placed_someAddress {s : InfoState} (hSound : s.Sound) (depth : Nat)
    (hNext : (s.run (c.getMyInfo 0 1)).heap.next < 2 ^ 60) : c.Placed s someAddress depth := by
  have hFinal := hSound.run (c.getMyInfo 0 1)
  have hLess : ∀ ref ∈ ((s.run (c.getMyInfo 0 1)).infos 0).visits
      (s.run (c.getMyInfo 0 1)).heap depth, ref < (s.run (c.getMyInfo 0 1)).heap.next :=
    Info.visits_lt hFinal.heap (hFinal.infos 0) (Nat.le_refl _)
  intro r hr r' hr' hSame
  have hLt := hLess r hr
  have hLt' := hLess r' hr'
  have hNat := congrArg BitVec.toNat hSame
  rw [someAddress, someAddress, BitVec.toNat_ofNat, BitVec.toNat_ofNat] at hNat
  omega

end Sent

end Configuration

end CoSimIO
