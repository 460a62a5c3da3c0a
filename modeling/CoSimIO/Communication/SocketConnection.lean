import CoSimIO.Communication.MyInfo

/-! # How the secondary partner of a `SocketCommunication` gets the addresses -/

namespace CoSimIO.SocketCommunication

open Serializer

set_option autoImplicit false

inductive ConnectionError
  | get (error : GetError)
  | message (text : Text)

def isPrimaryError : ConnectionError :=
  .message "This function can only be used as secondary connection!\n".toList

def wrongNumberError : ConnectionError := .message "Wrong number of connection infos!\n".toList

variable (floats : FloatText) (place : Placement) (c : Configuration)

/-- The assignment to `mSerializedConnectionInfo` -/
def setSerialized (serialized : Text) : Configuration := { c with format := .socket serialized }

/-- `PrepareConnection` on rank 0, after the other ranks sent their addresses -/
def prepare (connInfos : List ConnectionInfo) : Except Text Configuration :=
  if c.isPrimaryConnection then do
    let serialized ← prepareConnection c.serializer floats connInfos
    return setSerialized c serialized
  else return setSerialized c []

/-- `conn_infos` in `GetConnectionInformation` -/
def receiveConnectionInfos (partnerInfo : InfoHeap × Info) :
    Except ConnectionError (List ConnectionInfo) := do
  if c.isPrimaryConnection then .error isPrimaryError
  let settings ← (partnerInfo.2.get partnerInfo.1 .info "communication_settings".toList).mapError
    .get
  let serializedInfo ← (settings.get partnerInfo.1 (.scalar .string)
    "connection_info".toList).mapError .get
  (loadConnectionInfos c.serializer floats place serializedInfo).mapError .message

/-- What `GetConnectionInformation` assigns to `mPortNumber` and `mIpAddress`. No rank is larger
than the number of the ranks. -/
def getConnectionInformation (partnerInfo : InfoHeap × Info) (rank : Nat) :
    Except ConnectionError (Option ConnectionInfo) := do
  let connInfos ← receiveConnectionInfos floats place c partnerInfo
  if BitVec.ofNat 32 connInfos.length ≠ c.size then .error wrongNumberError
  return connInfos[rank]?

section Received

variable {floats place} {primary secondary c : Configuration} {connInfos : List ConnectionInfo}
  {serialized : Text}

theorem prepare_primary (hPrimary : primary.isPrimaryConnection = true)
    (hPrepare : prepareConnection primary.serializer floats connInfos = .ok serialized) :
    prepare floats primary connInfos = .ok (setSerialized primary serialized) := by
  rw [prepare, if_pos hPrimary, hPrepare]
  rfl

theorem find_connection_info (hPrimary : c.isPrimaryConnection = true)
    (hFormat : c.format = .socket serialized) :
    OrderedMap.find c.settingsEntries "connection_info".toList =
      some (.scalar .string serialized) := by
  simp only [Configuration.settingsEntries, hFormat, hPrimary, if_true]
  rfl

theorem receiveConnectionInfos_eq (hSecondary : secondary.isPrimaryConnection = false)
    (hPrimary : c.isPrimaryConnection = true) (hFormat : c.format = .socket serialized)
    (hLoad : loadConnectionInfos secondary.serializer floats place serialized = .ok connInfos)
    {partnerInfo : InfoHeap × Info} (hInfo : DenotesInfo partnerInfo.1 c.entries partnerInfo.2) :
    receiveConnectionInfos floats place secondary partnerInfo = .ok connInfos := by
  have hEntry : OrderedMap.find c.entries "communication_settings".toList =
      some (.info c.settingsEntries) := rfl
  obtain ⟨settings, hSettings, hInner⟩ := get_info hInfo hEntry
  have hString := get_scalar hInner (find_connection_info hPrimary hFormat)
  have hMode : ¬ secondary.isPrimaryConnection = true := by simp [hSecondary]
  rw [receiveConnectionInfos, if_neg hMode, hSettings]
  change (Except.mapError ConnectionError.get (settings.get partnerInfo.1 (.scalar .string)
    "connection_info".toList) >>= _) = _
  rw [hString]
  change (loadConnectionInfos secondary.serializer floats place serialized).mapError _ = _
  rw [hLoad]
  rfl

theorem getConnectionInformation_eq {partnerInfo : InfoHeap × Info}
    (hReceived : receiveConnectionInfos floats place secondary partnerInfo = .ok connInfos)
    (hSize : secondary.size = BitVec.ofNat 32 connInfos.length) (rank : Nat) :
    getConnectionInformation floats place secondary partnerInfo rank = .ok connInfos[rank]? := by
  have hMode : ¬ BitVec.ofNat 32 connInfos.length ≠ secondary.size := by simp [hSize]
  rw [getConnectionInformation, hReceived]
  exact if_neg hMode

end Received

/-- The list that the primary prepares is the one that the secondary gets, and each of its ranks
takes its own entry. The string in between has no character that its own serializer could not
write. A `std::string` is shorter than what its size counts. -/
theorem connectionInfos_recovered (floats : FloatText) (place : Placement)
    (primary secondary : Configuration) (connInfos : List ConnectionInfo)
    (hFormat : primary.SameFileFormat secondary)
    (hPrimary : primary.isPrimaryConnection = true)
    (hSecondary : secondary.isPrimaryConnection = false)
    (hRanks : connInfos.length < 2 ^ 31)
    (hSize : secondary.size = BitVec.ofNat 32 connInfos.length)
    (hClean : ∀ info ∈ connInfos, info.Clean) :
    ∃ serialized, prepareConnection primary.serializer floats connInfos = .ok serialized ∧
      (primary.serializer.trace ≠ .noTrace → '"' ∉ serialized ∧ '\n' ∉ serialized) ∧
      ∃ c, prepare floats primary connInfos = .ok c ∧
        ∀ s : InfoState, s.Reachable → ∀ layout depth,
          (s.run (c.getMyInfo 0 1)).heap.next < depth → c.Placed s layout depth →
          serialized.length < 2 ^ 64 →
          ∃ file, c.savedInfo s layout depth = .ok file ∧
            ∀ heap, ∃ partnerInfo,
              Info.loadFile secondary.serializer depth heap file = .ok partnerInfo ∧
              receiveConnectionInfos floats place secondary partnerInfo = .ok connInfos ∧
              ∀ rank, getConnectionInformation floats place secondary partnerInfo rank =
                .ok connInfos[rank]? := by
  have hCount : connInfos.length < 2 ^ 64 := Nat.lt_trans hRanks (by decide)
  obtain ⟨serialized, hPrepare, hPlain, hLoad⟩ :=
    loadConnectionInfos_of_prepareConnection hFormat.serializer hCount hClean
  refine ⟨serialized, hPrepare, fun hTrace => hPlain (trace_ne_iff.mp hTrace), _,
    prepare_primary hPrimary hPrepare, ?_⟩
  intro s hReachable layout depth hDepth hPlaced hLength
  have hSame : (setSerialized primary serialized).serializer.SameFormat secondary.serializer :=
    hFormat.serializer
  have hOwner : (setSerialized primary serialized).isPrimaryConnection = true := hPrimary
  have hPrepared : (setSerialized primary serialized).Prepared := by
    intro t hSocket
    obtain rfl := CommunicationFormat.socket.inj hSocket
    exact ⟨hLength, hPlain⟩
  obtain ⟨file, hFile, hPartner⟩ :=
    Configuration.loadFile_of_savedInfo hSame hPrepared hReachable.sound hDepth hPlaced
  refine ⟨file, hFile, ?_⟩
  intro heap
  obtain ⟨partnerInfo, hLoaded, hInfo⟩ := hPartner heap
  have hReceived : receiveConnectionInfos floats place secondary partnerInfo = .ok connInfos :=
    receiveConnectionInfos_eq hSecondary hOwner rfl hLoad hInfo
  exact ⟨partnerInfo, hLoaded, hReceived, getConnectionInformation_eq hReceived hSize⟩

def onSockets (isPrimaryConnection : Bool) : Configuration where
  version := .this
  isPrimaryConnection := isPrimaryConnection
  primaryWasExplicitlySpecified := true
  operatingSystem := .linux
  size := 2
  isBigEndian := false
  alwaysUseSerializer := false
  serializer := traceErrorConfig
  format := .socket []

def twoRanks : List ConnectionInfo := [⟨50000, "127.0.0.1".toList⟩, ⟨50001, "::1".toList⟩]

theorem connectionInfos_recovered_twoRanks : ∃ c file partnerInfo,
    prepare noFloats (onSockets true) twoRanks = .ok c ∧
    c.savedInfo InfoState.start someAddress 20 = .ok file ∧
    Info.loadFile traceErrorConfig 20 InfoState.start.heap file = .ok partnerInfo ∧
    getConnectionInformation noFloats atEnd (onSockets false) partnerInfo 1 =
      .ok (some ⟨50001, "::1".toList⟩) := by
  have hClean : ∀ info ∈ twoRanks, info.Clean := by
    refine List.forall_mem_cons.mpr ⟨?_, List.forall_mem_singleton.mpr ?_⟩
    · exact ⟨clean_of_all rfl, by decide⟩
    · exact ⟨clean_of_all rfl, by decide⟩
  obtain ⟨serialized, hSerialized, -, c, hPrepare, hAll⟩ := connectionInfos_recovered noFloats atEnd
    (onSockets true) (onSockets false) twoRanks ⟨⟨.inl rfl, rfl⟩, fun _ => rfl⟩ rfl rfl
    (by decide) (by decide) hClean
  obtain rfl := Except.ok.inj (hPrepare.symm.trans (prepare_primary rfl hSerialized))
  have hLength : (prepareConnection traceErrorConfig noFloats twoRanks).toOption.map List.length =
      some 109 := by
    decide +kernel
  have hTrace : (onSockets true).serializer = traceErrorConfig := rfl
  rw [← hTrace, hSerialized] at hLength
  have hShort : serialized.length < 2 ^ 64 := by
    rw [Option.some.inj hLength]
    decide
  have hNext : (InfoState.start.run
      ((setSerialized (onSockets true) serialized).getMyInfo 0 1)).heap.next = 12 := rfl
  obtain ⟨file, hFile, hPartner⟩ := hAll InfoState.start ⟨[], rfl⟩ someAddress 20
    (by rw [hNext]; decide) (Configuration.placed_someAddress InfoState.sound_start 20
      (by rw [hNext]; decide)) hShort
  obtain ⟨partnerInfo, hLoaded, -, hRank⟩ := hPartner InfoState.start.heap
  exact ⟨_, file, partnerInfo, hPrepare, hFile, hLoaded, hRank 1⟩

end CoSimIO.SocketCommunication
