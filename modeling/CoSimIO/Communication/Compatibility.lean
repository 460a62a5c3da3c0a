import CoSimIO.Communication.HandShake

/-! # What the checks of `HandShake` decide -/

namespace CoSimIO.HandShake

open Serializer

set_option autoImplicit false

/-- The classes are the same, and the settings that `DerivedHandShake` checks. -/
inductive SameSettings (c c' : Configuration) : Prop
  | file {useAuxFile useFileSerializer : Bool} (h : c.format = .file useAuxFile useFileSerializer)
      (h' : c'.format = .file useAuxFile useFileSerializer)
  | pipe {bufferSize : BitVec 64} (h : c.format = .pipe bufferSize)
      (h' : c'.format = .pipe bufferSize) (hSystem : c.operatingSystem = c'.operatingSystem)
  | localSocket (h : c.format = .localSocket) (h' : c'.format = .localSocket)
  | socket {serialized serialized' : Text} (h : c.format = .socket serialized)
      (h' : c'.format = .socket serialized')

structure Compatible (c c' : Configuration) : Prop where
  versionMajor : c.version.major = c'.version.major
  versionMinor : c.version.minor = c'.version.minor
  primaryWasExplicitlySpecified :
    c.primaryWasExplicitlySpecified = c'.primaryWasExplicitlySpecified
  format : c.format.name = c'.format.name
  size : c.size = c'.size
  alwaysUseSerializer : c.alwaysUseSerializer = c'.alwaysUseSerializer
  trace : c.serializer.trace = c'.serializer.trace
  settings : SameSettings c c'

theorem SameSettings.symm {c c' : Configuration} (h : SameSettings c c') :
    SameSettings c' c := by
  cases h with
  | file h h' => exact .file h' h
  | pipe h h' hSystem => exact .pipe h' h hSystem.symm
  | localSocket h h' => exact .localSocket h' h
  | socket h h' => exact .socket h' h

theorem Compatible.symm {c c' : Configuration} (h : Compatible c c') : Compatible c' c where
  versionMajor := h.versionMajor.symm
  versionMinor := h.versionMinor.symm
  primaryWasExplicitlySpecified := h.primaryWasExplicitlySpecified.symm
  format := h.format.symm
  size := h.size.symm
  alwaysUseSerializer := h.alwaysUseSerializer.symm
  trace := h.trace.symm
  settings := h.settings.symm

section Checks

variable {myInfo partnerInfo : LocatedInfo} {c c' : Configuration}
  {entries : List (Text × InfoValue)}

theorem OperatingSystem.name_injective {o o' : OperatingSystem} (h : o.name = o'.name) :
    o = o' := by
  revert h
  cases o with
  | _ =>
    cases o' with
    | _ => decide

theorem traceTypeToString_injective {t t' : TraceType}
    (h : traceTypeToString t = traceTypeToString t') : t = t' := by
  revert h
  cases t with
  | _ =>
    cases t' with
    | _ => decide

theorem locatedGet_eq {type : ScalarType} {v : type.kind.Carrier} {key : Text}
    (h : DenotesInfo partnerInfo.1 entries partnerInfo.2)
    (hFind : OrderedMap.find entries key = some (.scalar type v)) :
    partnerInfo.get type key = .ok v := by
  rw [LocatedInfo.get, get_scalar h hFind]
  rfl

theorem communicationSettings_eq (h : DenotesInfo partnerInfo.1 c.entries partnerInfo.2) :
    ∃ settings : LocatedInfo, partnerInfo.communicationSettings = .ok settings ∧
      DenotesInfo settings.1 c.settingsEntries settings.2 := by
  have hFind : OrderedMap.find c.entries "communication_settings".toList =
      some (.info c.settingsEntries) := rfl
  obtain ⟨settings, hSettings, hInner⟩ := get_info h hFind
  refine ⟨(partnerInfo.1, settings), ?_, hInner⟩
  rw [LocatedInfo.communicationSettings, hSettings]
  rfl

theorem seq_eq_ok {α : Type} {first : Except HandShakeError Unit} {later : Except HandShakeError α}
    {v : α} : (first >>= fun _ => later) = .ok v ↔ first = .ok () ∧ later = .ok v := by
  cases first with
  | error e => exact ⟨nofun, fun h => nomatch h.1⟩
  | ok u => exact ⟨fun h => ⟨rfl, h⟩, fun h => h.2⟩

theorem check_eq_ok {type : ScalarType} {key : Text} {mine v : type.kind.Carrier}
    {text : type.kind.Carrier → Text} {title between ending : Text}
    (h : DenotesInfo partnerInfo.1 entries partnerInfo.2)
    (hFind : OrderedMap.find entries key = some (.scalar type v)) :
    check partnerInfo type key mine text title between ending = .ok () ↔ mine = v := by
  rw [check, locatedGet_eq h hFind]
  change (if mine ≠ v then _ else _) = _ ↔ _
  split
  · next hNe => exact ⟨nofun, fun hEq => absurd hEq hNe⟩
  · next hEq => exact ⟨fun _ => not_not.mp hEq, fun _ => rfl⟩

theorem checkSettings_eq_ok {type : ScalarType} {key : Text} {mine v : type.kind.Carrier}
    {text : type.kind.Carrier → Text} {title between ending : Text}
    (hMy : DenotesInfo myInfo.1 c.entries myInfo.2)
    (hPartner : DenotesInfo partnerInfo.1 c'.entries partnerInfo.2)
    (hFind : OrderedMap.find c.settingsEntries key = some (.scalar type mine))
    (hFind' : OrderedMap.find c'.settingsEntries key = some (.scalar type v)) :
    checkSettings myInfo partnerInfo type key text title between ending = .ok () ↔ mine = v := by
  obtain ⟨mySettings, hMySettings, hMyEntries⟩ := communicationSettings_eq hMy
  obtain ⟨partnerSettings, hPartnerSettings, hPartnerEntries⟩ := communicationSettings_eq hPartner
  rw [checkSettings, hMySettings]
  change (mySettings.get type key >>= _) = _ ↔ _
  rw [locatedGet_eq hMyEntries hFind]
  change (partnerInfo.communicationSettings >>= _) = _ ↔ _
  rw [hPartnerSettings]
  exact check_eq_ok hPartnerEntries hFind'

theorem checkOperatingSystem_eq_ok (hMy : DenotesInfo myInfo.1 c.entries myInfo.2)
    (hPartner : DenotesInfo partnerInfo.1 c'.entries partnerInfo.2) :
    checkOperatingSystem myInfo partnerInfo = .ok () ↔
      c.operatingSystem = c'.operatingSystem := by
  have hFind : ∀ c : Configuration, OrderedMap.find c.entries "operating_system".toList =
      some (.scalar .string c.operatingSystem.name) := fun _ => rfl
  have hRun : checkOperatingSystem myInfo partnerInfo =
      check partnerInfo .string "operating_system".toList c.operatingSystem.name (fun _ => [])
        "Pipe communication cannot be used between different operating systems!\n".toList
        [] [] := by
    rw [checkOperatingSystem, locatedGet_eq hMy (hFind c)]
    rfl
  rw [hRun]
  exact (check_eq_ok hPartner (hFind c')).trans
    ⟨OperatingSystem.name_injective, congrArg OperatingSystem.name⟩

theorem find_useAuxFile {a b : Bool} (h : c.format = .file a b) :
    OrderedMap.find c.settingsEntries "use_aux_file_for_file_availability".toList =
      some (.scalar .bool a) := by
  rw [Configuration.settingsEntries, h]
  rfl

theorem find_useFileSerializer {a b : Bool} (h : c.format = .file a b) :
    OrderedMap.find c.settingsEntries "use_file_serializer".toList = some (.scalar .bool b) := by
  rw [Configuration.settingsEntries, h]
  rfl

theorem find_bufferSize {n : BitVec 64} (h : c.format = .pipe n) :
    OrderedMap.find c.settingsEntries "buffer_size".toList = some (.scalar .sizeT n) := by
  rw [Configuration.settingsEntries, h]
  rfl

def formatNames : List Text :=
  ["file".toList, "pipe".toList, "local_socket".toList, "socket".toList]

def formatIndex : CommunicationFormat → Fin 4
  | .file _ _ => 0
  | .pipe _ => 1
  | .localSocket => 2
  | .socket _ => 3

theorem formatIndex_eq_of_name {f f' : CommunicationFormat} (h : f.name = f'.name) :
    formatIndex f = formatIndex f' := by
  have hNodup : formatNames.Nodup := by decide
  have hGet : ∀ f : CommunicationFormat, formatNames.get (formatIndex f) = f.name := by
    intro f
    cases f with
    | _ => rfl
  exact List.nodup_iff_injective_get.mp hNodup ((hGet f).trans (h.trans (hGet f').symm))

theorem derivedHandShake_eq_ok (hMy : DenotesInfo myInfo.1 c.entries myInfo.2)
    (hPartner : DenotesInfo partnerInfo.1 c'.entries partnerInfo.2)
    (hName : c.format.name = c'.format.name) :
    derivedHandShake c myInfo partnerInfo = .ok () ↔ SameSettings c c' := by
  have hIndex := formatIndex_eq_of_name hName
  rw [derivedHandShake]
  cases hFormat : c.format with
  | file a b =>
    cases hFormat' : c'.format with
    | file a' b' =>
      have hAux : checkUseAuxFile myInfo partnerInfo = .ok () ↔ a = a' :=
        checkSettings_eq_ok hMy hPartner (find_useAuxFile hFormat) (find_useAuxFile hFormat')
      have hFile : checkUseFileSerializer myInfo partnerInfo = .ok () ↔ b = b' :=
        checkSettings_eq_ok hMy hPartner (find_useFileSerializer hFormat)
          (find_useFileSerializer hFormat')
      refine (seq_eq_ok.trans (and_congr hAux hFile)).trans ⟨?_, ?_⟩
      · rintro ⟨rfl, rfl⟩
        exact .file hFormat hFormat'
      · intro hSame
        cases hSame with
        | file h h' =>
          obtain ⟨rfl, rfl⟩ := CommunicationFormat.file.inj (hFormat.symm.trans h)
          obtain ⟨rfl, rfl⟩ := CommunicationFormat.file.inj (hFormat'.symm.trans h')
          exact ⟨rfl, rfl⟩
        | pipe h => nomatch hFormat.symm.trans h
        | localSocket h => nomatch hFormat.symm.trans h
        | socket h => nomatch hFormat.symm.trans h
    | _ =>
      rw [hFormat, hFormat'] at hIndex
      nomatch hIndex
  | pipe n =>
    cases hFormat' : c'.format with
    | pipe n' =>
      have hSize : checkBufferSize myInfo partnerInfo = .ok () ↔ n = n' :=
        checkSettings_eq_ok hMy hPartner (find_bufferSize hFormat) (find_bufferSize hFormat')
      have hSystem := checkOperatingSystem_eq_ok hMy hPartner
      refine (seq_eq_ok.trans (and_congr hSystem hSize)).trans ⟨?_, ?_⟩
      · rintro ⟨hSystem, rfl⟩
        exact .pipe hFormat hFormat' hSystem
      · intro hSame
        cases hSame with
        | pipe h h' hSystem =>
          obtain rfl := CommunicationFormat.pipe.inj (hFormat.symm.trans h)
          obtain rfl := CommunicationFormat.pipe.inj (hFormat'.symm.trans h')
          exact ⟨hSystem, rfl⟩
        | file h => nomatch hFormat.symm.trans h
        | localSocket h => nomatch hFormat.symm.trans h
        | socket h => nomatch hFormat.symm.trans h
    | _ =>
      rw [hFormat, hFormat'] at hIndex
      nomatch hIndex
  | localSocket =>
    cases hFormat' : c'.format with
    | localSocket => exact ⟨fun _ => .localSocket hFormat hFormat', fun _ => rfl⟩
    | _ =>
      rw [hFormat, hFormat'] at hIndex
      nomatch hIndex
  | socket t =>
    cases hFormat' : c'.format with
    | socket t' => exact ⟨fun _ => .socket hFormat hFormat', fun _ => rfl⟩
    | _ =>
      rw [hFormat, hFormat'] at hIndex
      nomatch hIndex

theorem check_seq_eq_ok {type : ScalarType} {key : Text} {mine v : type.kind.Carrier}
    {text : type.kind.Carrier → Text} {title between ending : Text} {P : Prop}
    {later : Except HandShakeError Unit} (h : DenotesInfo partnerInfo.1 entries partnerInfo.2)
    (hFind : OrderedMap.find entries key = some (.scalar type v)) (hLater : later = .ok () ↔ P) :
    (check partnerInfo type key mine text title between ending >>= fun _ => later) = .ok () ↔
      mine = v ∧ P :=
  seq_eq_ok.trans (and_congr (check_eq_ok h hFind) hLater)

/-- `HandShake` returns normally when the partners are compatible. -/
theorem compatibilityChecks_eq_ok (hMy : DenotesInfo myInfo.1 c.entries myInfo.2)
    (hPartner : DenotesInfo partnerInfo.1 c'.entries partnerInfo.2) :
    compatibilityChecks c myInfo partnerInfo = .ok () ↔ Compatible c c' := by
  have hMajor : OrderedMap.find c'.entries "version_major".toList =
      some (.scalar .int c'.version.major) := rfl
  have hMinor : OrderedMap.find c'.entries "version_minor".toList =
      some (.scalar .int c'.version.minor) := rfl
  have hPrimary : OrderedMap.find c'.entries "primary_was_explicitly_specified".toList =
      some (.scalar .bool c'.primaryWasExplicitlySpecified) := rfl
  have hFormat : OrderedMap.find c'.entries "communication_format".toList =
      some (.scalar .string c'.format.name) := rfl
  have hSize : OrderedMap.find c'.entries "num_processes".toList =
      some (.scalar .int c'.size) := rfl
  have hAlways : OrderedMap.find c'.entries "always_use_serializer".toList =
      some (.scalar .bool c'.alwaysUseSerializer) := rfl
  have hTrace : OrderedMap.find c'.entries "serializer_trace_type".toList =
      some (.scalar .string (traceTypeToString c'.serializer.trace)) := rfl
  have hEndian : partnerInfo.get .bool "is_big_endian".toList = .ok c'.isBigEndian :=
    locatedGet_eq hPartner rfl
  have hDerived : (do
      let _ ← partnerInfo.get .bool "is_big_endian".toList
      derivedHandShake c myInfo partnerInfo) = .ok () ↔
        derivedHandShake c myInfo partnerInfo = .ok () := by
    rw [hEndian]
    rfl
  refine (check_seq_eq_ok hPartner hMajor (check_seq_eq_ok hPartner hMinor
    (check_seq_eq_ok hPartner hPrimary (check_seq_eq_ok hPartner hFormat
      (check_seq_eq_ok hPartner hSize (check_seq_eq_ok hPartner hAlways
        (check_seq_eq_ok hPartner hTrace hDerived))))))).trans ⟨?_, ?_⟩
  · rintro ⟨hMajor, hMinor, hPrimary, hFormat, hSize, hAlways, hTrace, hSettings⟩
    exact ⟨hMajor, hMinor, hPrimary, hFormat, hSize, hAlways, traceTypeToString_injective hTrace,
      (derivedHandShake_eq_ok hMy hPartner hFormat).mp hSettings⟩
  · intro h
    exact ⟨h.versionMajor, h.versionMinor, h.primaryWasExplicitlySpecified, h.format, h.size,
      h.alwaysUseSerializer, congrArg traceTypeToString h.trace,
      (derivedHandShake_eq_ok hMy hPartner h.format).mpr h.settings⟩

end Checks

end CoSimIO.HandShake
