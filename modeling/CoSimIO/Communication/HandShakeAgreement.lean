import CoSimIO.Communication.Compatibility
import CoSimIO.Communication.HandShakeRuns
import CoSimIO.Communication.SocketConnection

/-! # The partners of a connection decide the same in `HandShake` -/

namespace CoSimIO.HandShake

open FileProcess FileScript Serializer

set_option autoImplicit false

/-- A partner of a `SocketCommunication` has called `PrepareConnection`. All objects of the
process have their own places in its memory. -/
structure Partner.Ready (p : Partner) (floats : FloatText) (depth : Nat) : Prop where
  reachable : p.state.Reachable
  connection : ∀ t, p.configuration.format = .socket t → t.length < 2 ^ 64 ∧
    ∃ before connInfos, SocketCommunication.prepare floats before connInfos = .ok p.configuration
  objects : (p.state.run (p.configuration.getMyInfo 0 1)).heap.next < depth
  placed : p.configuration.Placed p.state p.layout depth

/-- What follows when the file of the other partner is read. -/
def afterExchange (c : Communication) (depth : Nat) (p : Partner) (received : Text) :
    Script Text Char LocatedInfo (Except HandShakeError Unit) :=
  match Info.loadFile p.configuration.serializer depth p.myInfo.1 received with
  | .error message => .ended (.error (.serializer message))
  | .ok partnerInfo =>
    .report partnerInfo (.run (Communication.removePath (infoFile c p.side.other)) fun _ =>
      .ended (compatibilityChecks p.configuration p.myInfo partnerInfo))

/-- The partners after a schedule -/
def handShakes (c : Communication) (depth : Nat) (p : Side → Partner) (store : Store Text Char)
    (schedule : List Side) : World Side Text Char LocatedInfo (Except HandShakeError Unit) :=
  run (start store fun side => handShake c depth (p side)) schedule

section Partners

variable {c : Communication} {floats : FloatText} {depth : Nat} {p : Side → Partner}

theorem plain_of_prepare {before configuration : Configuration}
    {connInfos : List ConnectionInfo}
    (h : SocketCommunication.prepare floats before connInfos = .ok configuration) {t : Text}
    (hFormat : configuration.format = .socket t)
    (hMode : configuration.serializer.binary = false) : '"' ∉ t ∧ '\n' ∉ t := by
  rw [SocketCommunication.prepare] at h
  split at h
  · cases hPrepare : SocketCommunication.prepareConnection before.serializer floats connInfos with
    | error e =>
      rw [hPrepare] at h
      cases h
    | ok serialized =>
      rw [hPrepare] at h
      obtain rfl := Except.ok.inj h
      obtain rfl := CommunicationFormat.socket.inj hFormat
      exact SocketCommunication.plain_of_prepareConnection hPrepare hMode
  · obtain rfl := Except.ok.inj h
    obtain rfl := CommunicationFormat.socket.inj hFormat
    exact ⟨List.not_mem_nil, List.not_mem_nil⟩

theorem Partner.Ready.prepared {p : Partner} (h : p.Ready floats depth) :
    p.configuration.Prepared := by
  intro t hFormat
  obtain ⟨hLength, before, connInfos, hPrepare⟩ := h.connection t hFormat
  exact ⟨hLength, plain_of_prepare hPrepare hFormat⟩

theorem Partner.Ready.denotes {p : Partner} (h : p.Ready floats depth) :
    DenotesInfo p.myInfo.1 p.configuration.entries p.myInfo.2 :=
  Configuration.denotesInfo_getMyInfo h.reachable.sound (by decide)

/-- Each partner saves its info, and the other one loads it. -/
theorem exists_files (hReady : ∀ side, (p side).Ready floats depth)
    (hFormat : ∀ side, (p side).configuration.SameFileFormat (p side.other).configuration) :
    ∃ (data : Side → Text) (partnerInfo : Side → LocatedInfo), ∀ side,
      (p side).configuration.savedInfo (p side).state (p side).layout depth = .ok (data side) ∧
      Info.loadFile (p side).configuration.serializer depth (p side).myInfo.1 (data side.other) =
        .ok (partnerInfo side) ∧
      DenotesInfo (partnerInfo side).1 (p side.other).configuration.entries
        (partnerInfo side).2 := by
  have hSaved := fun side => Configuration.loadFile_of_savedInfo (hFormat side).serializer
    (hReady side).prepared (hReady side).reachable.sound (hReady side).objects (hReady side).placed
  choose data hData hLoad using hSaved
  have hReceived : ∀ side, ∃ r,
      Info.loadFile (p side).configuration.serializer depth (p side).myInfo.1 (data side.other) =
        .ok r ∧ DenotesInfo r.1 (p side.other).configuration.entries r.2 := by
    intro side
    have hOther := hLoad side.other (p side).myInfo.1
    rwa [Side.other_other] at hOther
  choose partnerInfo hPartner hInfo using hReceived
  exact ⟨data, partnerInfo, fun side => ⟨hData side, hPartner side, hInfo side⟩⟩

variable {data : Side → Text} {partnerInfo : Side → LocatedInfo}

theorem handShake_eq {p : Partner} {file : Text}
    (hSaved : p.configuration.savedInfo p.state p.layout depth = .ok file) :
    handShake c depth p = .run (openMyFile c p.side) fun _ =>
      .run (exchangeFiles c p.side p.buffering file) (afterExchange c depth p) := by
  rw [handShake, hSaved]
  rfl

theorem afterExchange_eq {p : Partner} {file : Text} {partnerInfo : LocatedInfo}
    (hLoad : Info.loadFile p.configuration.serializer depth p.myInfo.1 file = .ok partnerInfo) :
    afterExchange c depth p file =
      .report partnerInfo (.run (Communication.removePath (infoFile c p.side.other)) fun _ =>
        .ended (compatibilityChecks p.configuration p.myInfo partnerInfo)) := by
  rw [afterExchange, hLoad]

/-- The exchange of the two infos -/
def infoPlan (c : Communication) (depth : Nat) (p : Side → Partner) (data : Side → Text)
    (partnerInfo : Side → LocatedInfo) (hSides : ∀ side, (p side).side = side)
    (hLoad : ∀ side, Info.loadFile (p side).configuration.serializer depth (p side).myInfo.1
      (data side.other) = .ok (partnerInfo side)) :
    Plan c LocatedInfo (Except HandShakeError Unit) where
  data := data
  buffering side := (p side).buffering
  after side := afterExchange c depth (p side)
  event := partnerInfo
  result side := compatibilityChecks (p side).configuration (p side).myInfo (partnerInfo side)
  after_data side := by
    rw [afterExchange_eq (hLoad side), hSides side]

theorem infoPlan_script (hSides : ∀ side, (p side).side = side)
    (hSaved : ∀ side,
      (p side).configuration.savedInfo (p side).state (p side).layout depth = .ok (data side))
    (hLoad : ∀ side, Info.loadFile (p side).configuration.serializer depth (p side).myInfo.1
      (data side.other) = .ok (partnerInfo side)) :
    (fun side => handShake c depth (p side)) =
      (infoPlan c depth p data partnerInfo hSides hLoad).script := by
  funext side
  rw [handShake_eq (hSaved side), hSides side]
  rfl

theorem checks_eq_ok (hReady : ∀ side, (p side).Ready floats depth)
    (hInfo : ∀ side, DenotesInfo (partnerInfo side).1 (p side.other).configuration.entries
      (partnerInfo side).2) (side : Side) :
    compatibilityChecks (p side).configuration (p side).myInfo (partnerInfo side) = .ok () ↔
      Compatible (p .primary).configuration (p .secondary).configuration := by
  have hChecks := compatibilityChecks_eq_ok (hReady side).denotes (hInfo side)
  cases side with
  | primary => exact hChecks
  | secondary => exact hChecks.trans ⟨Compatible.symm, Compatible.symm⟩

end Partners

/-- Each partner gets what `GetMyInfo` returned to the other one, however the two processes take
turns. Both return when they are compatible, else both raise an error. -/
theorem handShake_agree (c : Communication) (floats : FloatText) (depth : Nat) (p : Side → Partner)
    (store : Store Text Char) (hSides : ∀ side, (p side).side = side)
    (hFormat : (p .primary).configuration.SameFileFormat (p .secondary).configuration)
    (hReady : ∀ side, (p side).Ready floats depth) (hFresh : Plan.NoFiles c store) :
    ∃ partnerInfo : Side → LocatedInfo,
      (∀ side, EqualInfo (partnerInfo side).1 (partnerInfo side).2
        (p side.other).myInfo.1 (p side.other).myInfo.2) ∧
      (∀ schedule side,
        ((handShakes c depth p store schedule).party side).failed = none ∧
        (((handShakes c depth p store schedule).party side).reported = [] ∨
          ((handShakes c depth p store schedule).party side).reported = [partnerInfo side]) ∧
        ∀ r, ((handShakes c depth p store schedule).party side).result = some r →
          ((handShakes c depth p store schedule).party side).reported = [partnerInfo side] ∧
          (r = .ok () ↔ Compatible (p .primary).configuration (p .secondary).configuration)) ∧
      (∀ schedule r r',
        ((handShakes c depth p store schedule).party .primary).result = some r →
        ((handShakes c depth p store schedule).party .secondary).result = some r' →
        (r = .ok () ↔ r' = .ok ())) ∧
      ∃ turns, ∀ rounds : List (List Side), (∀ round ∈ rounds, ∀ side, side ∈ round) →
        turns < rounds.length → ∀ side, ∃ r,
          ((handShakes c depth p store rounds.flatten).party side).result = some r := by
  have hFormats : ∀ side,
      (p side).configuration.SameFileFormat (p side.other).configuration := by
    intro side
    cases side with
    | primary => exact hFormat
    | secondary => exact hFormat.symm
  obtain ⟨data, partnerInfo, hFiles⟩ := exists_files hReady hFormats
  have hSaved := fun side => (hFiles side).1
  have hLoad := fun side => (hFiles side).2.1
  have hInfo := fun side => (hFiles side).2.2
  have hScript := infoPlan_script (c := c) hSides hSaved hLoad
  have hRun : ∀ schedule, handShakes c depth p store schedule =
      run (start store (infoPlan c depth p data partnerInfo hSides hLoad).script) schedule := by
    intro schedule
    rw [handShakes, hScript]
  have hOutcome := (infoPlan c depth p data partnerInfo hSides hLoad).run_outcome hFresh
  have hVerdict := checks_eq_ok hReady hInfo
  have hResult : ∀ schedule side r,
      ((handShakes c depth p store schedule).party side).result = some r →
      ((handShakes c depth p store schedule).party side).reported = [partnerInfo side] ∧
        (r = .ok () ↔ Compatible (p .primary).configuration (p .secondary).configuration) := by
    intro schedule side r hParty
    rw [hRun] at hParty ⊢
    obtain ⟨rfl, hReported⟩ := (hOutcome schedule side).result r hParty
    exact ⟨hReported, hVerdict side⟩
  refine ⟨partnerInfo, ?_, ?_, ?_, ?_⟩
  · intro side
    exact ⟨_, hInfo side, (hReady side.other).denotes⟩
  · intro schedule side
    refine ⟨?_, ?_, hResult schedule side⟩
    · rw [hRun]
      exact (hOutcome schedule side).failed
    · rw [hRun]
      exact (hOutcome schedule side).reported
  · intro schedule r r' hPrimary hSecondary
    exact (hResult schedule _ r hPrimary).2.trans (hResult schedule _ r' hSecondary).2.symm
  · refine ⟨(infoPlan c depth p data partnerInfo hSides hLoad).initial.total, ?_⟩
    intro rounds hRounds hLength side
    rw [hRun]
    exact ⟨_, Plan.run_result _ hFresh hRounds hLength side⟩

def onFiles (isPrimaryConnection : Bool) : Configuration where
  version := .this
  isPrimaryConnection := isPrimaryConnection
  primaryWasExplicitlySpecified := true
  operatingSystem := .linux
  size := 1
  isBigEndian := false
  alwaysUseSerializer := false
  serializer := traceErrorConfig
  format := .file false true

def inFolder : Communication where
  connectionName := "a_b".toList
  commFolder := "./.CoSimIOComm_a_b".toList
  commInFolder := true

def atOnce : Buffering where
  pieces file := [file]
  portions := []
  flatten_pieces _ := List.flatten_singleton

def partnerOnFiles : Side → Partner
  | .primary => ⟨onFiles true, InfoState.start, someAddress, atOnce⟩
  | .secondary => ⟨onFiles false, InfoState.start, someAddress, atOnce⟩

theorem handShake_agree_onFiles : ∃ schedule,
    ((handShakes inFolder 20 partnerOnFiles Store.empty schedule).party
      .primary).result = some (.ok ()) ∧
    ((handShakes inFolder 20 partnerOnFiles Store.empty schedule).party
      .secondary).result = some (.ok ()) := by
  have hSides : ∀ side, (partnerOnFiles side).side = side := by
    intro side
    cases side with
    | primary => rfl
    | secondary => rfl
  have hReady : ∀ side, (partnerOnFiles side).Ready noFloats 20 := by
    intro side
    cases side with
    | primary =>
      exact ⟨⟨[], rfl⟩, nofun, by decide +kernel,
        Configuration.placed_someAddress InfoState.sound_start 20 (by decide +kernel)⟩
    | secondary =>
      exact ⟨⟨[], rfl⟩, nofun, by decide +kernel,
        Configuration.placed_someAddress InfoState.sound_start 20 (by decide +kernel)⟩
  have hCompatible : Compatible (partnerOnFiles .primary).configuration
      (partnerOnFiles .secondary).configuration :=
    ⟨rfl, rfl, rfl, rfl, rfl, rfl, rfl, .file rfl rfl⟩
  obtain ⟨partnerInfo, -, hRuns, -, turns, hEnds⟩ := handShake_agree inFolder
    noFloats 20 partnerOnFiles Store.empty hSides ⟨⟨.inl rfl, rfl⟩, fun _ => rfl⟩ hReady
    (fun _ => ⟨rfl, rfl⟩)
  let rounds := List.replicate (turns + 1) [Side.primary, Side.secondary]
  have hRounds : ∀ round ∈ rounds, ∀ side, side ∈ round := by
    intro round hRound side
    obtain rfl := List.eq_of_mem_replicate hRound
    cases side with
    | primary => exact .head _
    | secondary => exact .tail _ (.head _)
  have hEnded := hEnds rounds hRounds (by rw [List.length_replicate]; exact Nat.lt_succ_self _)
  refine ⟨rounds.flatten, ?_, ?_⟩
  · obtain ⟨r, hResult⟩ := hEnded .primary
    rw [hResult, ((hRuns _ _).2.2 r hResult).2.mpr hCompatible]
  · obtain ⟨r, hResult⟩ := hEnded .secondary
    rw [hResult, ((hRuns _ _).2.2 r hResult).2.mpr hCompatible]

end CoSimIO.HandShake
