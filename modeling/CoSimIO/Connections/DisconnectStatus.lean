import CoSimIO.Connections.Registry

/-! # The status that `Disconnect` reports

Two layers set `connection_status`: `Communication::Disconnect` knows whether there was a
connection to shut down, `Connection::Disconnect` sets the field again.
-/

namespace CoSimIO.Connections

set_option autoImplicit false

/-- `Communication::Disconnect` -/
def Connection.communicationDisconnect (connection : Connection) (phases : DisconnectPhases) :
    Connection × Except Text DisconnectInfo :=
  if connection.isConnected then
    match phases.disconnectDetail with
    | .error message => (connection, .error message)
    | .ok () =>
      let connection : Connection := { isConnected := false }
      match phases.baseDisconnectDetail with
      | .error message => (connection, .error message)
      | .ok () =>
        (connection, .ok {
          isConnected := false
          connectionStatus := if connection.isConnected then .disconnectionError else .disconnected })
  else (connection, .ok { isConnected := false, connectionStatus := .disconnectionError })

/-- What `Connection::Disconnect` sets in the info of the communication. -/
def DisconnectInfo.setDisconnected (info : DisconnectInfo) : DisconnectInfo :=
  { info with connectionStatus := .disconnected }

theorem disconnect_eq (connection : Connection) (phases : DisconnectPhases) :
    connection.disconnect phases = ((connection.communicationDisconnect phases).1,
      (connection.communicationDisconnect phases).2.map DisconnectInfo.setDisconnected) := by
  rw [Connection.disconnect, Connection.communicationDisconnect]
  split
  · cases phases.disconnectDetail with
    | error message => rfl
    | ok _ =>
      cases phases.baseDisconnectDetail with
      | error message => rfl
      | ok _ => rfl
  · rfl

/-- The call shuts down an established connection. -/
def Connection.ShutDown (connection : Connection) (phases : DisconnectPhases) : Prop :=
  connection.isConnected = true ∧
    (connection.communicationDisconnect phases).1.isConnected = false

/-- What the communication reported is what the caller gets, and it is true. -/
structure Tells (connection : Connection) (phases : DisconnectPhases) (info : DisconnectInfo) :
    Prop where
  shutDown : info.connectionStatus = .disconnected ↔ connection.ShutDown phases
  notShutDown : ¬ connection.ShutDown phases → info.connectionStatus = .disconnectionError
  layers : ∀ reported, (connection.communicationDisconnect phases).2 = .ok reported →
    reported.connectionStatus = info.connectionStatus

/-- No call of `Disconnect` returns a wrong status, or accesses a null pointer. -/
def Truthful (s : Session) : Operation → Prop
  | .connect _ _ => True
  | .disconnect connectionName phases =>
    match (disconnect s.registry connectionName phases).2 with
    | .raised _ => True
    | .undefined => False
    | .returned info => ∃ name connection, connectionName = .ok name ∧
        s.registry name = some (some connection) ∧ Tells connection phases info

/-- A registered object that `Disconnect` is called for is connected. -/
def Active (s : Session) : Operation → Prop
  | .connect _ _ => True
  | .disconnect connectionName _ => ∀ name entry, connectionName = .ok name →
      s.registry name = some entry → ∃ connection, entry = some connection ∧
        connection.isConnected = true

section Calls

variable {connection : Connection} {phases : DisconnectPhases} {info : DisconnectInfo}

theorem communicationDisconnect_cases
    (h : (connection.communicationDisconnect phases).2 = .ok info) :
    (connection.ShutDown phases ∧ info.connectionStatus = .disconnected) ∨
      (connection.isConnected = false ∧ info.connectionStatus = .disconnectionError) := by
  cases hConnected : connection.isConnected with
  | false =>
    rw [Connection.communicationDisconnect, hConnected] at h
    obtain rfl := Except.ok.inj h
    exact .inr ⟨rfl, rfl⟩
  | true =>
    rw [Connection.ShutDown, Connection.communicationDisconnect, if_pos hConnected]
    rw [Connection.communicationDisconnect, if_pos hConnected] at h
    cases hDetail : phases.disconnectDetail with
    | error message =>
      rw [hDetail] at h
      nomatch h
    | ok _ =>
      cases hBase : phases.baseDisconnectDetail with
      | error message =>
        rw [hDetail, hBase] at h
        nomatch h
      | ok _ =>
        rw [hDetail, hBase] at h
        obtain rfl := Except.ok.inj h
        exact .inl ⟨⟨hConnected, rfl⟩, rfl⟩

/-- The communication itself tells the truth, the other layer only about a connection. -/
theorem tells_disconnect_iff (h : (connection.disconnect phases).2 = .ok info) :
    Tells connection phases info ↔ connection.isConnected = true := by
  rw [disconnect_eq] at h
  cases hReported : (connection.communicationDisconnect phases).2 with
  | error message =>
    rw [hReported] at h
    nomatch h
  | ok reported =>
    rw [hReported] at h
    obtain rfl := Except.ok.inj h
    constructor
    · rintro hTells
      exact (hTells.shutDown.mp rfl).1
    · rintro hConnected
      rcases communicationDisconnect_cases hReported with ⟨hShutDown, hStatus⟩ | ⟨hNot, -⟩
      · refine ⟨iff_of_true rfl hShutDown, fun hNot => absurd hShutDown hNot, ?_⟩
        rintro other hOther
        rw [hReported] at hOther
        obtain rfl := Except.ok.inj hOther
        exact hStatus
      · rw [hConnected] at hNot
        nomatch hNot

theorem disconnect_ok_of_not_connected (h : connection.isConnected = false) :
    ∃ info, (connection.disconnect phases).2 = .ok info := by
  rw [Connection.disconnect, h]
  exact ⟨_, rfl⟩

variable {s : Session}

theorem truthful_iff_active (operation : Operation) :
    Truthful s operation ↔ Active s operation := by
  cases operation with
  | connect settings phases => exact Iff.rfl
  | disconnect connectionName phases =>
    cases connectionName with
    | error message =>
      refine iff_of_true trivial ?_
      rintro name entry hName
      cases hName
    | ok name =>
      have hActive : Active s (.disconnect (.ok name) phases) ↔
          ∀ entry, s.registry name = some entry → ∃ connection, entry = some connection ∧
            connection.isConnected = true :=
        ⟨fun h entry => h name entry rfl, fun h other entry hName =>
          Except.ok.inj hName ▸ h entry⟩
      rw [hActive, Truthful, Connections.disconnect]
      cases hEntry : s.registry name with
      | none =>
        refine iff_of_true trivial ?_
        rintro entry hEntry
        cases hEntry
      | some entry =>
        cases entry with
        | none =>
          refine iff_of_false id fun h => ?_
          obtain ⟨connection, hNull, -⟩ := h none rfl
          cases hNull
        | some connection =>
          dsimp only
          cases hResult : (connection.disconnect phases).2 with
          | error message =>
            refine iff_of_true trivial ?_
            rintro entry hSome
            refine ⟨connection, (Option.some.inj hSome).symm, ?_⟩
            by_contra hNot
            obtain ⟨info, hOk⟩ := disconnect_ok_of_not_connected (Bool.eq_false_iff.mpr hNot)
            rw [hResult] at hOk
            cases hOk
          | ok info =>
            dsimp only
            rw [← hEntry]
            constructor
            · rintro ⟨other, found, hName, hFound, hTells⟩ entry hSome
              obtain rfl := Except.ok.inj hName
              rw [hEntry] at hFound hSome
              obtain rfl := Option.some.inj (Option.some.inj hFound)
              exact ⟨connection, (Option.some.inj hSome).symm,
                (tells_disconnect_iff hResult).mp hTells⟩
            · rintro h
              obtain ⟨found, hFound, hConnected⟩ := h _ hEntry
              obtain rfl := Option.some.inj hFound
              exact ⟨name, connection, rfl, hEntry, (tells_disconnect_iff hResult).mpr hConnected⟩

end Calls

section Runs

variable {lhsFirst : Bool} {s : Session} {operations : List Operation}

theorem meets_truthful_iff :
    Schedule.Meets (Session.step lhsFirst) Truthful s operations ↔
      Schedule.Meets (Session.step lhsFirst) Active s operations := by
  induction operations generalizing s with
  | nil => exact Iff.rfl
  | cons operation operations ih =>
    rw [Schedule.Meets, Schedule.Meets, truthful_iff_active]
    exact and_congr_right fun _ => forall_congr' fun t => imp_congr_right fun _ => ih

/-- Where calls raise before the entry is made, and before the connection is shut down, no
object is left behind. -/
theorem Consistent.meets_active (h : Consistent s)
    (hClean : Schedule.Meets (Session.step lhsFirst) (Clean lhsFirst) s operations) :
    Schedule.Meets (Session.step lhsFirst) Active s operations := by
  induction operations generalizing s with
  | nil => trivial
  | cons operation operations ih =>
    refine ⟨?_, ?_⟩
    · cases operation with
      | connect settings phases => trivial
      | disconnect connectionName phases =>
        rintro name entry - hEntry
        exact ⟨_, h.connected name entry hEntry, rfl⟩
    · rintro t hStep
      have hAfter := h.perform hClean.1
      obtain rfl := Option.some.inj hStep
      exact ih hAfter (hClean.2 _ rfl)

end Runs

/-- In every run the status is true exactly when each call of `Disconnect` for a registered
object finds it connected; so it is in every run in which no call leaves an object behind. -/
theorem disconnect_truthful_iff (lhsFirst : Bool) (operations : List Operation) :
    (Schedule.Meets (Session.step lhsFirst) Truthful Session.init operations ↔
      Schedule.Meets (Session.step lhsFirst) Active Session.init operations) ∧
    (Schedule.Meets (Session.step lhsFirst) (Clean lhsFirst) Session.init operations →
      Schedule.Meets (Session.step lhsFirst) Truthful Session.init operations) := by
  refine ⟨meets_truthful_iff, ?_⟩
  rintro hClean
  exact meets_truthful_iff.mpr (Consistent.init.meets_active hClean)

def disconnectMyCode : Operation :=
  .disconnect (.ok "Kratos_my_code".toList) { disconnectDetail := .ok (), baseDisconnectDetail := .ok () }

theorem disconnect_truthful_iff_myCode :
    Schedule.Meets (Session.step false) (Clean false) Session.init
      [.connect myCode allPhases, disconnectMyCode] ∧
    Schedule.Meets (Session.step false) Truthful Session.init
      [.connect myCode allPhases, disconnectMyCode] := by
  have hClean : Schedule.Meets (Session.step false) (Clean false) Session.init
      [.connect myCode allPhases, disconnectMyCode] :=
    ⟨fun _ => ⟨rfl, rfl, rfl, rfl, rfl⟩, fun _ _ => ⟨fun _ _ _ => ⟨rfl, rfl⟩, fun _ _ => trivial⟩⟩
  exact ⟨hClean, (disconnect_truthful_iff false _).2 hClean⟩

/-- The handshake failed, so there is nothing to shut down, and the status is `Disconnected`. -/
theorem disconnect_after_mismatch :
    (disconnect (Session.init.perform false (.connect myCode mismatchingPartner)).registry
        (.ok "Kratos_my_code".toList) ⟨.ok (), .ok ()⟩).2 =
      .returned { isConnected := false, connectionStatus := .disconnected } ∧
    ¬ Schedule.Meets (Session.step false) Truthful Session.init
      [.connect myCode mismatchingPartner, disconnectMyCode] := by
  refine ⟨by decide, ?_⟩
  rintro ⟨-, hRest⟩
  have hActive := (truthful_iff_active _).mp (hRest _ rfl).1
  obtain ⟨connection, hEntry, hConnected⟩ :=
    hActive "Kratos_my_code".toList (some { isConnected := false }) rfl (by decide)
  obtain rfl := Option.some.inj hEntry
  nomatch hConnected

end CoSimIO.Connections
