import CoSimIO.Basic
import CoSimIO.Library.Schedule
import Mathlib.Logic.Function.Basic
import Mathlib.Tactic.Common

/-! # The registry of connections

The registry maps connection names to pointers. What depends on the settings beyond
the two names, on files, sockets or on the partner is given with each call: for every
phase of connecting and disconnecting the error that it raises, if any. The operands
of `s_co_sim_connections[connection_name] = make_unique(..)` are evaluated in an order
that the compiler chooses; `lhsFirst` says that the entry is made first.
-/

namespace CoSimIO.Connections

open Utilities

set_option autoImplicit false

inductive Outcome (α : Type)
  | returned (value : α)
  | raised (message : Text)
  | undefined
deriving DecidableEq

inductive ConnectionStatus
  | notConnected
  | connected
  | disconnected
  | connectionError
  | disconnectionError
deriving DecidableEq

structure Connection where
  isConnected : Bool
deriving DecidableEq

/-- The entries of the registry; the pointer of an entry may be null. -/
abbrev Registry := Text → Option (Option Connection)

def hasConnection (r : Registry) (name : Text) : Bool := (r name).isSome

/-- What reading `my_name` and `connect_to` from the settings gives or raises. -/
structure Settings where
  myName : Except Text Text
  connectTo : Except Text Text

structure ConnectPhases where
  construction : Except Text Unit
  baseConnectDetail : Except Text Unit
  prepareConnection : Except Text Unit
  handShake : Except Text Unit
  connectDetail : Except Text Unit

structure DisconnectPhases where
  disconnectDetail : Except Text Unit
  baseDisconnectDetail : Except Text Unit

structure ConnectInfo where
  connectionName : Text
  isConnected : Bool
  connectionStatus : ConnectionStatus
deriving DecidableEq

structure DisconnectInfo where
  isConnected : Bool
  connectionStatus : ConnectionStatus
deriving DecidableEq

def checkedName (settings : Settings) : Except Text Text := do
  let myName ← settings.myName
  let connectTo ← settings.connectTo
  checkEntry myName "my_name".toList
  checkEntry connectTo "connect_to".toList
  if myName = connectTo then throw "Connecting to self is not allowed!\n".toList
  return createConnectionName myName connectTo

def alreadyExists (settings : Settings) : Text :=
  "A connection from \"".toList ++ settings.myName.toOption.getD [] ++ "\" to \"".toList ++
    settings.connectTo.toOption.getD [] ++ "\"already exists!\n".toList

def Connection.connect (connection : Connection) (phases : ConnectPhases) :
    Connection × Except Text Unit :=
  if connection.isConnected then (connection, .error "A connection was already established!\n".toList)
  else
    let detail : Except Text Unit := do
      phases.baseConnectDetail
      phases.prepareConnection
      phases.handShake
      phases.connectDetail
    match detail with
    | .error message => (connection, .error message)
    | .ok () => ({ isConnected := true }, .ok ())

def connectImpl (lhsFirst : Bool) (r : Registry) (settings : Settings) (phases : ConnectPhases) :
    Registry × Outcome ConnectInfo :=
  match checkedName settings with
  | .error message => (r, .raised message)
  | .ok name =>
    if hasConnection r name then (r, .raised (alreadyExists settings))
    else match phases.construction with
      | .error message =>
        (if lhsFirst then Function.update r name (some none) else r, .raised message)
      | .ok () =>
        let connection : Connection := { isConnected := false }
        let result := connection.connect phases
        (Function.update r name (some (some result.1)),
          match result.2 with
          | .error message => .raised message
          | .ok () => .returned {
              connectionName := name, isConnected := true, connectionStatus := .connected })

def doesNotExist (name : Text) : Text :=
  "Trying to disconnect connection \"".toList ++ name ++ "\" which does not exist!\n".toList

/-- A connection that is not connected is removed with no further action, and
`Connection::Disconnect` overwrites the status in both cases. -/
def Connection.disconnect (connection : Connection) (phases : DisconnectPhases) :
    Connection × Except Text DisconnectInfo :=
  if connection.isConnected then
    match phases.disconnectDetail with
    | .error message => (connection, .error message)
    | .ok () => match phases.baseDisconnectDetail with
      | .error message => ({ isConnected := false }, .error message)
      | .ok () => ({ isConnected := false },
          .ok { isConnected := false, connectionStatus := .disconnected })
  else (connection, .ok { isConnected := false, connectionStatus := .disconnected })

def disconnect (r : Registry) (connectionName : Except Text Text) (phases : DisconnectPhases) :
    Registry × Outcome DisconnectInfo :=
  match connectionName with
  | .error message => (r, .raised message)
  | .ok name => match r name with
    | none => (r, .raised (doesNotExist name))
    | some none => (r, .undefined)
    | some (some connection) =>
      let result := connection.disconnect phases
      match result.2 with
      | .error message => (Function.update r name (some (some result.1)), .raised message)
      | .ok info => (Function.update r name none, .returned info)

inductive Operation
  | connect (settings : Settings) (phases : ConnectPhases)
  | disconnect (connectionName : Except Text Text) (phases : DisconnectPhases)

/-- What happened to a name: a call of `Connect` for it and whether it returned, or a call
of `Disconnect` for it. -/
inductive Event
  | connect (name : Text) (succeeded : Bool)
  | disconnect (name : Text)

/-- The registry and the events so far, the latest one first. -/
structure Session where
  registry : Registry
  events : List Event

def Session.init : Session := { registry := fun _ => none, events := [] }

/-- The name that a call of `Connect` is for, whether or not it passes the checks. -/
def Settings.name (settings : Settings) : Except Text Text := do
  let myName ← settings.myName
  let connectTo ← settings.connectTo
  return createConnectionName myName connectTo

def Outcome.isReturned {α : Type} : Outcome α → Bool
  | .returned _ => true
  | _ => false

def Session.perform (lhsFirst : Bool) (s : Session) : Operation → Session
  | .connect settings phases =>
    let result := connectImpl lhsFirst s.registry settings phases
    { registry := result.1
      events := match settings.name with
        | .error _ => s.events
        | .ok name => .connect name result.2.isReturned :: s.events }
  | .disconnect connectionName phases =>
    let result := CoSimIO.Connections.disconnect s.registry connectionName phases
    { registry := result.1
      events := match connectionName with
        | .error _ => s.events
        | .ok name => .disconnect name :: s.events }

/-- The last `Connect` for the name that succeeded was not followed by a `Disconnect`. -/
def lastSuccessStands (name : Text) : List Event → Bool
  | [] => false
  | .connect other succeeded :: events =>
    if other = name ∧ succeeded = true then true else lastSuccessStands name events
  | .disconnect other :: events => if other = name then false else lastSuccessStands name events

/-- The last `Connect` for the name succeeded and was not followed by a `Disconnect`. -/
def lastConnectStands (name : Text) : List Event → Bool
  | [] => false
  | .connect other succeeded :: events =>
    if other = name then succeeded else lastConnectStands name events
  | .disconnect other :: events => if other = name then false else lastConnectStands name events

def ConnectPhases.Succeed (phases : ConnectPhases) : Prop :=
  phases.construction = .ok () ∧ phases.baseConnectDetail = .ok () ∧
    phases.prepareConnection = .ok () ∧ phases.handShake = .ok () ∧ phases.connectDetail = .ok ()

def DisconnectPhases.Succeed (phases : DisconnectPhases) : Prop :=
  phases.disconnectDetail = .ok () ∧ phases.baseDisconnectDetail = .ok ()

/-- The call comes to the point where the entry exists. -/
def Inserts (lhsFirst : Bool) (r : Registry) (settings : Settings) (phases : ConnectPhases) : Prop :=
  ∃ name, checkedName settings = .ok name ∧ r name = none ∧
    (lhsFirst = true ∨ phases.construction = .ok ())

/-- No error is raised after the entry was made, or before it is removed. -/
def Clean (lhsFirst : Bool) (s : Session) : Operation → Prop
  | .connect settings phases => Inserts lhsFirst s.registry settings phases → phases.Succeed
  | .disconnect connectionName phases =>
    ∀ name, connectionName = .ok name → s.registry name ≠ none → phases.Succeed

section Calls

variable {lhsFirst : Bool} {r : Registry} {settings : Settings} {phases : ConnectPhases}
  {name : Text}

theorem name_of_checkedName (h : checkedName settings = .ok name) : settings.name = .ok name := by
  unfold checkedName at h
  unfold Settings.name
  cases hMy : settings.myName with
  | error message => rw [hMy] at h; cases h
  | ok myName =>
    cases hTo : settings.connectTo with
    | error message => rw [hMy, hTo] at h; cases h
    | ok connectTo =>
      rw [hMy, hTo] at h
      simp only [bind, Except.bind] at h ⊢
      split at h
      · cases h
      · split at h
        · cases h
        · split at h
          · cases h
          · exact h

theorem connect_of_succeed (h : phases.Succeed) :
    Connection.connect { isConnected := false } phases = ({ isConnected := true }, .ok ()) := by
  obtain ⟨-, hBase, hPrepare, hHandShake, hDetail⟩ := h
  simp only [Connection.connect, hBase, hPrepare, hHandShake, hDetail]
  rfl

theorem connect_of_not_succeed (hConstruction : phases.construction = .ok ())
    (h : ¬ phases.Succeed) : ∃ message,
    Connection.connect { isConnected := false } phases = ({ isConnected := false }, .error message) := by
  unfold Connection.connect
  cases hBase : phases.baseConnectDetail with
  | error message => exact ⟨message, rfl⟩
  | ok _ =>
    cases hPrepare : phases.prepareConnection with
    | error message => exact ⟨message, rfl⟩
    | ok _ =>
      cases hHandShake : phases.handShake with
      | error message => exact ⟨message, rfl⟩
      | ok _ =>
        cases hDetail : phases.connectDetail with
        | error message => exact ⟨message, rfl⟩
        | ok _ => exact absurd ⟨hConstruction, hBase, hPrepare, hHandShake, hDetail⟩ h

theorem connectImpl_of_not_inserts (h : ¬ Inserts lhsFirst r settings phases) :
    ∃ message, connectImpl lhsFirst r settings phases = (r, .raised message) := by
  unfold connectImpl
  cases hName : checkedName settings with
  | error message => exact ⟨message, rfl⟩
  | ok name =>
    cases hEntry : r name with
    | some entry => exact ⟨alreadyExists settings, by simp [hasConnection, hEntry]⟩
    | none =>
      cases hConstruction : phases.construction with
      | ok _ => exact absurd ⟨name, hName, hEntry, Or.inr hConstruction⟩ h
      | error message =>
        cases hOrder : lhsFirst with
        | true => exact absurd ⟨name, hName, hEntry, Or.inl hOrder⟩ h
        | false => exact ⟨message, by simp [hasConnection, hEntry]⟩

theorem connectImpl_of_succeed (hName : checkedName settings = .ok name) (hEntry : r name = none)
    (h : phases.Succeed) : connectImpl lhsFirst r settings phases =
      (Function.update r name (some (some { isConnected := true })), .returned {
        connectionName := name, isConnected := true, connectionStatus := .connected }) := by
  simp [connectImpl, hName, hasConnection, hEntry, h.1, connect_of_succeed h]

theorem connectImpl_of_not_succeed (hInserts : Inserts lhsFirst r settings phases)
    (h : ¬ phases.Succeed) : ∃ name entry message, r name = none ∧
      connectImpl lhsFirst r settings phases =
        (Function.update r name (some entry), .raised message) := by
  obtain ⟨name, hName, hEntry, hOrder⟩ := hInserts
  cases hConstruction : phases.construction with
  | error message =>
    have hFirst : lhsFirst = true := hOrder.resolve_right (by rw [hConstruction]; nofun)
    refine ⟨name, none, message, hEntry, ?_⟩
    simp [connectImpl, hName, hasConnection, hEntry, hConstruction, hFirst]
  | ok _ =>
    obtain ⟨message, hConnect⟩ := connect_of_not_succeed hConstruction h
    refine ⟨name, some { isConnected := false }, message, hEntry, ?_⟩
    simp [connectImpl, hName, hasConnection, hEntry, hConstruction, hConnect]

theorem connect_keeps_registry_iff :
    (∀ message, (connectImpl lhsFirst r settings phases).2 = .raised message →
        (connectImpl lhsFirst r settings phases).1 = r) ↔
      (Inserts lhsFirst r settings phases → phases.Succeed) := by
  constructor
  · intro hKeeps hInserts
    by_contra hFailed
    obtain ⟨name, entry, message, hEntry, hResult⟩ := connectImpl_of_not_succeed hInserts hFailed
    rw [hResult] at hKeeps
    have hSame : some entry = r name := by simpa using congrFun (hKeeps message rfl) name
    rw [hEntry] at hSame
    cases hSame
  · intro hClean message hRaised
    by_cases hInserts : Inserts lhsFirst r settings phases
    · have hSucceed := hClean hInserts
      obtain ⟨name, hName, hEntry, -⟩ := hInserts
      rw [connectImpl_of_succeed hName hEntry hSucceed] at hRaised
      cases hRaised
    · obtain ⟨message', hResult⟩ := connectImpl_of_not_inserts hInserts
      rw [hResult]

theorem disconnect_of_succeed {phases : DisconnectPhases} (h : phases.Succeed)
    (connection : Connection) : ∃ after info, connection.disconnect phases = (after, .ok info) := by
  unfold Connection.disconnect
  split
  · rw [h.1, h.2]
    exact ⟨_, _, rfl⟩
  · exact ⟨_, _, rfl⟩

end Calls

/-- The registry holds connected connections only, those whose last successful `Connect`
stands. -/
structure Consistent (s : Session) : Prop where
  has_iff : ∀ name, hasConnection s.registry name = lastSuccessStands name s.events
  connected : ∀ name entry, s.registry name = some entry → entry = some { isConnected := true }

theorem Consistent.init : Consistent Session.init := ⟨fun _ => rfl, nofun⟩

section Steps

variable {lhsFirst : Bool} {s : Session} {name other : Text} {events : List Event}

theorem lastSuccessStands_failed :
    lastSuccessStands name (.connect other false :: events) = lastSuccessStands name events := by
  simp [lastSuccessStands]

theorem Consistent.connect (h : Consistent s) (settings : Settings) (phases : ConnectPhases)
    (hClean : Clean lhsFirst s (.connect settings phases)) :
    Consistent (s.perform lhsFirst (.connect settings phases)) := by
  by_cases hInserts : Inserts lhsFirst s.registry settings phases
  · have hSucceed := hClean hInserts
    obtain ⟨name, hName, hEntry, -⟩ := hInserts
    simp only [Session.perform, connectImpl_of_succeed hName hEntry hSucceed,
      name_of_checkedName hName]
    constructor
    · intro other
      rw [hasConnection, lastSuccessStands]
      by_cases hOther : name = other
      · simp [hOther, Outcome.isReturned]
      · simp [hOther, Ne.symm hOther, ← h.has_iff, hasConnection]
    · intro other entry hOther
      simp only [Function.update_apply] at hOther
      split at hOther
      · cases hOther
        rfl
      · exact h.connected other entry hOther
  · obtain ⟨message, hResult⟩ := connectImpl_of_not_inserts hInserts
    simp only [Session.perform, hResult]
    refine ⟨fun name => ?_, h.connected⟩
    cases settings.name with
    | error message => exact h.has_iff name
    | ok other => exact (h.has_iff name).trans lastSuccessStands_failed.symm

theorem Consistent.disconnect_registry (h : Consistent s) (phases : DisconnectPhases)
    (hClean : Clean lhsFirst s (.disconnect (.ok name) phases)) :
    (disconnect s.registry (.ok name) phases).1 = Function.update s.registry name none := by
  simp only [Connections.disconnect]
  cases hEntry : s.registry name with
  | none => simp [← hEntry]
  | some entry =>
    obtain rfl := h.connected name entry hEntry
    obtain ⟨after, info, hDisconnect⟩ :=
      disconnect_of_succeed (hClean name rfl (by rw [hEntry]; nofun)) { isConnected := true }
    simp only [hDisconnect]

theorem Consistent.disconnect (h : Consistent s) (connectionName : Except Text Text)
    (phases : DisconnectPhases) (hClean : Clean lhsFirst s (.disconnect connectionName phases)) :
    Consistent (s.perform lhsFirst (.disconnect connectionName phases)) := by
  cases connectionName with
  | error message => exact h
  | ok name =>
    simp only [Session.perform, h.disconnect_registry phases hClean]
    constructor
    · intro other
      rw [hasConnection, lastSuccessStands]
      by_cases hOther : name = other
      · simp [hOther]
      · simp [hOther, Ne.symm hOther, ← h.has_iff, hasConnection]
    · intro other entry hOther
      simp only [Function.update_apply] at hOther
      split at hOther
      · cases hOther
      · exact h.connected other entry hOther

theorem Consistent.perform (h : Consistent s) {operation : Operation}
    (hClean : Clean lhsFirst s operation) : Consistent (s.perform lhsFirst operation) := by
  cases operation with
  | connect settings phases => exact h.connect settings phases hClean
  | disconnect connectionName phases => exact h.disconnect connectionName phases hClean

end Steps

def Session.step (lhsFirst : Bool) (s : Session) (operation : Operation) : Option Session :=
  some (s.perform lhsFirst operation)

/-- `Connect` is not called for a name that is connected already. -/
def Fresh (s : Session) : Operation → Prop
  | .connect settings _ => ∀ name, settings.name = .ok name → s.registry name = none
  | .disconnect _ _ => True

section Runs

variable {lhsFirst : Bool} {s t : Session} {operations : List Operation}

theorem Consistent.run
    (hMeets : Schedule.Meets (Session.step lhsFirst) (Clean lhsFirst) Session.init operations)
    (hRun : Schedule.run (Session.step lhsFirst) Session.init operations = some s) :
    Consistent s := by
  refine Schedule.invariant_of_meets Consistent ?_ Consistent.init hMeets hRun
  intro s operation t hInv hClean hStep
  cases hStep
  exact hInv.perform hClean

theorem lastConnectStands_perform (h : Consistent s)
    (hSame : ∀ name, lastConnectStands name s.events = lastSuccessStands name s.events)
    {operation : Operation} (hFresh : Fresh s operation) (name : Text) :
    lastConnectStands name (s.perform lhsFirst operation).events =
      lastSuccessStands name (s.perform lhsFirst operation).events := by
  cases operation with
  | connect settings phases =>
    simp only [Session.perform]
    cases hName : settings.name with
    | error message => exact hSame name
    | ok other =>
      simp only [lastConnectStands, lastSuccessStands, hSame]
      by_cases hOther : other = name
      · subst hOther
        have hAbsent : lastSuccessStands other s.events = false := by
          rw [← h.has_iff, hasConnection, hFresh other hName]
          rfl
        simp [hAbsent]
      · simp [hOther]
  | disconnect connectionName phases =>
    cases connectionName with
    | error message => exact hSame name
    | ok other => simp only [Session.perform, lastConnectStands, lastSuccessStands, hSame]

theorem hasConnection_of_fresh_run
    (hMeets : Schedule.Meets (Session.step lhsFirst)
      (fun s operation => Clean lhsFirst s operation ∧ Fresh s operation) Session.init operations)
    (hRun : Schedule.run (Session.step lhsFirst) Session.init operations = some s) (name : Text) :
    hasConnection s.registry name = lastConnectStands name s.events := by
  have hInv : Consistent s ∧
      ∀ name, lastConnectStands name s.events = lastSuccessStands name s.events := by
    refine Schedule.invariant_of_meets (fun s => Consistent s ∧
      ∀ name, lastConnectStands name s.events = lastSuccessStands name s.events)
      ?_ ⟨Consistent.init, fun _ => rfl⟩ hMeets hRun
    rintro s operation t ⟨hConsistent, hSame⟩ ⟨hClean, hFresh⟩ hStep
    cases hStep
    exact ⟨hConsistent.perform hClean, lastConnectStands_perform hConsistent hSame hFresh⟩
  rw [hInv.1.has_iff, hInv.2]

end Runs

/-- A `Connect` that raises keeps the registry exactly when it does not raise after the entry
was made. In runs of such calls, with no error from disconnecting a registered connection, the
registry holds the connections whose last successful `Connect` stands, all connected, and every
other name can be connected. -/
theorem registry_consistent_iff (lhsFirst : Bool) :
    (∀ r settings phases,
      (∀ message, (connectImpl lhsFirst r settings phases).2 = .raised message →
          (connectImpl lhsFirst r settings phases).1 = r) ↔
        (Inserts lhsFirst r settings phases → phases.Succeed)) ∧
    (∀ operations s,
      Schedule.Meets (Session.step lhsFirst) (Clean lhsFirst) Session.init operations →
      Schedule.run (Session.step lhsFirst) Session.init operations = some s →
      (∀ name, hasConnection s.registry name = lastSuccessStands name s.events) ∧
      (∀ name entry, s.registry name = some entry →
        ∃ connection, entry = some connection ∧ connection.isConnected = true) ∧
      (∀ settings name phases, checkedName settings = .ok name →
        lastSuccessStands name s.events = false → phases.Succeed →
        ∃ info, (connectImpl lhsFirst s.registry settings phases).2 = .returned info)) ∧
    (∀ operations s,
      Schedule.Meets (Session.step lhsFirst)
        (fun s operation => Clean lhsFirst s operation ∧ Fresh s operation) Session.init operations →
      Schedule.run (Session.step lhsFirst) Session.init operations = some s →
      ∀ name, hasConnection s.registry name = lastConnectStands name s.events) := by
  refine ⟨fun r settings phases => connect_keeps_registry_iff, ?_, ?_⟩
  · intro operations s hMeets hRun
    have hConsistent := Consistent.run hMeets hRun
    refine ⟨hConsistent.has_iff, fun name entry hEntry => ?_, ?_⟩
    · exact ⟨_, hConsistent.connected name entry hEntry, rfl⟩
    · intro settings name phases hName hStands hSucceed
      have hEntry : s.registry name = none := by
        rw [← hConsistent.has_iff, hasConnection] at hStands
        simpa using hStands
      rw [connectImpl_of_succeed hName hEntry hSucceed]
      exact ⟨_, rfl⟩
  · intro operations s hMeets hRun
    exact hasConnection_of_fresh_run hMeets hRun

def myCode : Settings := { myName := .ok "my_code".toList, connectTo := .ok "Kratos".toList }

def allPhases : ConnectPhases where
  construction := .ok ()
  baseConnectDetail := .ok ()
  prepareConnection := .ok ()
  handShake := .ok ()
  connectDetail := .ok ()

def mismatchingPartner : ConnectPhases :=
  { allPhases with handShake := .error "Mismatch in num_processes!
".toList }

def reconnect : List Operation :=
  [.connect myCode allPhases,
    .disconnect (.ok "Kratos_my_code".toList) { disconnectDetail := .ok (), baseDisconnectDetail := .ok () },
    .connect myCode allPhases]

theorem registry_consistent_reconnect : ∃ s,
    Schedule.run (Session.step false) Session.init reconnect = some s ∧
    hasConnection s.registry "Kratos_my_code".toList = true ∧
    (∀ name, hasConnection s.registry name = lastSuccessStands name s.events) := by
  have hSucceed : allPhases.Succeed := ⟨rfl, rfl, rfl, rfl, rfl⟩
  have hMeets : Schedule.Meets (Session.step false) (Clean false) Session.init reconnect :=
    ⟨fun _ => hSucceed, fun _ _ => ⟨fun _ _ _ => ⟨rfl, rfl⟩, fun _ _ => ⟨fun _ => hSucceed,
      fun _ _ => trivial⟩⟩⟩
  have hRun : Schedule.run (Session.step false) Session.init reconnect =
      some (((Session.init.perform false (.connect myCode allPhases)).perform false
        (.disconnect (.ok "Kratos_my_code".toList) ⟨.ok (), .ok ()⟩)).perform false
          (.connect myCode allPhases)) := rfl
  exact ⟨_, hRun, by decide, ((registry_consistent_iff false).2.1 reconnect _ hMeets hRun).1⟩

/-- After a handshake mismatch the registry holds a connection that is not connected, and the
next `Connect` with the same settings is refused. -/
theorem connect_mismatch_leaves_entry :
    (connectImpl false (fun _ => none) myCode mismatchingPartner).2 =
      .raised "Mismatch in num_processes!
".toList ∧
    (connectImpl false (fun _ => none) myCode mismatchingPartner).1 "Kratos_my_code".toList =
      some (some { isConnected := false }) ∧
    (connectImpl false (connectImpl false (fun _ => none) myCode mismatchingPartner).1 myCode
      allPhases).2 = .raised (alreadyExists myCode) ∧
    (connectImpl false (fun _ => none) myCode mismatchingPartner).1 ≠ fun _ => none := by
  refine ⟨by decide, by decide, by decide, fun h => ?_⟩
  have hEntry := congrFun h "Kratos_my_code".toList
  revert hEntry
  decide

end CoSimIO.Connections
