import CoSimIO.Communication.InfoTransfer
import CoSimIO.Library.Sequences

/-! # `Register` and `Run` of `Connection`

The one partner runs the functions that it has registered, the other one steers it with infos.
-/

namespace CoSimIO.Control

open Communication Duplex Serializer

set_option autoImplicit false

variable {E : Type}

def allowedNames : List Text :=
  ["AdvanceInTime".toList, "InitializeSolutionStep".toList, "Predict".toList,
    "SolveSolutionStep".toList, "FinalizeSolutionStep".toList, "OutputSolutionStep".toList,
    "ImportMesh".toList, "ExportMesh".toList, "ImportData".toList, "ExportData".toList,
    "exit".toList]

def listed (names : List Text) : Text := names.flatMap fun name => "\n    ".toList ++ name

def notAllowed (name : Text) : Text :=
  "The name \"".toList ++ name ++
    "\" is not allowed!\nOnly the following names are allowed:".toList ++ listed allowedNames ++
    "\n".toList

def checkIfNameIsValid (name : Text) : Except CallError Unit :=
  require (allowedNames.contains name) (notAllowed name)

/-- A function gets the settings, and may use the connection and create objects. -/
abbrev Function (E : Type) : Type := LocatedInfo → Task E InfoHeap

/-- `mRegisteredFunctions` in the order in which its iterators come -/
abbrev Functions (E : Type) : Type := List (Text × Function E)

/-- Where the hash table puts its entries -/
structure Rehash (E : Type) where
  order : Functions E → Functions E
  perm : ∀ functions, (order functions).Perm functions

def alreadyRegistered (name : Text) : Text :=
  "A function was already registered for ".toList ++ name ++ "!\n".toList

def register (rehash : Rehash E) (functions : Functions E) (name : Text)
    (function : Function E) : Except CallError (Functions E) := do
  checkIfNameIsValid name
  require (functions.lookup name).isNone (alreadyRegistered name)
  return rehash.order ((name, function) :: functions)

def nothingRegistered (name : Text) (functions : Functions E) : Text :=
  "Nothing was registered for \"".toList ++ name ++
    "\"!\nOnly the following names are currently registered:".toList ++
    listed (functions.map Prod.fst) ++ "\n    end\n".toList

def findFunction (functions : Functions E) (name : Text) : Except CallError (Function E) :=
  match functions.lookup name with
  | some function => .ok function
  | none => .error (.fault (.error (nothingRegistered name functions)))

/-- `Get<Info>("settings", Info{})` -/
def getSettings (info : LocatedInfo) : Except CallError LocatedInfo :=
  match OrderedMap.find info.2 "settings".toList with
  | none => .ok (info.1, [])
  | some pointer =>
    ((Info.getExistingKey info.1 .info "settings".toList pointer).map fun settings =>
      (info.1, settings)).mapError .get

/-- What the signal asks for, which is nothing more when it is the one to exit. -/
def nextCall (functions : Functions E) (info : LocatedInfo) :
    Except CallError (Option (Function E × LocatedInfo)) := do
  let controlSignal : Text ← get info .string "control_signal".toList
  checkIfNameIsValid controlSignal
  if controlSignal = "exit".toList then return none
  else
    let function ← findFunction functions controlSignal
    let settings ← getSettings info
    return some (function, settings)

section Run

variable (cfg : Config) (depth : Nat) (timings : Nat → Timing) (isConnected : Bool)
  (functions : Functions E) (ctrlInfo : Info)

/-- The loop of `Run`. There is no heap at the end when the last of `fuel` signals is still
not the one to exit. -/
def runLoop : Nat → InfoHeap → Task E (Option InfoHeap)
  | 0, _ => pure none
  | fuel + 1, heap => do
    let info ← importInfo cfg (timings fuel) isConnected depth (heap, ctrlInfo)
    match ← Task.of (nextCall functions info) with
    | none => return some info.1
    | some (function, settings) => do
      let heap ← function settings
      runLoop fuel heap

end Run

def run (cfg : Config) (depth : Nat) (timings : Nat → Timing) (isConnected : Bool)
    (functions : Functions E) (fuel : Nat) (heap : InfoHeap) : Task E (Option InfoHeap) :=
  let ctrlInfo := set (heap, []) "identifier".toList .string "run_control".toList
  runLoop cfg depth timings isConnected functions ctrlInfo.2 fuel ctrlInfo.1

/-- The call of `ExportInfo` for a control signal, and what the partner does while the function
runs. -/
structure Command (E : Type) where
  iInfo : LocatedInfo
  layout : Nat → BitVec 64
  timing : Timing
  action : Task E Unit

section Steer

variable (cfg : Config) (depth : Nat)

def Command.export (command : Command E) : Task E LocatedInfo :=
  exportInfo cfg command.timing true command.layout depth command.iInfo

/-- The other partner, with the last signal apart -/
def steer (last : Command E) : List (Command E) → Task E Unit
  | [] => do
    let _ ← last.export cfg depth
    return ()
  | command :: commands => do
    let _ ← command.export cfg depth
    command.action
    steer last commands

end Steer

section Register

/-- A call of `Register`, and what it does to the table when it adds an entry. -/
structure Registration (E : Type) where
  rehash : Rehash E
  name : Text
  function : Function E

def Registration.apply (functions : Functions E) (call : Registration E) : Functions E :=
  match register call.rehash functions call.name call.function with
  | .ok functions => functions
  | .error _ => functions

def registerAll (calls : List (Registration E)) : Functions E :=
  calls.foldl Registration.apply []

/-- The function of the first call for the name -/
def firstFor (calls : List (Registration E)) (name : Text) : Option (Function E) :=
  (calls.find? fun call => call.name = name).map Registration.function

variable {functions : Functions E} {call : Registration E} {calls : List (Registration E)}
  {name : Text}

theorem checkIfNameIsValid_of_mem (h : name ∈ allowedNames) : checkIfNameIsValid name = .ok () := by
  rw [checkIfNameIsValid, List.contains_iff_mem.mpr h]
  rfl

theorem checkIfNameIsValid_of_notMem (h : name ∉ allowedNames) :
    checkIfNameIsValid name = .error (.fault (.error (notAllowed name))) := by
  have hNot : allowedNames.contains name = false := by
    rw [Bool.eq_false_iff, ne_eq, List.contains_iff_mem]
    exact h
  rw [checkIfNameIsValid, hNot]
  rfl

theorem register_of_none (hAllowed : name ∈ allowedNames) (hNone : functions.lookup name = none)
    (rehash : Rehash E) (function : Function E) :
    register rehash functions name function = .ok (rehash.order ((name, function) :: functions)) := by
  rw [register, checkIfNameIsValid_of_mem hAllowed, hNone]
  rfl

theorem register_of_some {earlier : Function E} (hAllowed : name ∈ allowedNames)
    (hSome : functions.lookup name = some earlier) (rehash : Rehash E) (function : Function E) :
    register rehash functions name function =
      .error (.fault (.error (alreadyRegistered name))) := by
  rw [register, checkIfNameIsValid_of_mem hAllowed, hSome]
  rfl

theorem register_of_notMem (h : name ∉ allowedNames) (rehash : Rehash E)
    (functions : Functions E) (function : Function E) :
    register rehash functions name function = .error (.fault (.error (notAllowed name))) := by
  rw [register, checkIfNameIsValid_of_notMem h]
  rfl

/-- The table after the calls -/
structure TableOf (calls : List (Registration E)) (functions : Functions E) : Prop where
  nodup : (functions.map Prod.fst).Nodup
  lookup : ∀ name, functions.lookup name =
    if name ∈ allowedNames then firstFor calls name else none

theorem firstFor_append (calls : List (Registration E)) (call : Registration E) (name : Text) :
    firstFor (calls ++ [call]) name = (firstFor calls name).or
      (if call.name = name then some call.function else none) := by
  rw [firstFor, firstFor, List.find?_append, List.find?_singleton]
  cases calls.find? fun call => call.name = name with
  | some earlier => rfl
  | none =>
    by_cases hName : call.name = name
    · simp [hName]
    · simp [hName]

theorem tableOf_nil : TableOf ([] : List (Registration E)) [] := by
  refine ⟨.nil, fun name => ?_⟩
  split
  · rfl
  · rfl

theorem TableOf.apply (h : TableOf calls functions) (call : Registration E) :
    TableOf (calls ++ [call]) (call.apply functions) := by
  by_cases hAllowed : call.name ∈ allowedNames
  · have hFirst := h.lookup call.name
    rw [if_pos hAllowed] at hFirst
    cases hLookup : functions.lookup call.name with
    | some earlier =>
      rw [Registration.apply, register_of_some hAllowed hLookup]
      refine ⟨h.nodup, fun name => ?_⟩
      rw [h.lookup, firstFor_append]
      rcases eq_or_ne call.name name with rfl | hOther
      · rw [← hFirst, hLookup]
        rfl
      · rw [if_neg hOther, Option.or_none]
    | none =>
      have hNodup : (((call.name, call.function) :: functions).map Prod.fst).Nodup := by
        refine List.nodup_cons.mpr ⟨fun hMem => ?_, h.nodup⟩
        obtain ⟨entry, hEntry, hName⟩ := List.mem_map.mp hMem
        have hNone := List.lookup_eq_none_iff.mp hLookup entry hEntry
        rw [hName] at hNone
        exact absurd hNone (by simp)
      have hPerm := call.rehash.perm ((call.name, call.function) :: functions)
      rw [Registration.apply, register_of_none hAllowed hLookup]
      refine ⟨(hPerm.map Prod.fst).nodup_iff.mpr hNodup, fun name => ?_⟩
      rw [← Sequences.lookup_perm hPerm.symm hNodup, List.lookup_cons, h.lookup, firstFor_append]
      rcases eq_or_ne call.name name with rfl | hOther
      · rw [beq_self_eq_true, if_pos rfl, ← hFirst, hLookup]
        exact (if_pos hAllowed).symm
      · rw [beq_false_of_ne hOther.symm, if_neg hOther, Option.or_none]
  · rw [Registration.apply, register_of_notMem hAllowed]
    refine ⟨h.nodup, fun name => ?_⟩
    rw [h.lookup, firstFor_append]
    rcases eq_or_ne call.name name with rfl | hOther
    · rw [if_neg hAllowed, if_neg hAllowed]
    · rw [if_neg hOther, Option.or_none]

theorem tableOf_registerAll (calls : List (Registration E)) : TableOf calls (registerAll calls) := by
  induction calls using List.reverseRecOn with
  | nil => exact tableOf_nil
  | append_singleton calls call ih =>
    rw [registerAll, List.foldl_append]
    exact ih.apply call

theorem firstFor_eq_none_iff : firstFor calls name = none ↔ ∀ call ∈ calls, call.name ≠ name := by
  rw [firstFor, Option.map_eq_none_iff, List.find?_eq_none]
  simp only [decide_eq_true_eq, ne_eq]

/-- Whatever was called before, and wherever the hash table has put it: the functions are those of
the first calls with allowed names, and every other call throws. -/
theorem first_registration_stands (calls : List (Registration E)) (call : Registration E) :
    TableOf calls (registerAll calls) ∧
    match register call.rehash (registerAll calls) call.name call.function with
    | .ok functions => call.name ∈ allowedNames ∧ (∀ earlier ∈ calls, earlier.name ≠ call.name) ∧
        TableOf (calls ++ [call]) functions
    | .error e => call.name ∉ allowedNames ∧ e = .fault (.error (notAllowed call.name)) ∨
        (∃ earlier ∈ calls, earlier.name = call.name) ∧
          e = .fault (.error (alreadyRegistered call.name)) := by
  have hTable := tableOf_registerAll calls
  have hApply := hTable.apply call
  refine ⟨hTable, ?_⟩
  rw [Registration.apply] at hApply
  by_cases hAllowed : call.name ∈ allowedNames
  · have hFirst := hTable.lookup call.name
    rw [if_pos hAllowed] at hFirst
    cases hLookup : (registerAll calls).lookup call.name with
    | none =>
      rw [register_of_none hAllowed hLookup] at hApply ⊢
      exact ⟨hAllowed, firstFor_eq_none_iff.mp (hFirst.symm.trans hLookup), hApply⟩
    | some earlier =>
      rw [register_of_some hAllowed hLookup]
      refine .inr ⟨?_, rfl⟩
      by_contra hNone
      have hNew := firstFor_eq_none_iff.mpr fun other hOther hName => hNone ⟨other, hOther, hName⟩
      rw [hFirst, hNew] at hLookup
      cases hLookup
  · rw [register_of_notMem hAllowed]
    exact .inl ⟨hAllowed, rfl⟩

end Register

section Signals

variable {cfg : Config} {depth : Nat} {command last : Command E} {commands : List (Command E)}
  {functions : Functions E} {function : Function E} {name : Text}
  {entries settings : List (Text × InfoValue)} {events events' later later' : List E}
  {info : LocatedInfo}

/-- The command exports an info with the signal. -/
structure Signals (cfg : Config) (depth : Nat) (command : Command E) (name : Text)
    (entries : List (Text × InfoValue)) : Prop where
  exportable : Exportable cfg command.layout depth command.iInfo entries
  identified : ∃ identifier ref, Identified command.iInfo identifier ref
  sent : ∃ data, Sent cfg (infoItems cfg command.layout depth command.iInfo) data
  controlSignal : OrderedMap.find entries "control_signal".toList = some (.scalar .string name)

/-- Without settings the function gets an empty info. -/
inductive SettingsOf (entries : List (Text × InfoValue)) : List (Text × InfoValue) → Prop
  | given {settings : List (Text × InfoValue)}
    (h : OrderedMap.find entries "settings".toList = some (.info settings)) :
    SettingsOf entries settings
  | default (h : OrderedMap.find entries "settings".toList = none) : SettingsOf entries []

/-- Whatever info has the settings, the function and the action of the partner fit together. -/
def Answers (function : Function E) (action : Task E Unit) (settings : List (Text × InfoValue))
    (events events' : List E) : Prop :=
  ∀ info : LocatedInfo, DenotesInfo info.1 settings info.2 →
    ∃ heap, Grows info.1 heap ∧ Dialog (function info) action events events' (.ok heap) (.ok ())

/-- For each command there is a function that answers it. -/
inductive Served (cfg : Config) (depth : Nat) (functions : Functions E) :
    List (Command E) → List E → List E → Prop
  | nil : Served cfg depth functions [] [] []
  | cons {command : Command E} {commands : List (Command E)} {name : Text}
    {entries settings : List (Text × InfoValue)} {function : Function E}
    {events events' later later' : List E} (hSignals : Signals cfg depth command name entries)
    (hSettings : SettingsOf entries settings) (hAllowed : name ∈ allowedNames)
    (hExit : name ≠ "exit".toList) (hFunction : functions.lookup name = some function)
    (hAnswers : Answers function command.action settings events events')
    (h : Served cfg depth functions commands later later') :
    Served cfg depth functions (command :: commands) (events ++ later) (events' ++ later')

/-- The signal ends `Run`. -/
inductive Ends (functions : Functions E) : Text → Except CallError Unit → Prop
  | exit : Ends functions "exit".toList (.ok ())
  | notAllowed {name : Text} (h : name ∉ allowedNames) :
    Ends functions name (.error (.fault (.error (notAllowed name))))
  | nothingRegistered {name : Text} (hAllowed : name ∈ allowedNames)
    (hExit : name ≠ "exit".toList) (h : functions.lookup name = none) :
    Ends functions name (.error (.fault (.error (nothingRegistered name functions))))

theorem getSettings_of_denotes (h : DenotesInfo info.1 entries info.2)
    (hSettings : SettingsOf entries settings) :
    ∃ inner, getSettings info = .ok (info.1, inner) ∧ DenotesInfo info.1 settings inner := by
  cases hSettings with
  | given hFind =>
    obtain ⟨ref, hRef, inner, hData, hInner⟩ := find_of_denotesInfo h hFind
    refine ⟨inner, ?_, hInner⟩
    simp only [getSettings, hRef, Info.getExistingKey, hData]
    rfl
  | default hFind =>
    refine ⟨[], ?_, rfl⟩
    rw [getSettings, find_none_of_denotesInfo h hFind]

end Signals

section Dialogs

variable {cfg : Config} {depth : Nat} {command last : Command E} {commands : List (Command E)}
  {functions : Functions E} {function : Function E} {name identifier : Text} {ref : Nat}
  {entries settings : List (Text × InfoValue)} {events events' later later' : List E}
  {ctrlInfo : Info} {heap : InfoHeap} {outcome : Except CallError Unit} {info : LocatedInfo}

theorem dialog_signal (h : Signals cfg depth command name entries)
    (hCtrl : Identified (heap, ctrlInfo) identifier ref) (timing : Timing) :
    ∃ exported imported,
      Dialog (importInfo cfg timing true depth (heap, ctrlInfo)) (command.export cfg depth)
        [] [] (.ok imported) (.ok exported) ∧
      Grows heap imported.1 ∧ get imported .string "control_signal".toList = .ok name ∧
      ∀ settings, SettingsOf entries settings → ∃ inner,
        getSettings imported = .ok (imported.1, inner) ∧
        DenotesInfo imported.1 settings inner := by
  obtain ⟨identifier', ref', hIdentified⟩ := h.identified
  obtain ⟨data, hSent⟩ := h.sent
  obtain ⟨exported, imported, hDialog, -, hImported⟩ :=
    dialog_info (E := E) h.exportable hIdentified hCtrl hSent command.timing timing
  refine ⟨exported, imported, hDialog.symm, hImported.grows, ?_, ?_⟩
  · apply get_of_denotes hImported.denotes
    rw [find_timed_of_notMem _ _ _ (by decide)]
    exact h.controlSignal
  · intro settings hSettings
    apply getSettings_of_denotes hImported.denotes
    cases hSettings with
    | given hFind =>
      apply SettingsOf.given
      rwa [find_timed_of_notMem _ _ _ (by decide)]
    | default hFind =>
      apply SettingsOf.default
      rwa [find_timed_of_notMem _ _ _ (by decide)]

theorem nextCall_of_ends (hSignal : get info .string "control_signal".toList = .ok name)
    (hEnds : Ends functions name outcome) :
    nextCall functions info = outcome.map fun _ => none := by
  rw [nextCall, hSignal]
  change (checkIfNameIsValid name >>= fun _ => _) = _
  cases hEnds with
  | exit => rfl
  | notAllowed hNot =>
    rw [checkIfNameIsValid_of_notMem hNot]
    rfl
  | nothingRegistered hAllowed hExit hNone =>
    rw [checkIfNameIsValid_of_mem hAllowed, findFunction, hNone]
    exact if_neg hExit

theorem nextCall_of_registered {inner : LocatedInfo}
    (hSignal : get info .string "control_signal".toList = .ok name) (hAllowed : name ∈ allowedNames)
    (hExit : name ≠ "exit".toList) (hFunction : functions.lookup name = some function)
    (hSettings : getSettings info = .ok inner) :
    nextCall functions info = .ok (some (function, inner)) := by
  rw [nextCall, hSignal]
  change (checkIfNameIsValid name >>= fun _ => _) = _
  rw [checkIfNameIsValid_of_mem hAllowed, findFunction, hFunction, hSettings]
  exact if_neg hExit

/-- The last signal -/
theorem dialog_end (h : Signals cfg depth last name entries) (hEnds : Ends functions name outcome)
    (hCtrl : Identified (heap, ctrlInfo) identifier ref) (timings : Nat → Timing) (fuel : Nat) :
    ∃ result : Except CallError (Option InfoHeap),
      result.map Option.isSome = outcome.map (fun _ => true) ∧
      Dialog (runLoop cfg depth timings true functions ctrlInfo (fuel + 1) heap)
        (steer cfg depth last []) [] [] result (.ok ()) := by
  obtain ⟨exported, imported, hDialog, -, hSignal, -⟩ := dialog_signal h hCtrl (timings fuel)
  have hNext : nextCall functions imported = outcome.map fun _ => none :=
    nextCall_of_ends hSignal hEnds
  refine ⟨outcome.map fun _ => some imported.1, ?_,
    dialog_bind hDialog (?_ : Dialog _ _ [] [] _ _)⟩
  · cases outcome with
    | error e => rfl
    | ok u => rfl
  · rw [hNext]
    cases outcome with
    | error e => exact .pure _ _
    | ok u => exact .pure _ _

/-- Each signal in turn, and then the last one -/
theorem dialog_run (hServed : Served cfg depth functions commands events events')
    (h : Signals cfg depth last name entries) (hEnds : Ends functions name outcome)
    (hCtrl : Identified (heap, ctrlInfo) identifier ref) (timings : Nat → Timing) {fuel : Nat}
    (hFuel : commands.length < fuel) :
    ∃ result : Except CallError (Option InfoHeap),
      result.map Option.isSome = outcome.map (fun _ => true) ∧
      Dialog (runLoop cfg depth timings true functions ctrlInfo fuel heap)
        (steer cfg depth last commands) events events' result (.ok ()) := by
  induction hServed generalizing fuel heap with
  | nil =>
    obtain ⟨fuel, rfl⟩ : ∃ n, fuel = n + 1 := Nat.exists_eq_add_one.mpr hFuel
    exact dialog_end h hEnds hCtrl timings fuel
  | cons hSignals hSettings hAllowed hExit hFunction hAnswers hLater ih =>
    obtain ⟨fuel, rfl⟩ : ∃ n, fuel = n + 1 := Nat.exists_eq_add_one.mpr (Nat.zero_lt_of_lt hFuel)
    obtain ⟨exported, imported, hDialog, hGrows, hSignal, hInner⟩ :=
      dialog_signal hSignals hCtrl (timings fuel)
    obtain ⟨inner, hInfo, hDenotes⟩ := hInner _ hSettings
    obtain ⟨heap', hHeap, hFunctionDialog⟩ := hAnswers (imported.1, inner) hDenotes
    have hLess := Nat.lt_of_succ_lt_succ hFuel
    obtain ⟨result, hResult, hRest⟩ := ih (hCtrl.grows (hGrows.trans hHeap)) hLess
    refine ⟨result, hResult, ?_⟩
    rw [← List.nil_append (_ ++ _), ← List.nil_append (_ ++ _)]
    refine dialog_bind hDialog ?_
    rw [nextCall_of_registered hSignal hAllowed hExit hFunction hInfo]
    exact dialog_bind hFunctionDialog hRest

end Dialogs

/-- One partner runs what it has registered, the other one steers it. In whatever segments the data
arrives, the functions for the signals are called in their order with the settings that came with
them, until the last signal ends `Run` or makes it throw, and both partners get to their ends. -/
theorem run_follows_signals {cfg : Config} {depth : Nat} {functions : Functions E}
    {commands : List (Command E)} {last : Command E} {name : Text}
    {entries : List (Text × InfoValue)} {events events' : List E} {outcome : Except CallError Unit}
    (hServed : Served cfg depth functions commands events events')
    (hLast : Signals cfg depth last name entries) (hEnds : Ends functions name outcome)
    (timings : Nat → Timing) (heap : InfoHeap) {fuel : Nat} (hFuel : commands.length < fuel)
    (returned : Except CallError Bool → E) (steered : Except CallError Unit → E) :
    let solver := concluding (run cfg depth timings true functions fuel heap) fun result =>
      returned (result.map Option.isSome)
    let orchestrator := concluding (steer cfg depth last commands) steered
    let reports := both (events ++ [returned (outcome.map fun _ => true)])
      (events' ++ [steered (.ok ())])
    Acc (fun t s => Duplex.Step s t) (start (both solver orchestrator)) ∧
    ∀ s, Reachable (both solver orchestrator) s →
      (∀ a, (s a).reported <+: reports a) ∧
      ((∀ t, ¬ Duplex.Step s t) → s = quiet (fun _ => .ended ()) reports) := by
  have hCtrl : Utilities.checkEntry "run_control".toList "identifier".toList = .ok () := by
    decide +kernel
  obtain ⟨result, hResult, hDialog⟩ :=
    dialog_run hServed hLast hEnds (identified_set heap hCtrl) timings hFuel
  have hBoth := dialog_concluding hDialog (fun result => returned (result.map Option.isSome)) steered
  rw [hResult] at hBoth
  exact hBoth.completes

section Step

/-- An info with the signal -/
def signalState (name : Text) : InfoState :=
  InfoState.start.run [.set 0 "control_signal".toList .string name,
    .set 0 "identifier".toList .string "run_control".toList]

def signalEntries (name : Text) : List (Text × InfoValue) :=
  [("control_signal".toList, .scalar .string name),
    ("identifier".toList, .scalar .string "run_control".toList)]

def signalCommand (name : Text) (action : Task Bool Unit) : Command Bool where
  iInfo := ((signalState name).heap, (signalState name).infos 0)
  layout := someAddress
  timing := ⟨0, 0, 0⟩
  action := action

def advance : Function Bool := fun settings => do
  sendString "x".toList
  return settings.1

def awaitAdvance : Task Bool Unit := do
  let _ ← receiveString
  return ()

theorem exportable_signal {name : Text} (hSize : name.length < 2 ^ 64) (action : Task Bool Unit) :
    Exportable noTraceConfig someAddress 3 (signalCommand name action).iInfo
      (signalEntries name) := by
  have hSound : (signalState name).Sound := InfoState.sound_start.run _
  have hDenotes : DenotesInfo (signalState name).heap (signalEntries name)
      ((signalState name).infos 0) := ⟨0, _, rfl, rfl, 1, _, rfl, rfl, rfl⟩
  have hVisits : ((signalState name).infos 0).visits (signalState name).heap 3 = [0, 1] := rfl
  have hString : ∀ text : Text, text.length < 2 ^ 64 →
      Faithful noTraceConfig .string text ∧ Writable noTraceConfig ⟨.string, text⟩ :=
    fun text hText => ⟨hText, writable_of_binary rfl _⟩
  refine ⟨hSound.heap, hSound.infos 0, Nat.le_refl 3, ?_, ?_, hDenotes⟩
  · apply Info.Savable.of_values hDenotes
    · exact ⟨hString _ (by decide), hString _ hSize, hString _ (by decide), hString _ (by decide),
        trivial⟩
    · exact Nat.lt_two_pow_self.trans (by decide : 2 ^ 2 < 2 ^ 64)
    · rw [hVisits]
      decide
  · change (((signalState name).infos 0).visits (signalState name).heap 3).Nodup
    rw [hVisits]
    decide

def signalData (name : Text) : Text :=
  (writeAll noTraceConfig (infoItems noTraceConfig someAddress 3
    (signalCommand name (pure ())).iInfo)).toOption.getD []

theorem signals_signal {name : Text} (hSize : name.length < 2 ^ 64) (action : Task Bool Unit)
    (h : (writeAll noTraceConfig (infoItems noTraceConfig someAddress 3
      (signalCommand name (pure ())).iInfo)).toOption = some (signalData name))
    (hBytes : ((signalData name).all fun c => c.toNat < 256) = true)
    (hData : (signalData name).length < 2 ^ 64) :
    Signals noTraceConfig 3 (signalCommand name action) name (signalEntries name) where
  exportable := exportable_signal hSize action
  identified := ⟨"run_control".toList, 1, (by decide : 1 < 2), rfl, rfl, by decide +kernel⟩
  sent := ⟨signalData name, sent_of_toOption h hBytes hData⟩
  controlSignal := rfl

def advanceInTime : Text := "AdvanceInTime".toList

theorem answers_advance : Answers advance awaitAdvance [] [] [] := by
  rintro info -
  refine ⟨info.1, .refl _, ?_⟩
  have hBytes : ("x".toList.all fun c => c.toNat < 256) = true := by decide
  refine dialog_bind (dialog_sendString (fun c hc => ?_) (by decide)) (.pure _ _)
  exact of_decide_eq_true (List.all_eq_true.mp hBytes c hc)

def registeredAdvance : Functions Bool := [(advanceInTime, advance)]

def solver : Process UInt8 Bool Unit :=
  concluding (run noTraceConfig 3 (fun _ => ⟨0, 0, 0⟩) true registeredAdvance 2
    InfoState.start.heap) fun result => (result.map Option.isSome).toOption.getD false

def orchestrator : Process UInt8 Bool Unit :=
  concluding (steer noTraceConfig 3 (signalCommand "exit".toList (pure ()))
    [signalCommand advanceInTime awaitAdvance]) fun result => result.toOption.isSome

theorem run_follows_signals_advance : ∃ s, Reachable (both solver orchestrator) s ∧
    (∀ t, ¬ Duplex.Step s t) ∧ (s .one).reported = [true] ∧ (s .two).reported = [true] := by
  have hAdvance : Signals noTraceConfig 3 (signalCommand advanceInTime awaitAdvance) advanceInTime
      (signalEntries advanceInTime) := signals_signal (by decide) awaitAdvance
    (by decide +kernel) (by decide +kernel) (by decide +kernel)
  have hExit : Signals noTraceConfig 3 (signalCommand "exit".toList (pure ())) "exit".toList
      (signalEntries "exit".toList) := signals_signal (by decide) (pure ())
    (by decide +kernel) (by decide +kernel) (by decide +kernel)
  have hServed : Served noTraceConfig 3 registeredAdvance
      [signalCommand advanceInTime awaitAdvance] [] [] :=
    .cons hAdvance (.default rfl) (by decide) (by decide) rfl answers_advance .nil
  obtain ⟨s, hReachable, hStuck⟩ := exists_stuck (start (both solver orchestrator))
  have hEnd := ((run_follows_signals hServed hExit .exit (fun _ => ⟨0, 0, 0⟩)
    InfoState.start.heap (Nat.lt_succ_self 1) (fun result => result.toOption.getD false)
    fun result => result.toOption.isSome).2 s hReachable).2 hStuck
  refine ⟨s, hReachable, hStuck, ?_⟩
  rw [hEnd]
  exact ⟨rfl, rfl⟩

end Step

end CoSimIO.Control
