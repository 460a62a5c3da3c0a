import CoSimIO.Data.Transfer
import CoSimIO.Library.Duplex

/-! # `BaseSocketCommunication` over a stream in each direction

A message is its size, which counts bytes or doubles, and the raw data.
-/

namespace CoSimIO.BaseSocketCommunication

open Duplex LittleEndian

set_option autoImplicit false

/-- The doubles of a container are their bits. -/
inductive Message
  | string (data : List UInt8)
  | doubles (values : List Double)
deriving DecidableEq

inductive Kind
  | string
  | doubles
deriving DecidableEq

namespace Message

def kind : Message → Kind
  | .string _ => .string
  | .doubles _ => .doubles

def size : Message → Nat
  | .string data => data.length
  | .doubles values => values.length

def bytes : Message → List UInt8
  | .string data => data
  | .doubles values => values.flatMap fun v => encode 8 v.toNat

/-- A `std::size_t` can count the bytes. -/
def Countable (message : Message) : Prop := message.bytes.length < 2 ^ 64

end Message

/-- The reports are the messages that the receiving functions have returned. -/
abbrev Partner (ρ : Type) : Type := Process UInt8 Message ρ

section Calls

/-- `asio::write` -/
def asioWrite (data : List UInt8) : Partner Unit := .write data (pure ())

/-- `asio::read` -/
def asioRead (count : Nat) : Partner (List UInt8) := .read count pure

def sendSize (size : Nat) : Partner Unit := asioWrite (encode 8 size)

def receiveSize : Partner Nat := do
  let impSize ← asioRead 8
  return decode impSize

def sendString (rData : List UInt8) : Partner Unit := do
  sendSize rData.length
  asioWrite rData

def resize {α : Type} (default : α) (old : List α) (size : Nat) : List α :=
  old.take size ++ List.replicate (size - old.length) default

def receiveString (rData : List UInt8) : Partner (List UInt8) := do
  let receivedSize ← receiveSize
  let rData := resize 0 rData receivedSize
  let bytes ← asioRead receivedSize
  return bytes ++ rData.drop bytes.length

def sendDataContainer (rData : List Double) : Partner Unit := do
  sendSize rData.length
  asioWrite ((Message.doubles rData).bytes.take (sizeT (rData.length * 8)))

/-- The bytes over those of the doubles -/
def copyBytes : List Double → List UInt8 → List Double
  | [], _ => []
  | old :: olds, bytes =>
    BitVec.ofNat 64 (decode (bytes.take 8 ++ (encode 8 old.toNat).drop bytes.length)) ::
      copyBytes olds (bytes.drop 8)

def receiveDataContainer (rData : List Double) : Partner (List Double) := do
  let receivedSize ← receiveSize
  let rData := resize 0 rData receivedSize
  let bytes ← asioRead (sizeT (rData.length * 8))
  return copyBytes rData bytes

/-- A call with its argument, for a receiving function the old contents -/
inductive Call
  | sendString (rData : List UInt8)
  | sendDataContainer (rData : List Double)
  | receiveString (rData : List UInt8)
  | receiveDataContainer (rData : List Double)
deriving DecidableEq

def Call.run : Call → Partner Unit
  | .sendString rData => BaseSocketCommunication.sendString rData
  | .sendDataContainer rData => BaseSocketCommunication.sendDataContainer rData
  | .receiveString rData => do
    let rData ← BaseSocketCommunication.receiveString rData
    .report (.string rData) (pure ())
  | .receiveDataContainer rData => do
    let rData ← BaseSocketCommunication.receiveDataContainer rData
    .report (.doubles rData) (pure ())

def program : List Call → Partner Unit
  | [] => pure ()
  | call :: calls => do
    call.run
    program calls

end Calls

/-- The messages that the calls send -/
def sent : List Call → List Message
  | [] => []
  | .sendString rData :: calls => .string rData :: sent calls
  | .sendDataContainer rData :: calls => .doubles rData :: sent calls
  | _ :: calls => sent calls

/-- The kinds of the messages that the calls receive -/
def awaited : List Call → List Kind
  | [] => []
  | .receiveString _ :: calls => .string :: awaited calls
  | .receiveDataContainer _ :: calls => .doubles :: awaited calls
  | _ :: calls => awaited calls

def Message.frame (message : Message) : List UInt8 := encode 8 message.size ++ message.bytes

def wire (messages : List Message) : List UInt8 := messages.flatMap Message.frame

section Frames

variable {message : Message} {values old : List Double}

theorem length_bytes (values : List Double) :
    (Message.doubles values).bytes.length = values.length * 8 := by
  induction values with
  | nil => rfl
  | cons v values ih =>
    rw [Message.bytes, List.flatMap_cons, List.length_append, length_encode, List.length_cons]
    rw [Message.bytes] at ih
    omega

theorem Message.Countable.size_lt (h : message.Countable) : message.size < 256 ^ 8 := by
  cases message with
  | string data => exact h
  | doubles values =>
    rw [Message.Countable, length_bytes] at h
    rw [Message.size]
    omega

theorem length_resize {α : Type} (default : α) (old : List α) (size : Nat) :
    (resize default old size).length = size := by
  rw [resize, List.length_append, List.length_take, List.length_replicate]
  omega

theorem copyBytes_eq (h : old.length = values.length) :
    copyBytes old (Message.doubles values).bytes = values := by
  induction values generalizing old with
  | nil =>
    obtain rfl := List.eq_nil_of_length_eq_zero h
    rfl
  | cons v values ih =>
    cases old with
    | nil => nomatch h
    | cons first old =>
      have hTake : ((Message.doubles (v :: values)).bytes).take 8 = encode 8 v.toNat :=
        List.take_left' (length_encode 8 v.toNat)
      have hDrop : ((Message.doubles (v :: values)).bytes).drop 8 = (Message.doubles values).bytes :=
        List.drop_left' (length_encode 8 v.toNat)
      have hOld : (encode 8 first.toNat).drop (Message.doubles (v :: values)).bytes.length = [] := by
        apply List.drop_of_length_le
        rw [length_encode, length_bytes, List.length_cons]
        omega
      have hValue : BitVec.ofNat 64 (decode (encode 8 v.toNat)) = v := by
        rw [decode_encode (Serializer.bitVec_lt 8 v)]
        exact BitVec.ofNat_toNat 64 v
      rw [copyBytes, hTake, hDrop, hOld, List.append_nil, hValue, ih (Nat.succ.inj h)]

end Frames

section Programs

variable {calls : List Call} {incoming : List Message} {n : Nat} {i o : List UInt8}

theorem wire_cons (message : Message) (messages : List Message) :
    wire (message :: messages) = encode 8 message.size ++ (message.bytes ++ wire messages) := by
  rw [wire, List.flatMap_cons, ← wire, Message.frame, List.append_assoc]

theorem runs_sendString {data : List UInt8}
    (h : Runs n (program calls) i (wire (sent calls)) incoming) :
    Runs (n + 2) (program (.sendString data :: calls)) i
      (wire (sent (.sendString data :: calls))) incoming := by
  rw [sent, wire_cons]
  exact .write (.write h)

theorem runs_sendDataContainer {values : List Double} (hCountable : (Message.doubles values).Countable)
    (h : Runs n (program calls) i (wire (sent calls)) incoming) :
    Runs (n + 2) (program (.sendDataContainer values :: calls)) i
      (wire (sent (.sendDataContainer values :: calls))) incoming := by
  rw [Message.Countable] at hCountable
  have hBytes : sizeT (values.length * 8) = (Message.doubles values).bytes.length := by
    rw [← length_bytes, sizeT, Nat.mod_eq_of_lt hCountable]
  have hWrite : program (.sendDataContainer values :: calls) =
      .write (encode 8 values.length)
        (.write ((Message.doubles values).bytes.take (sizeT (values.length * 8)))
          (program calls)) :=
    rfl
  rw [sent, wire_cons, hWrite, hBytes, List.take_length]
  exact .write (.write h)

theorem program_receiveString (old : List UInt8) (calls : List Call) :
    program (.receiveString old :: calls) = .read 8 fun impSize =>
      .read (decode impSize) fun bytes =>
        .report (.string (bytes ++ (resize 0 old (decode impSize)).drop bytes.length))
          (program calls) :=
  rfl

theorem program_receiveDataContainer (old : List Double) (calls : List Call) :
    program (.receiveDataContainer old :: calls) = .read 8 fun impSize =>
      .read (sizeT ((resize 0 old (decode impSize)).length * 8)) fun bytes =>
        .report (.doubles (copyBytes (resize 0 old (decode impSize)) bytes)) (program calls) :=
  rfl

theorem runs_receiveString {data old : List UInt8} (hCountable : (Message.string data).Countable)
    (h : Runs n (program calls) (wire incoming) o incoming) :
    Runs (n + 3) (program (.receiveString old :: calls)) (wire (.string data :: incoming)) o
      (.string data :: incoming) := by
  have hSize : decode (encode 8 (Message.string data).size) = data.length :=
    decode_encode hCountable.size_lt
  have hDrop : (resize 0 old data.length).drop data.length = [] :=
    List.drop_of_length_le (Nat.le_of_eq (length_resize 0 old data.length))
  rw [wire_cons, program_receiveString]
  apply Runs.read (length_encode 8 _)
  rw [hSize]
  apply Runs.read rfl
  rw [hDrop, List.append_nil]
  exact .report h

theorem runs_receiveDataContainer {values old : List Double}
    (hCountable : (Message.doubles values).Countable)
    (h : Runs n (program calls) (wire incoming) o incoming) :
    Runs (n + 3) (program (.receiveDataContainer old :: calls)) (wire (.doubles values :: incoming))
      o (.doubles values :: incoming) := by
  have hSize : decode (encode 8 (Message.doubles values).size) = values.length :=
    decode_encode hCountable.size_lt
  have hLength := length_resize 0 old values.length
  rw [wire_cons, program_receiveDataContainer]
  apply Runs.read (length_encode 8 _)
  rw [hSize, hLength]
  apply Runs.read
  · rw [← length_bytes, sizeT, Nat.mod_eq_of_lt hCountable]
  · rw [copyBytes_eq hLength]
    exact .report h

/-- A partner that gets the messages it waits for sends its own. -/
theorem runs_program (hKinds : incoming.map Message.kind = awaited calls)
    (hIncoming : ∀ message ∈ incoming, message.Countable)
    (hSent : ∀ message ∈ sent calls, message.Countable) :
    ∃ n, Runs n (program calls) (wire incoming) (wire (sent calls)) incoming := by
  induction calls generalizing incoming with
  | nil =>
    obtain rfl := List.map_eq_nil_iff.mp hKinds
    exact ⟨0, .ended⟩
  | cons call calls ih =>
    cases call with
    | sendString data =>
      obtain ⟨n, hRuns⟩ := ih hKinds hIncoming fun m hm => hSent m (List.mem_cons_of_mem _ hm)
      exact ⟨_, runs_sendString hRuns⟩
    | sendDataContainer values =>
      obtain ⟨n, hRuns⟩ := ih hKinds hIncoming fun m hm => hSent m (List.mem_cons_of_mem _ hm)
      exact ⟨_, runs_sendDataContainer (hSent _ List.mem_cons_self) hRuns⟩
    | receiveString old =>
      obtain ⟨message, later, rfl, hKind, hLater⟩ := List.map_eq_cons_iff.mp hKinds
      obtain ⟨n, hRuns⟩ := ih hLater (fun m hm => hIncoming m (List.mem_cons_of_mem _ hm)) hSent
      cases message with
      | string data => exact ⟨_, runs_receiveString (hIncoming _ List.mem_cons_self) hRuns⟩
      | doubles values => nomatch hKind
    | receiveDataContainer old =>
      obtain ⟨message, later, rfl, hKind, hLater⟩ := List.map_eq_cons_iff.mp hKinds
      obtain ⟨n, hRuns⟩ := ih hLater (fun m hm => hIncoming m (List.mem_cons_of_mem _ hm)) hSent
      cases message with
      | string data => nomatch hKind
      | doubles values => exact ⟨_, runs_receiveDataContainer (hIncoming _ List.mem_cons_self) hRuns⟩

theorem reports_program (calls : List Call) : Reports false (program calls) := by
  induction calls with
  | nil => exact .ended
  | cons call calls ih =>
    cases call with
    | sendString rData => exact .write (.write ih)
    | sendDataContainer rData => exact .write (.write ih)
    | receiveString rData => exact .read fun _ => .read fun _ => .report ih
    | receiveDataContainer rData => exact .read fun _ => .read fun _ => .report ih

end Programs

/-- What the receives of each partner have returned are the first messages of the other. After the
last one nothing is left unread. No run goes on for ever, and it ends with all calls unless each
partner waits in a receive. -/
theorem receives_return_messages (calls : Party → List Call)
    (hKinds : ∀ a, (sent (calls a)).map Message.kind = awaited (calls a.other))
    (hCountable : ∀ a, ∀ message ∈ sent (calls a), message.Countable) :
    Acc (fun t s => Duplex.Step s t) (start fun a => program (calls a)) ∧
    ∀ s, Reachable (fun a => program (calls a)) s →
      (∀ a, (s a).reported <+: sent (calls a.other)) ∧
      (∀ a, (s a).reported.length = (awaited (calls a)).length →
        (s a.other).arrived = [] ∧ (s a.other).inFlight = []) ∧
      ((∀ t, ¬ Duplex.Step s t) →
        (∀ a, (s a).process = .ended () ∧ (s a).reported = sent (calls a.other)) ∨
        ∀ a, ∃ count next, (s a).process = .read (count + 1) next) := by
  have hOwn : ∀ a, (sent (calls a.other)).map Message.kind = awaited (calls a) := by
    intro a
    rw [hKinds, Party.other_other]
  have hRuns : ∀ a, ∃ n, Runs n (program (calls a)) (wire (sent (calls a.other)))
      (wire (sent (calls a))) (sent (calls a.other)) := fun a =>
    runs_program (hOwn a) (hCountable a.other) (hCountable a)
  choose n hActions using hRuns
  have hStart : Balanced (start fun a => program (calls a)) (fun a => sent (calls a.other))
      fun a => ⟨n a, wire (sent (calls a.other)), wire (sent (calls a)), sent (calls a.other)⟩ :=
    ⟨hActions, fun _ => rfl, fun a => by rw [Party.other_other]; rfl⟩
  refine ⟨hStart.acc, fun s hReachable => ?_⟩
  obtain ⟨future, hBalanced⟩ := hStart.reachable hReachable
  refine ⟨fun a => ⟨_, hBalanced.reported a⟩, fun a hAll => ?_, hBalanced.stuck⟩
  obtain ⟨owed, hReports⟩ := reports_reachable (fun a => ⟨false, reports_program (calls a)⟩) hReachable a
  have hEvents : (future a).events = [] := by
    have hLength := congrArg List.length (hBalanced.reported a)
    rw [List.length_append, hAll, ← hOwn, List.length_map] at hLength
    exact List.eq_nil_of_length_eq_zero (by omega)
  have hLeft := hBalanced.runs a
  rw [hEvents] at hLeft
  exact hBalanced.nothing_unread (hReports.input_eq_nil hLeft).2

/-- The one partner sends an empty string, the other one receives it. -/
def emptyMessage : Party → List Call
  | .one => [.sendString []]
  | .two => [.receiveString [7]]

theorem receives_return_messages_empty : ∃ s, Reachable (fun a => program (emptyMessage a)) s ∧
    (s .two).reported = [.string []] ∧ (s .one).arrived = [] ∧ (s .one).inFlight = [] := by
  have hReachable : Reachable (fun a => program (emptyMessage a)) _ :=
    ((((((((Relation.ReflTransGen.refl.tail
      (.write .one (encode 8 0) [] (.write [] (.ended ())) rfl (by decide))).tail
      (.written .one _ rfl)).tail
      (.written .one _ rfl)).tail
      (.deliver .one (encode 8 0) [] rfl (by decide))).tail
      (.read .two 8 (encode 8 0) [] _ rfl rfl (by decide) (by decide))).tail
      (.wasRead .two _ rfl)).tail
      (.wasRead .two _ rfl)).tail
      (.report .two (.string []) _ rfl))
  have hKinds : ∀ a, (sent (emptyMessage a)).map Message.kind = awaited (emptyMessage a.other) := by
    intro a
    cases a with
    | _ => rfl
  have hCountable : ∀ a, ∀ message ∈ sent (emptyMessage a), message.Countable := by
    intro a message hMessage
    cases a with
    | one =>
      obtain rfl := List.mem_singleton.mp hMessage
      exact Nat.two_pow_pos 64
    | two => nomatch hMessage
  obtain ⟨-, hUnread, -⟩ :=
    (receives_return_messages emptyMessage hKinds hCountable).2 _ hReachable
  exact ⟨_, hReachable, rfl, hUnread .two rfl⟩

end CoSimIO.BaseSocketCommunication
