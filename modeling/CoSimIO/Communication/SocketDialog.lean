import CoSimIO.Communication.Sockets
import CoSimIO.Library.Dialog

/-! # Sends and receives in pairs

The partners of a coupled simulation call the functions of the two sides in the same order: where
the one sends, the other one receives.
-/

namespace CoSimIO.BaseSocketCommunication

open Duplex LittleEndian

set_option autoImplicit false

/-- A message, the partner that sends it, and the old contents where the other one receives it. -/
inductive Exchange
  | string (sender : Party) (data old : List UInt8)
  | doubles (sender : Party) (values old : List Double)
deriving DecidableEq

namespace Exchange

def sender : Exchange → Party
  | .string sender _ _ => sender
  | .doubles sender _ _ => sender

def message : Exchange → Message
  | .string _ data _ => .string data
  | .doubles _ values _ => .doubles values

def send : Exchange → Call
  | .string _ data _ => .sendString data
  | .doubles _ values _ => .sendDataContainer values

def receive : Exchange → Call
  | .string _ _ old => .receiveString old
  | .doubles _ _ old => .receiveDataContainer old

/-- The call of a partner -/
def call (exchange : Exchange) (a : Party) : Call :=
  if a = exchange.sender then exchange.send else exchange.receive

end Exchange

/-- The messages that a partner receives -/
def incoming (exchanges : List Exchange) (a : Party) : List Message :=
  (exchanges.filter fun exchange => a ≠ exchange.sender).map Exchange.message

section Dialogs

variable {E ρ σ : Type} {events events' : List E} {x : ρ} {y : σ}

theorem dialog_sendSize {size : Nat} (hSize : size < 256 ^ 8) {p : Process UInt8 E ρ}
    {q : Nat → Process UInt8 E σ} (h : Dialog p (q size) events events' x y) :
    Dialog (.write (encode 8 size) p) (.read 8 fun impSize => q (decode impSize)) events events'
      x y := by
  have hSend := Dialog.send (E := E) (encode 8 size)
  rw [length_encode] at hSend
  have hDecode : decode (encode 8 size) = size := decode_encode hSize
  rw [← hDecode] at h
  exact hSend.bind (f := fun _ => p) (g := fun impSize => q (decode impSize)) h

variable {data old : List UInt8} {values olds : List Double}

theorem resized_drop (data old : List UInt8) :
    data ++ (resize 0 old data.length).drop data.length = data := by
  rw [List.drop_of_length_le (Nat.le_of_eq (length_resize 0 old data.length)), List.append_nil]

theorem sizeT_bytes (h : (Message.doubles values).Countable) :
    sizeT (values.length * 8) = (Message.doubles values).bytes.length := by
  rw [Message.Countable] at h
  rw [← length_bytes, sizeT, Nat.mod_eq_of_lt h]

theorem dialog_writePayload (payload : List UInt8) (finish : List UInt8 → σ) :
    Dialog (E := E) (.write payload (.ended ()))
      (.read payload.length fun bytes => .ended (finish bytes)) [] [] () (finish payload) :=
  (Dialog.send payload).bind (f := .ended) (g := fun bytes => .ended (finish bytes)) (.pure () _)

theorem dialog_sendString (h : (Message.string data).Countable) (old : List UInt8) :
    Dialog (E := E) (sendString data).silent (receiveString old).silent [] [] () data := by
  have hPayload := dialog_writePayload (E := E) data fun bytes =>
    bytes ++ (resize 0 old data.length).drop bytes.length
  rw [resized_drop] at hPayload
  exact dialog_sendSize (q := fun size => .read size fun bytes =>
    .ended (bytes ++ (resize 0 old size).drop bytes.length)) h.size_lt hPayload

theorem sendDataContainer_silent (h : (Message.doubles values).Countable) :
    (sendDataContainer values).silent = Process.write (E := E) (encode 8 values.length)
      (.write (Message.doubles values).bytes (.ended ())) := by
  have hSilent : (sendDataContainer values).silent = Process.write (E := E)
      (encode 8 values.length) (.write ((Message.doubles values).bytes.take
        (sizeT (values.length * 8))) (.ended ())) := rfl
  rw [hSilent, sizeT_bytes h, List.take_length]

theorem dialog_sendDataContainer (h : (Message.doubles values).Countable) (old : List Double) :
    Dialog (E := E) (sendDataContainer values).silent (receiveDataContainer old).silent [] [] ()
      values := by
  have hLength := length_resize 0 old values.length
  have hPayload := dialog_writePayload (E := E) (Message.doubles values).bytes
    (copyBytes (resize 0 old values.length))
  rw [copyBytes_eq hLength, ← sizeT_bytes h] at hPayload
  rw [sendDataContainer_silent h]
  refine dialog_sendSize (q := fun size => .read (sizeT ((resize 0 old size).length * 8))
    fun bytes => .ended (copyBytes (resize 0 old size) bytes)) h.size_lt ?_
  rw [Message.size, hLength]
  exact hPayload

end Dialogs

section Pairs

variable {exchange : Exchange} {exchanges : List Exchange}

/-- The two calls of one exchange -/
theorem dialog_exchange (h : exchange.message.Countable) :
    Dialog (exchange.call .one).run (exchange.call .two).run (incoming [exchange] .one)
      (incoming [exchange] .two) () () := by
  cases exchange with
  | string sender data old =>
    cases sender with
    | one => exact (dialog_sendString h old).bind_right (.report_right () _)
    | two => exact (dialog_sendString h old).symm.bind_left (.report_left _ ())
  | doubles sender values old =>
    cases sender with
    | one => exact (dialog_sendDataContainer h old).bind_right (.report_right () _)
    | two => exact (dialog_sendDataContainer h old).symm.bind_left (.report_left _ ())

theorem incoming_cons (exchange : Exchange) (exchanges : List Exchange) (a : Party) :
    incoming (exchange :: exchanges) a = incoming [exchange] a ++ incoming exchanges a := by
  rw [incoming, incoming, incoming, ← List.map_append, ← List.filter_append]
  rfl

theorem dialog_exchanges (h : ∀ exchange ∈ exchanges, exchange.message.Countable) :
    Dialog (program (exchanges.map fun exchange => exchange.call .one))
      (program (exchanges.map fun exchange => exchange.call .two)) (incoming exchanges .one)
      (incoming exchanges .two) () () := by
  induction exchanges with
  | nil => exact .pure () ()
  | cons exchange exchanges ih =>
    obtain ⟨hFirst, hLater⟩ := List.forall_mem_cons.mp h
    rw [incoming_cons exchange exchanges .one, incoming_cons exchange exchanges .two]
    exact (dialog_exchange hFirst).bind
      (f := fun _ => program (exchanges.map fun exchange => exchange.call .one))
      (g := fun _ => program (exchanges.map fun exchange => exchange.call .two)) (ih hLater)

end Pairs

/-- When the sends and receives come in pairs, all of them end, in whatever segments the data
arrives: no run goes on for ever, and none stops before both partners have made all their calls
and got all messages. -/
theorem paired_calls_complete (exchanges : List Exchange)
    (hCountable : ∀ exchange ∈ exchanges, exchange.message.Countable) :
    Acc (fun t s => Duplex.Step s t)
      (start fun a => program (exchanges.map fun exchange => exchange.call a)) ∧
    ∀ s, Reachable (fun a => program (exchanges.map fun exchange => exchange.call a)) s →
      (∀ a, (s a).reported <+: incoming exchanges a) ∧
      ((∀ t, ¬ Duplex.Step s t) →
        ∀ a, s a = ⟨.ended (), [], [], incoming exchanges a⟩) := by
  have hBoth : (fun a => program (exchanges.map fun exchange => exchange.call a)) =
      both (program (exchanges.map fun exchange => exchange.call .one))
        (program (exchanges.map fun exchange => exchange.call .two)) := by
    funext a
    cases a with
    | one => rfl
    | two => rfl
  have hIncoming : incoming exchanges = both (incoming exchanges .one) (incoming exchanges .two) := by
    funext a
    cases a with
    | one => rfl
    | two => rfl
  obtain ⟨hAcc, hRuns⟩ := (dialog_exchanges hCountable).completes
  rw [hBoth, hIncoming]
  refine ⟨hAcc, fun s hReachable => ?_⟩
  obtain ⟨hPrefix, hStuck⟩ := hRuns s hReachable
  exact ⟨hPrefix, fun hNoStep a => congrFun (hStuck hNoStep) a⟩

/-- A time step: the one partner sends a control signal and gets the data that this asks for. -/
def timeStep : List Exchange := [.string .one [1, 2, 3] [], .doubles .two [1, 2] [7]]

theorem paired_calls_complete_timeStep :
    ∃ s, Reachable (fun a => program (timeStep.map fun exchange => exchange.call a)) s ∧
      (∀ t, ¬ Duplex.Step s t) ∧ (s .one).reported = [.doubles [1, 2]] ∧
        (s .two).reported = [.string [1, 2, 3]] := by
  have hCountable : ∀ exchange ∈ timeStep, exchange.message.Countable :=
    List.forall_mem_cons.mpr ⟨(by decide : 3 < 2 ^ 64),
      List.forall_mem_singleton.mpr (by decide : 16 < 2 ^ 64)⟩
  obtain ⟨s, hReachable, hStuck⟩ := exists_stuck (start fun a =>
    program (timeStep.map fun exchange => exchange.call a))
  have hEnd := ((paired_calls_complete timeStep hCountable).2 s hReachable).2 hStuck
  refine ⟨s, hReachable, hStuck, ?_⟩
  rw [hEnd, hEnd]
  exact ⟨rfl, rfl⟩

end CoSimIO.BaseSocketCommunication
