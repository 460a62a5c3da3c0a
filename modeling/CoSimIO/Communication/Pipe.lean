import CoSimIO.Library.FileProcess
import CoSimIO.Library.LittleEndian

/-! # `BidirectionalPipe` over a bounded FIFO

One direction of the pipe: a partner writes messages, the other one reads them. Every
`write(2)` and `read(2)` is a system call on its own. A write puts its bytes into the
FIFO in portions and returns after at least one of them, a read takes between one and
all of the bytes that it asked for. Both loops go on by what they asked for.
-/

namespace CoSimIO.Pipe

open LittleEndian

set_option autoImplicit false

inductive Kind
  | string
  | doubles
deriving DecidableEq

def Kind.sizeDataType : Kind → Nat
  | .string => 1
  | .doubles => 8

/-- The items of a message as bytes. Their number is a `std::size_t`. -/
structure Message where
  kind : Kind
  dataSize : Nat
  data : List UInt8
  length_data : data.length = dataSize * kind.sizeDataType
  dataSize_lt : dataSize < 2 ^ 64

/-- A call of `Read`: the bytes of the container before it, and those of the variable for
the size, which is not initialized. -/
structure ReadCall where
  kind : Kind
  old : List UInt8
  impSize : List UInt8
  length_impSize : impSize.length = 8
deriving DecidableEq

inductive Stage
  | size
  | items (done : Nat)
deriving DecidableEq

structure Writer where
  todo : List Message
  stage : Stage
  accepted : Nat
  failed : Bool

inductive ReadStage
  | size
  | items (receivedSize readSize : Nat) (data : List UInt8)
deriving DecidableEq

structure Reader where
  todo : List ReadCall
  stage : ReadStage
  returned : List (List UInt8)
  failed : Bool
deriving DecidableEq

structure State where
  fifo : List UInt8
  closed : Bool
  writer : Writer
  reader : Reader

structure Setup where
  capacity : Nat
  writerBufferSize : Nat
  readerBufferSize : Nat

def currentBufferSize (bufferSize dataSize done : Nat) : Nat :=
  if dataSize - done > bufferSize then bufferSize else dataSize - done

variable (p : Setup)

/-- The bytes of the current call of `write(2)`. -/
def Setup.writeRequest (w : Writer) : Option (List UInt8) :=
  if w.failed then none
  else match w.todo with
    | [] => none
    | message :: _ => match w.stage with
      | .size => some (encode 8 message.dataSize)
      | .items done =>
        let size := message.kind.sizeDataType
        let bufferSize := p.writerBufferSize / size
        some ((message.data.drop (done * size)).take
          (currentBufferSize bufferSize message.dataSize done * size))

/-- The call of `Write` returns when all items were handed to `write(2)`. -/
def Writer.settle (message : Message) (rest : List Message) (done : Nat) : Writer :=
  if done < message.dataSize then
    { todo := message :: rest, stage := .items done, accepted := 0, failed := false }
  else { todo := rest, stage := .size, accepted := 0, failed := false }

def Setup.afterWrite (w : Writer) : Writer :=
  match w.todo with
  | [] => w
  | message :: rest => match w.stage with
    | .size => Writer.settle message rest 0
    | .items done =>
      let bufferSize := p.writerBufferSize / message.kind.sizeDataType
      Writer.settle message rest (done + currentBufferSize bufferSize message.dataSize done)

/-- How many bytes the current call of `read(2)` asks for. -/
def Setup.readRequest (r : Reader) : Option Nat :=
  if r.failed then none
  else match r.todo with
    | [] => none
    | call :: _ => match r.stage with
      | .size => some 8
      | .items receivedSize readSize _ =>
        let size := call.kind.sizeDataType
        let bufferSize := p.readerBufferSize / size
        some (currentBufferSize bufferSize receivedSize readSize * size)

def resize (old : List UInt8) (length : Nat) : List UInt8 :=
  old.take length ++ List.replicate (length - old.length) 0

/-- The call of `Read` returns when all items were asked for. -/
def Reader.settle (r : Reader) (receivedSize readSize : Nat) (data : List UInt8) : Reader :=
  if readSize < receivedSize then { r with stage := .items receivedSize readSize data }
  else { r with todo := r.todo.tail, stage := .size, returned := r.returned ++ [data] }

def Setup.afterRead (r : Reader) (bytes : List UInt8) : Reader :=
  match r.todo with
  | [] => r
  | call :: _ =>
    let size := call.kind.sizeDataType
    match r.stage with
    | .size =>
      let receivedSize := decode (FileProcess.Store.overwrite call.impSize 0 bytes)
      r.settle receivedSize 0 (resize call.old (receivedSize * size))
    | .items receivedSize readSize data =>
      let bufferSize := p.readerBufferSize / size
      r.settle receivedSize (readSize + currentBufferSize bufferSize receivedSize readSize)
        (FileProcess.Store.overwrite data (readSize * size) bytes)

/-- `accept` puts bytes of the current write into the FIFO, `written` lets that call return.
A read gives no bytes only when the writer has closed its end. -/
inductive Action
  | accept (count : Nat)
  | written
  | writeError
  | close
  | read (count : Nat)
  | readError
deriving DecidableEq

def Setup.step (s : State) : Action → Option State
  | .accept count => do
    let request ← p.writeRequest s.writer
    if 1 ≤ count ∧ s.writer.accepted + count ≤ request.length ∧
        s.fifo.length + count ≤ p.capacity then
      some { s with
        fifo := s.fifo ++ (request.drop s.writer.accepted).take count
        writer := { s.writer with accepted := s.writer.accepted + count } }
    else none
  | .written => do
    let request ← p.writeRequest s.writer
    if 1 ≤ s.writer.accepted ∨ request = [] then some { s with writer := p.afterWrite s.writer }
    else none
  | .writeError => do
    let _ ← p.writeRequest s.writer
    some { s with writer := { s.writer with failed := true } }
  | .close =>
    if s.writer.todo = [] ∨ s.writer.failed = true then some { s with closed := true } else none
  | .read count => do
    let request ← p.readRequest s.reader
    if (1 ≤ count ∧ count ≤ request ∧ count ≤ s.fifo.length) ∨
        (count = 0 ∧ (request = 0 ∨ (s.closed = true ∧ s.fifo = []))) then
      some { s with fifo := s.fifo.drop count, reader := p.afterRead s.reader (s.fifo.take count) }
    else none
  | .readError => do
    let _ ← p.readRequest s.reader
    some { s with reader := { s.reader with failed := true } }

def State.init (messages : List Message) (reads : List ReadCall) : State where
  fifo := []
  closed := false
  writer := { todo := messages, stage := .size, accepted := 0, failed := false }
  reader := { todo := reads, stage := .size, returned := [], failed := false }

/-- A system call that returns has transferred all bytes that it was asked for. -/
def Setup.Whole (s : State) : Action → Prop
  | .written => p.writeRequest s.writer = none ∨
    (p.writeRequest s.writer).map List.length = some s.writer.accepted
  | .read count => p.readRequest s.reader = none ∨ p.readRequest s.reader = some count
  | _ => True

def MatchingKinds (messages : List Message) (reads : List ReadCall) : Prop :=
  ∀ (k : Nat) (call : ReadCall) (message : Message),
    reads[k]? = some call → messages[k]? = some message → call.kind = message.kind

def Message.stream (message : Message) : List UInt8 := encode 8 message.dataSize ++ message.data

def wire (messages : List Message) : List UInt8 := messages.flatMap Message.stream

def Message.unsent (message : Message) : Stage → List UInt8
  | .size => message.stream
  | .items done => message.data.drop (done * message.kind.sizeDataType)

/-- What the writer still hands to the FIFO when no call falls short. -/
def Writer.remaining (w : Writer) : List UInt8 :=
  match w.todo with
  | [] => []
  | message :: rest => (message.unsent w.stage).drop w.accepted ++ wire rest

/-- What the reader takes from the FIFO from now on when no call falls short. -/
def Reader.expected (messages : List Message) (r : Reader) : List UInt8 :=
  match r.stage with
  | .size => wire (messages.drop r.returned.length)
  | .items _ readSize _ => match messages[r.returned.length]? with
    | none => []
    | some message => message.unsent (.items readSize) ++
        wire (messages.drop (r.returned.length + 1))

structure Delivers (messages : List Message) (reads : List ReadCall) (r : Reader) : Prop where
  todo : r.todo = reads.drop r.returned.length
  returned : r.returned = (messages.take r.returned.length).map Message.data
  items : ∀ receivedSize readSize data, r.stage = .items receivedSize readSize data →
    ∃ message, messages[r.returned.length]? = some message ∧ receivedSize = message.dataSize ∧
      readSize < message.dataSize ∧ data.length = message.data.length ∧
      data.take (readSize * message.kind.sizeDataType) =
        message.data.take (readSize * message.kind.sizeDataType)

structure Aligned (messages : List Message) (reads : List ReadCall) (s : State) : Prop where
  delivers : Delivers messages reads s.reader
  stream : s.fifo ++ s.writer.remaining = s.reader.expected messages

section Calls

variable {p : Setup} {messages : List Message} {reads : List ReadCall} {message : Message}

theorem currentBufferSize_le (bufferSize dataSize done : Nat) :
    currentBufferSize bufferSize dataSize done ≤ dataSize - done := by
  unfold currentBufferSize
  split <;> omega

theorem chunk_length (message : Message) (done bufferSize : Nat) :
    currentBufferSize bufferSize message.dataSize done * message.kind.sizeDataType ≤
      (message.unsent (.items done)).length := by
  rw [Message.unsent, List.length_drop, message.length_data, ← Nat.sub_mul]
  exact Nat.mul_le_mul_right _ (currentBufferSize_le _ _ _)

theorem settle_remaining (rest : List Message) (done : Nat) :
    (Writer.settle message rest done).remaining =
      message.unsent (.items done) ++ wire rest := by
  unfold Writer.settle
  split
  · rfl
  · rename_i hDone
    have hAll : message.unsent (.items done) = [] := by
      apply List.drop_eq_nil_of_le
      rw [message.length_data]
      exact Nat.mul_le_mul_right _ (Nat.le_of_not_gt hDone)
    rw [hAll]
    cases rest <;> rfl

theorem writeRequest_length {w : Writer} {request : List UInt8}
    (h : p.writeRequest w = some request) : w.failed = false ∧ ∃ message rest,
      w.todo = message :: rest ∧ request <+: message.unsent w.stage ∧
        (p.afterWrite w).remaining =
          (message.unsent w.stage).drop request.length ++ wire rest := by
  unfold Setup.writeRequest at h
  split at h
  · cases h
  · rename_i hFailed
    refine ⟨by simpa using hFailed, ?_⟩
    cases hTodo : w.todo with
    | nil => rw [hTodo] at h; cases h
    | cons message rest =>
      refine ⟨message, rest, rfl, ?_⟩
      rw [hTodo] at h
      cases hStage : w.stage with
      | size =>
        rw [hStage] at h
        cases h
        refine ⟨List.prefix_append _ _, ?_⟩
        simp only [Setup.afterWrite, hTodo, hStage, settle_remaining, Message.unsent,
          Message.stream]
        simp
      | items done =>
        rw [hStage] at h
        cases h
        refine ⟨List.take_prefix _ _, ?_⟩
        have hChunk := chunk_length message done (p.writerBufferSize / message.kind.sizeDataType)
        rw [Message.unsent] at hChunk
        simp only [Setup.afterWrite, hTodo, hStage, settle_remaining, Message.unsent,
          List.length_take, Nat.min_eq_left hChunk, List.drop_drop, Nat.add_mul]

theorem Delivers.settle {r : Reader} (h : Delivers messages reads r) (readSize : Nat)
    (data : List UInt8) (hMessage : messages[r.returned.length]? = some message)
    (hLength : data.length = message.data.length)
    (hTake : data.take (readSize * message.kind.sizeDataType) =
      message.data.take (readSize * message.kind.sizeDataType)) :
    Delivers messages reads (r.settle message.dataSize readSize data) ∧
      (r.settle message.dataSize readSize data).expected messages =
        message.unsent (.items readSize) ++ wire (messages.drop (r.returned.length + 1)) := by
  unfold Reader.settle
  split
  · rename_i hLess
    refine ⟨⟨h.todo, h.returned, ?_⟩, ?_⟩
    · rintro _ _ _ ⟨⟩
      exact ⟨message, hMessage, rfl, hLess, hLength, hTake⟩
    · simp only [Reader.expected, hMessage]
  · rename_i hDone
    have hAll : message.data.length ≤ readSize * message.kind.sizeDataType := by
      rw [message.length_data]
      exact Nat.mul_le_mul_right _ (Nat.le_of_not_gt hDone)
    have hData : data = message.data := by
      rwa [List.take_of_length_le (hLength ▸ hAll), List.take_of_length_le hAll] at hTake
    subst hData
    refine ⟨⟨?_, ?_, nofun⟩, ?_⟩
    · rw [h.todo, List.tail_drop, List.length_append, List.length_singleton]
    · rw [List.length_append, List.length_singleton, List.take_add_one, hMessage, List.map_append,
        ← h.returned]
      rfl
    · simp only [Reader.expected, List.length_append, List.length_singleton, Message.unsent,
        List.drop_eq_nil_of_le hAll, List.nil_append]

theorem take_overwrite (old bytes : List UInt8) {position : Nat} (h : position ≤ old.length) :
    (FileProcess.Store.overwrite old position bytes).take (position + bytes.length) =
      old.take position ++ bytes := by
  apply List.take_left'
  simp [Nat.min_eq_left h]

theorem length_overwrite {old bytes : List UInt8} {position : Nat}
    (h : position + bytes.length ≤ old.length) :
    (FileProcess.Store.overwrite old position bytes).length = old.length := by
  simp only [FileProcess.Store.overwrite, List.length_append, List.length_take, List.length_drop]
  omega

theorem length_resize (old : List UInt8) (length : Nat) : (resize old length).length = length := by
  simp only [resize, List.length_append, List.length_take, List.length_replicate]
  omega

/-- A read of the size that takes all eight bytes gets the size of the next message. -/
theorem Delivers.readSize {r : Reader} {fifo remaining : List UInt8} {call : ReadCall}
    (h : Delivers messages reads r) (hStage : r.stage = .size)
    (hKind : ∀ message, messages[r.returned.length]? = some message → call.kind = message.kind)
    (hStream : fifo ++ remaining = r.expected messages) (hCount : 8 ≤ fifo.length) :
    let received := decode (FileProcess.Store.overwrite call.impSize 0 (fifo.take 8))
    let next := r.settle received 0 (resize call.old (received * call.kind.sizeDataType))
    Delivers messages reads next ∧ fifo.drop 8 ++ remaining = next.expected messages := by
  simp only [Reader.expected, hStage] at hStream
  cases hRest : messages.drop r.returned.length with
  | nil =>
    rw [hRest] at hStream
    have hLength := congrArg List.length hStream
    rw [List.length_append] at hLength
    simp only [wire, List.flatMap_nil, List.length_nil] at hLength
    omega
  | cons message rest =>
    have hMessage : messages[r.returned.length]? = some message := by
      rw [← List.head?_drop, hRest]
      rfl
    have hNext : messages.drop (r.returned.length + 1) = rest := by
      rw [← List.tail_drop, hRest]
      rfl
    have hParts : fifo ++ remaining = encode 8 message.dataSize ++ (message.data ++ wire rest) := by
      rw [hStream, hRest]
      simp [wire, Message.stream]
    have hSize : fifo.take 8 = encode 8 message.dataSize := by
      rw [← List.take_append_of_le_length hCount, hParts, List.take_left' (length_encode 8 _)]
    have hReceived :
        decode (FileProcess.Store.overwrite call.impSize 0 (fifo.take 8)) = message.dataSize := by
      rw [hSize, FileProcess.Store.overwrite, List.take_zero, List.nil_append, length_encode,
        Nat.zero_add, List.drop_eq_nil_of_le (Nat.le_of_eq call.length_impSize), List.append_nil,
        decode_encode message.dataSize_lt]
    simp only [hReceived]
    obtain ⟨hDelivers, hExpected⟩ := h.settle 0
      (resize call.old (message.dataSize * call.kind.sizeDataType)) hMessage
      (by rw [length_resize, message.length_data, hKind message hMessage])
      (by rw [Nat.zero_mul, List.take_zero, List.take_zero])
    refine ⟨hDelivers, ?_⟩
    rw [hExpected, ← List.drop_append_of_le_length hCount, hParts,
      List.drop_left' (length_encode 8 _), hNext]
    simp [Message.unsent]

/-- A read of items that takes all bytes it asked for continues the message. -/
theorem Delivers.readItems {r : Reader} {fifo remaining : List UInt8} {call : ReadCall}
    {receivedSize readSize : Nat} {data : List UInt8} (h : Delivers messages reads r)
    (hStage : r.stage = .items receivedSize readSize data)
    (hKind : ∀ message, messages[r.returned.length]? = some message → call.kind = message.kind)
    (hStream : fifo ++ remaining = r.expected messages) (bufferSize : Nat)
    (hCount : currentBufferSize bufferSize receivedSize readSize * call.kind.sizeDataType ≤
      fifo.length) :
    let current := currentBufferSize bufferSize receivedSize readSize
    let size := call.kind.sizeDataType
    let next := r.settle receivedSize (readSize + current)
      (FileProcess.Store.overwrite data (readSize * size) (fifo.take (current * size)))
    Delivers messages reads next ∧ fifo.drop (current * size) ++ remaining =
      next.expected messages := by
  obtain ⟨message, hMessage, rfl, hLess, hLength, hTake⟩ := h.items receivedSize readSize data hStage
  rw [hKind message hMessage] at hCount ⊢
  simp only [Reader.expected, hStage, hMessage] at hStream
  have hChunk := chunk_length message readSize bufferSize
  generalize currentBufferSize bufferSize message.dataSize readSize = current at hCount hChunk ⊢
  have hBytes : fifo.take (current * message.kind.sizeDataType) =
      (message.unsent (.items readSize)).take (current * message.kind.sizeDataType) := by
    rw [← List.take_append_of_le_length hCount, hStream, List.take_append_of_le_length hChunk]
  have hStart : readSize * message.kind.sizeDataType ≤ message.data.length := by
    rw [message.length_data]
    exact Nat.mul_le_mul_right _ (Nat.le_of_lt hLess)
  have hBytesLength : (fifo.take (current * message.kind.sizeDataType)).length =
      current * message.kind.sizeDataType := by
    rw [List.length_take, Nat.min_eq_left hCount]
  have hEnd : readSize * message.kind.sizeDataType + current * message.kind.sizeDataType ≤
      data.length := by
    rw [Message.unsent, List.length_drop] at hChunk
    omega
  obtain ⟨hDelivers, hExpected⟩ := h.settle (readSize + current)
    (FileProcess.Store.overwrite data (readSize * message.kind.sizeDataType)
      (fifo.take (current * message.kind.sizeDataType))) hMessage
    (by rw [length_overwrite (by rw [hBytesLength]; exact hEnd), hLength])
    (by
      have hOverwritten := take_overwrite data (fifo.take (current * message.kind.sizeDataType))
        (hLength ▸ hStart)
      rw [hBytesLength] at hOverwritten
      rw [Nat.add_mul, hOverwritten, hTake, hBytes, Message.unsent, List.take_add])
  refine ⟨hDelivers, ?_⟩
  rw [hExpected, ← List.drop_append_of_le_length hCount, hStream,
    List.drop_append_of_le_length hChunk, Message.unsent, Message.unsent, List.drop_drop, Nat.add_mul]

theorem Delivers.read {r : Reader} {fifo remaining : List UInt8} {count : Nat}
    (hKinds : MatchingKinds messages reads)
    (h : Delivers messages reads r) (hStream : fifo ++ remaining = r.expected messages)
    (hRequest : p.readRequest r = some count) (hCount : count ≤ fifo.length) :
    Delivers messages reads (p.afterRead r (fifo.take count)) ∧
      fifo.drop count ++ remaining = (p.afterRead r (fifo.take count)).expected messages := by
  unfold Setup.readRequest at hRequest
  split at hRequest
  · cases hRequest
  · cases hTodo : r.todo with
    | nil => rw [hTodo] at hRequest; cases hRequest
    | cons call rest =>
      rw [hTodo] at hRequest
      have hCall : reads[r.returned.length]? = some call := by
        rw [← List.head?_drop, ← h.todo, hTodo]
        rfl
      have hKind : ∀ message, messages[r.returned.length]? = some message →
          call.kind = message.kind := fun message => hKinds _ call message hCall
      cases hStage : r.stage with
      | size =>
        rw [hStage] at hRequest
        cases hRequest
        simp only [Setup.afterRead, hTodo, hStage]
        exact h.readSize hStage hKind hStream hCount
      | items receivedSize readSize data =>
        rw [hStage] at hRequest
        cases hRequest
        simp only [Setup.afterRead, hTodo, hStage]
        exact h.readItems hStage hKind hStream _ hCount

theorem accept_stream {unsent request fifo rest : List UInt8} {accepted count : Nat}
    (hPrefix : request <+: unsent) (hCount : accepted + count ≤ request.length) :
    fifo ++ (request.drop accepted).take count ++ (unsent.drop (accepted + count) ++ rest) =
      fifo ++ (unsent.drop accepted ++ rest) := by
  obtain ⟨tail, rfl⟩ := hPrefix
  have hTake : (request.drop accepted).take count =
      ((request ++ tail).drop accepted).take count := by
    rw [List.drop_append_of_le_length (by omega), List.take_append_of_le_length]
    rw [List.length_drop]
    omega
  rw [hTake, ← List.drop_drop, List.append_assoc, ← List.append_assoc (List.take _ _),
    List.take_append_drop]

end Calls

section Steps

variable {p : Setup} {messages : List Message} {reads : List ReadCall} {s t : State}

theorem Aligned.step
    (hKinds : MatchingKinds messages reads)
    (h : Aligned messages reads s) (action : Action) (hWhole : p.Whole s action)
    (hStep : p.step s action = some t) : Aligned messages reads t := by
  cases action with
  | accept count =>
    obtain ⟨request, hRequest, hStep⟩ := Option.bind_eq_some_iff.mp hStep
    split at hStep
    · rename_i hCount
      cases hStep
      obtain ⟨-, message, rest, hTodo, hPrefix, -⟩ := writeRequest_length hRequest
      refine ⟨h.delivers, ?_⟩
      have hStream := h.stream
      simp only [Writer.remaining, hTodo] at hStream ⊢
      rw [accept_stream hPrefix hCount.2.1]
      exact hStream
    · cases hStep
  | written =>
    obtain ⟨request, hRequest, hStep⟩ := Option.bind_eq_some_iff.mp hStep
    split at hStep
    · cases hStep
      obtain ⟨-, message, rest, hTodo, -, hAfter⟩ := writeRequest_length hRequest
      have hAccepted : request.length = s.writer.accepted := by
        rw [Setup.Whole, hRequest] at hWhole
        exact Option.some.inj (hWhole.resolve_left nofun)
      refine ⟨h.delivers, ?_⟩
      have hStream := h.stream
      simp only [hAfter, hAccepted]
      simp only [Writer.remaining, hTodo] at hStream
      exact hStream
    · cases hStep
  | writeError =>
    obtain ⟨request, -, hStep⟩ := Option.bind_eq_some_iff.mp hStep
    cases hStep
    exact ⟨h.delivers, h.stream⟩
  | close =>
    simp only [Setup.step] at hStep
    split at hStep
    · cases hStep
      exact ⟨h.delivers, h.stream⟩
    · cases hStep
  | read count =>
    obtain ⟨request, hRequest, hStep⟩ := Option.bind_eq_some_iff.mp hStep
    split at hStep
    · rename_i hCount
      cases hStep
      have hSame : count = request := by
        rw [Setup.Whole, hRequest] at hWhole
        exact (Option.some.inj (hWhole.resolve_left nofun)).symm
      subst hSame
      obtain ⟨hDelivers, hStream⟩ :=
        h.delivers.read hKinds h.stream hRequest (by omega)
      exact ⟨hDelivers, hStream⟩
    · cases hStep
  | readError =>
    obtain ⟨request, -, hStep⟩ := Option.bind_eq_some_iff.mp hStep
    cases hStep
    exact ⟨⟨h.delivers.todo, h.delivers.returned, h.delivers.items⟩, h.stream⟩

theorem Aligned.init : Aligned messages reads (State.init messages reads) := by
  refine ⟨⟨rfl, rfl, nofun⟩, ?_⟩
  cases messages with
  | nil => rfl
  | cons message rest => simp [State.init, Writer.remaining, Reader.expected, Message.unsent, wire]

end Steps

/-- When no system call falls short, every `Read` that returned has the data of its `Write`. -/
theorem whole_reads_deliver (p : Setup) (messages : List Message) (reads : List ReadCall)
    (hKinds : MatchingKinds messages reads)
    (schedule : List Action) (s : State)
    (hMeets : Schedule.Meets p.step p.Whole (State.init messages reads) schedule)
    (hRun : Schedule.run p.step (State.init messages reads) schedule = some s) :
    s.reader.returned <+: messages.map Message.data := by
  have hAligned : Aligned messages reads s :=
    Schedule.invariant_of_meets (Aligned messages reads)
      (fun _ action _ hInv hWhole hStep => hInv.step hKinds action hWhole hStep)
      Aligned.init hMeets hRun
  rw [hAligned.delivers.returned]
  exact (List.take_prefix _ _).map _

instance (p : Setup) (s : State) : ∀ action, Decidable (p.Whole s action)
  | .written => inferInstanceAs (Decidable (_ ∨ _))
  | .read _ => inferInstanceAs (Decidable (_ ∨ _))
  | .accept _ | .writeError | .close | .readError => .isTrue trivial

def smallPipe : Setup := { capacity := 10, writerBufferSize := 8, readerBufferSize := 9 }

def ab : Message where
  kind := .string
  dataSize := 2
  data := [97, 98]
  length_data := rfl
  dataSize_lt := by decide

def twoDoubles : Message where
  kind := .doubles
  dataSize := 2
  data := [0, 0, 0, 0, 0, 0, 240, 63, 0, 0, 0, 0, 0, 0, 0, 64]
  length_data := rfl
  dataSize_lt := by decide

def readInto (kind : Kind) : ReadCall where
  kind := kind
  old := []
  impSize := List.replicate 8 0
  length_impSize := rfl

def wholeCalls : List Action :=
  [.accept 8, .written, .read 8, .accept 1, .accept 1, .written, .read 2,
    .accept 8, .written, .read 8, .accept 8, .written, .read 8, .accept 5, .accept 3, .written, .read 8]

theorem whole_reads_deliver_twoDoubles : ∃ s,
    Schedule.run smallPipe.step (State.init [ab, twoDoubles] [readInto .string, readInto .doubles])
      wholeCalls = some s ∧
    s.reader.returned.length = 2 ∧ s.reader.returned <+: [ab.data, twoDoubles.data] := by
  have hMeets : Schedule.Meets smallPipe.step smallPipe.Whole
      (State.init [ab, twoDoubles] [readInto .string, readInto .doubles]) wholeCalls := by
    decide +kernel
  have hRuns : (Schedule.run smallPipe.step
      (State.init [ab, twoDoubles] [readInto .string, readInto .doubles]) wholeCalls).map
        (fun s => s.reader.returned.length) = some 2 := by
    decide +kernel
  obtain ⟨s, hRun, hLength⟩ := Option.map_eq_some_iff.mp hRuns
  have hKinds : MatchingKinds [ab, twoDoubles] [readInto .string, readInto .doubles] := by
    rintro (_ | _ | k) call message hCall hMessage
    · cases hCall; cases hMessage; rfl
    · cases hCall; cases hMessage; rfl
    · cases hCall
  exact ⟨s, hRun, hLength, whole_reads_deliver smallPipe _ _ hKinds wholeCalls s hMeets hRun⟩

/-- The second read gets one of the two bytes that it asked for, and `Read` returns. -/
theorem short_read_delivers_other_data : ∃ s,
    Schedule.run smallPipe.step (State.init [ab] [readInto .string])
      [.accept 8, .written, .read 8, .accept 2, .written, .read 1] = some s ∧
    s.reader.returned = [[97, 0]] ∧ s.reader.failed = false ∧
    ¬ s.reader.returned <+: [ab.data] := by
  have hRuns : (Schedule.run smallPipe.step (State.init [ab] [readInto .string])
      [.accept 8, .written, .read 8, .accept 2, .written, .read 1]).map
        (fun s => (s.reader.returned, s.reader.failed)) = some ([[97, 0]], false) := by
    decide +kernel
  obtain ⟨s, hRun, hReader⟩ := Option.map_eq_some_iff.mp hRuns
  obtain ⟨hReturned, hFailed⟩ := Prod.mk.inj hReader
  refine ⟨s, hRun, hReturned, hFailed, ?_⟩
  rw [hReturned]
  decide

end CoSimIO.Pipe
