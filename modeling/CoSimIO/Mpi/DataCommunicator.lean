import CoSimIO.Basic
import CoSimIO.Mpi.Standard
import CoSimIO.Serializer.Stream

/-! # `Scatter`, `Scatterv` and `Gatherv` of `MPIDataCommunicator`

Every rank is a process. Sizes that the code keeps in an `int` or an `unsigned int` are
converted to one.
-/

namespace CoSimIO

open Collective MPI

set_option autoImplicit false

/-- The size of the communicator and the rank of the process -/
structure MPIDataCommunicator where
  size : Nat
  rank : Nat
  debug : Bool

namespace MPIDataCommunicator

variable {α : Type}

abbrev Rank (α ρ : Type) : Type := Process (Answer (α := α)) Text ρ

/-- The conversion to `int` -/
def toInt (size : Nat) : Int := (BitVec.ofNat 32 size).toInt

def number (n : Int) : Text := Serializer.integerText n

section Library

def mpiBcast (type : Datatype) (buffer : List (type.Carrier α)) (root : Int) :
    Rank α (List (type.Carrier α)) :=
  .call (.bcast type buffer root) pure

def mpiAllreduceLor (value : Bool) : Rank α Bool := .call (.allreduceLor value) pure

def mpiAllreduceLand (value : Bool) : Rank α Bool := .call (.allreduceLand value) pure

def mpiAllreduceMin (values : List Int) : Rank α (List Int) := .call (.allreduceMin values) pure

def mpiReduceSum (value root : Int) : Rank α Int := .call (.reduceSum value root) pure

def mpiScatter (type : Datatype) (send : List (type.Carrier α)) (count root : Int) :
    Rank α (List (type.Carrier α)) :=
  .call (.scatter type send count root) pure

def mpiScatterv (send : List α) (counts offsets : List Int) (recvCount root : Int) :
    Rank α (List α) :=
  .call (.scatterv .value send counts offsets recvCount root) pure

def mpiGather (type : Datatype) (send : List (type.Carrier α)) (count : Int)
    (recv : List (type.Carrier α)) (root : Int) : Rank α (List (type.Carrier α)) :=
  .call (.gather type send count recv root) pure

def mpiGatherv (send recv : List α) (counts offsets : List Int) (root : Int) : Rank α (List α) :=
  .call (.gatherv .value send recv counts offsets root) pure

end Library

variable (c : MPIDataCommunicator)

section Errors

/-- What is compiled with `CO_SIM_IO_DEBUG` only -/
def inDebug (check : Rank α Unit) : Rank α Unit := if c.debug then check else pure ()

/-- `CO_SIM_IO_ERROR_IF` -/
def errorIf (condition : Bool) (message : Text) : Rank α Unit :=
  if condition then throw message else pure ()

/-- `CO_SIM_IO_ERROR_IF_NOT` -/
def errorIfNot (condition : Bool) (message : Text) : Rank α Unit := errorIf (!condition) message

def stoppingError (source : Int) : Text :=
  "Rank ".toList ++ number c.rank ++ ": Stopping because of error in rank ".toList ++
    number source ++ ".\n".toList

def stoppingElsewhere : Text :=
  "Rank ".toList ++ number c.rank ++
    ": Stopping because an error was detected on a different rank.\n".toList

def broadcastErrorIfTrue (condition : Bool) (sourceRank : Int) : Rank α Bool := do
  let buffer ← mpiBcast .bool [condition] sourceRank
  let condition := buffer.headD condition
  errorIf (condition && decide ((c.rank : Int) ≠ sourceRank)) (c.stoppingError sourceRank)
  return condition

def errorIfTrueOnAnyRank (condition : Bool) : Rank α Bool := do
  let orCondition ← mpiAllreduceLor condition
  errorIf (orCondition && !condition) c.stoppingElsewhere
  return orCondition

def errorIfFalseOnAnyRank (condition : Bool) : Rank α Bool := do
  let andCondition ← mpiAllreduceLand condition
  errorIf (!andCondition && condition) c.stoppingElsewhere
  return andCondition

def isEqualOnAllRanks (localValue : Int) : Rank α Bool := do
  let buffer ← mpiAllreduceMin [localValue, -localValue]
  return decide (buffer.getD 0 0 = -buffer.getD 1 0)

def isValidRank (rank : Int) : Bool := decide (0 ≤ rank ∧ rank < c.size)

def rankError (operation : Text) (rank : Int) : Text :=
  "In call to ".toList ++ operation ++ ": ".toList ++ number rank ++
    " is not a valid rank.\n".toList

def inputError (operation : Text) (message : Text) : Text :=
  "Input error in call to ".toList ++ operation ++ ": ".toList ++ message

def rankInputError (operation : Text) (rank : Int) (message : Text) : Text :=
  "Input error in call to ".toList ++ operation ++ " for rank ".toList ++ number rank ++
    ": ".toList ++ message

/-- The first check of every operation with a root -/
def checkRank (operation : Text) (rank : Int) : Rank α Unit := do
  let valid ← c.errorIfFalseOnAnyRank (c.isValidRank rank)
  errorIfNot valid (rankError operation rank)

end Errors

section Validation

/-- The checks of `ScatterDetail` and `GatherDetail`: the parts of all ranks have the same size,
and the root has all of them. -/
def checkParts (operation : Text) (partSize : Int) (differs : Bool) (root : Int)
    (partMessage rootMessage : Text) : Rank α Unit := do
  c.checkRank operation root
  let equal ← isEqualOnAllRanks partSize
  errorIfNot equal (inputError operation partMessage)
  let differs ← c.broadcastErrorIfTrue differs root
  errorIf differs (rankInputError operation root rootMessage)

/-- The loop that looks for a part that ends after the message -/
def pastEnd (messageSize : Int) : List Int → List Int → Nat → Option Nat
  | offset :: offsets, count :: counts, i =>
    if offset + count > messageSize then some i else pastEnd messageSize offsets counts (i + 1)
  | _, _, _ => none

/-- `ValidateScattervInput` and `ValidateGathervInput`: every rank has the size that the root
expects of it, and the message of the root has room for all of them. -/
def validateInput (operation : Text) (localSize messageSize : Int) (counts offsets : List Int)
    (root : Int) (countError sizeError : Int → Text) (endError : Nat → Text) : Rank α Unit := do
  c.checkRank operation root
  let received ← mpiScatter .int counts 1 root
  let expected := received.headD 0
  let differs ← c.errorIfTrueOnAnyRank (decide (expected ≠ localSize))
  errorIf differs (countError expected)
  let totalSize ← mpiReduceSum localSize root
  let tooSmall ← c.broadcastErrorIfTrue (decide (totalSize > messageSize)) root
  errorIf tooSmall (sizeError totalSize)
  let failed := if (c.rank : Int) = root then pastEnd messageSize offsets counts 0 else none
  let fails ← c.broadcastErrorIfTrue failed.isSome root
  errorIf fails (failed.elim [] endError)

end Validation

section Broadcast

def checkBroadcast (size sourceRank : Int) : Rank α Unit := do
  c.checkRank "MPI_Bcast".toList sourceRank
  let equal ← isEqualOnAllRanks size
  errorIfNot equal (inputError "MPI_Bcast".toList
    "The buffer does not have the same size on all ranks.\n".toList)

/-- `Broadcast` of an `int` -/
def broadcast (buffer sourceRank : Int) : Rank α Int := do
  c.inDebug (c.checkBroadcast 1 sourceRank)
  let received ← mpiBcast .int [buffer] sourceRank
  return received.headD buffer

end Broadcast

section Scatter

def sendingError (sending receiving : Int) : Text :=
  "Sending ".toList ++ number sending ++ " values but receiving ".toList ++ number receiving ++
    " values (".toList ++ number (receiving * c.size) ++ " values to send expected).\n".toList

def checkScatter (sendSize recvSize sourceRank : Int) : Rank α Unit :=
  c.checkParts "MPI_Scatter".toList recvSize (decide (sendSize ≠ recvSize * c.size)) sourceRank
    "The destination buffer does not have the same size on all ranks.\n".toList
    (c.sendingError sendSize recvSize)

/-- `ScatterDetail` with a receive buffer of the given size -/
def scatterDetail (type : Datatype) (sendValues : List (type.Carrier α)) (recvSize : Nat)
    (sourceRank : Int) : Rank α (List (type.Carrier α)) := do
  c.inDebug (c.checkScatter (toInt sendValues.length) (toInt recvSize) sourceRank)
  mpiScatter type sendValues (toInt recvSize) sourceRank

def lengthError : Text := "cannot create std::vector larger than max_size()".toList

/-- The size of a vector as a `std::size_t`. A negative one is too large. -/
def vectorSize (size : Int) : Rank α Nat :=
  if size < 0 then throw lengthError else pure size.toNat

def divisionError (sendSize : Int) : Text :=
  "In call to MPI_Scatter: A message of size ".toList ++ number sendSize ++
    " cannot be evenly distributed amongst ".toList ++ number c.size ++ " ranks.\n".toList

/-- `Scatter` that returns the received values -/
def scatter (sendValues : List α) (sourceRank : Int) : Rank α (List α) := do
  let sendSize := toInt sendValues.length
  errorIfNot (decide (sendSize.tmod c.size = 0)) (c.divisionError sendSize)
  let messageSize ← c.broadcast (sendSize.tdiv c.size) sourceRank
  let recvSize ← vectorSize messageSize
  c.scatterDetail .value sendValues recvSize sourceRank

end Scatter

section Scatterv

/-- The message with the lengths and offsets of its parts -/
structure Packed (α : Type) where
  message : List α
  lengths : List Int
  offsets : List Int

def unsigned (size : Nat) : Nat := size % 2 ^ 32

/-- The loop over `rInputMessage` with `message_size` -/
def packLengths : Nat → List (List α) → List Int × List Int × Nat
  | messageSize, [] => ([], [], messageSize)
  | messageSize, part :: parts =>
    let rest := packLengths (unsigned (messageSize + unsigned part.length)) parts
    (toInt (unsigned part.length) :: rest.1, toInt messageSize :: rest.2.1, rest.2.2)

/-- The inner loop with `counter` -/
def copyValues (message : List α) : Nat → List α → List α
  | _, [] => message
  | counter, value :: values => copyValues (message.set counter value) (counter + 1) values

def copyMessage (message : List α) : Nat → List (List α) → List α
  | _, [] => message
  | counter, part :: parts =>
    copyMessage (copyValues message counter part) (counter + part.length) parts

def pack [Inhabited α] (parts : List (List α)) : Packed α :=
  let lengths := packLengths 0 parts
  { message := copyMessage (List.replicate lengths.2.2 default) 0 parts
    lengths := lengths.1
    offsets := lengths.2.1 }

def vectorsError (got : Nat) : Text :=
  inputError "MPI_Scatterv".toList ("Expected ".toList ++ number c.size ++
    " vectors as input, got ".toList ++ number got ++ ".\n".toList)

/-- The branch of `PrepareScattervBuffers` for the source rank -/
def packOnSource [Inhabited α] (inputMessage : List (List α)) (sourceRank : Int) :
    Rank α (Packed α) :=
  if (c.rank : Int) = sourceRank then
    if inputMessage.length = c.size then pure (pack inputMessage)
    else throw (c.vectorsError inputMessage.length)
  else pure ⟨[], [], []⟩

/-- The buffers, and the size of the result -/
def prepareScattervBuffers [Inhabited α] (inputMessage : List (List α)) (sourceRank : Int) :
    Rank α (Packed α × Nat) := do
  let packed ← c.packOnSource inputMessage sourceRank
  let resultSize ← c.scatterDetail .int packed.lengths 1 sourceRank
  let size ← vectorSize (resultSize.headD 0)
  return (packed, size)

def receivingError (expected available : Int) : Text :=
  rankInputError "MPI_Scatterv".toList c.rank ("This rank will receive ".toList ++
    number expected ++ " values but the receive buffer has size ".toList ++ number available ++
    ".\n".toList)

def scattervSizeError (sourceRank messageSize available : Int) : Text :=
  rankInputError "MPI_Scatterv".toList sourceRank ("The sent message contains ".toList ++
    number messageSize ++ " values, but ".toList ++ number available ++
    " values are expected in total across all ranks.\n".toList)

def readingError (sourceRank : Int) (i : Nat) : Text :=
  rankInputError "MPI_Scatterv".toList sourceRank
    ("Reading past sent message end when sending message for rank ".toList ++ number i ++
      ".\n".toList)

def validateScattervInput (sendValues : List α) (sendCounts sendOffsets : List Int)
    (availableRecvSize sourceRank : Int) : Rank α Unit :=
  c.validateInput "MPI_Scatterv".toList availableRecvSize (toInt sendValues.length) sendCounts
    sendOffsets sourceRank (fun expected => c.receivingError expected availableRecvSize)
    (fun _ => scattervSizeError sourceRank (toInt sendValues.length) availableRecvSize)
    (readingError sourceRank)

def scattervDetail (sendValues : List α) (sendCounts sendOffsets : List Int) (recvSize : Nat)
    (sourceRank : Int) : Rank α (List α) := do
  c.inDebug
    (c.validateScattervInput sendValues sendCounts sendOffsets (toInt recvSize) sourceRank)
  mpiScatterv sendValues sendCounts sendOffsets (toInt recvSize) sourceRank

/-- `Scatterv` that returns the received values -/
def scatterv [Inhabited α] (sendValues : List (List α)) (sourceRank : Int) : Rank α (List α) := do
  let (packed, size) ← c.prepareScattervBuffers sendValues sourceRank
  c.scattervDetail packed.message packed.lengths packed.offsets size sourceRank

end Scatterv

section Gatherv

def gatheringError (sending receiving : Int) : Text :=
  "Sending ".toList ++ number sending ++ " values but receiving ".toList ++ number receiving ++
    " values (".toList ++ number (sending * c.size) ++ " values to receive expected).\n".toList

def checkGather (sendSize recvSize recvRank : Int) : Rank α Unit :=
  c.checkParts "MPI_Gather".toList sendSize (decide (sendSize * c.size ≠ recvSize)) recvRank
    "There should be the same amount of local values to send from each rank.\n".toList
    (c.gatheringError sendSize recvSize)

def gatherDetail (type : Datatype) (sendValues recvValues : List (type.Carrier α))
    (recvRank : Int) : Rank α (List (type.Carrier α)) := do
  c.inDebug (c.checkGather (toInt sendValues.length) (toInt recvValues.length) recvRank)
  mpiGather type sendValues (toInt sendValues.length) recvValues recvRank

/-- The loop over the lengths with `message_size` -/
def gatherOffsets : Int → List Int → List Int × Int
  | messageSize, [] => ([], messageSize)
  | messageSize, length :: lengths =>
    let rest := gatherOffsets (messageSize + length) lengths
    (messageSize :: rest.1, rest.2)

def allocateOnDestination [Inhabited α] (lengths : List Int) (destinationRank : Int) :
    Rank α (Packed α) :=
  if (c.rank : Int) = destinationRank then do
    let size ← vectorSize (gatherOffsets 0 lengths).2
    return ⟨List.replicate size default, lengths, (gatherOffsets 0 lengths).1⟩
  else pure ⟨[], lengths, []⟩

def prepareGathervBuffers [Inhabited α] (gathervInput : List α) (destinationRank : Int) :
    Rank α (Packed α) := do
  let buffer := if (c.rank : Int) = destinationRank then List.replicate c.size 0 else []
  let lengths ← c.gatherDetail .int [toInt gathervInput.length] buffer destinationRank
  c.allocateOnDestination lengths destinationRank

def sendingCountError (recvRank sendSize expected : Int) : Text :=
  rankInputError "MPI_Gatherv".toList c.rank ("This rank will send ".toList ++ number sendSize ++
    " values but ".toList ++ number recvRank ++ " expects ".toList ++ number expected ++
    " values from it.\n".toList)

def gathervSizeError (recvRank totalSize expected : Int) : Text :=
  rankInputError "MPI_Gatherv".toList recvRank ("The sent messages contain ".toList ++
    number totalSize ++ " values in total, but only ".toList ++ number expected ++
    " values are expected in rank ".toList ++ number recvRank ++ ".\n".toList)

def writingError (recvRank : Int) (i : Nat) : Text :=
  rankInputError "MPI_Gatherv".toList recvRank
    ("Writing past buffer end when sending message for rank ".toList ++ number i ++ ".\n".toList)

def validateGathervInput (sendSize expectedMessageSize : Int) (recvCounts recvOffsets : List Int)
    (recvRank : Int) : Rank α Unit :=
  c.validateInput "MPI_Gatherv".toList sendSize expectedMessageSize recvCounts recvOffsets recvRank
    (c.sendingCountError recvRank sendSize)
    (fun totalSize => gathervSizeError recvRank totalSize expectedMessageSize)
    (writingError recvRank)

def gathervDetail (sendValues recvValues : List α) (recvCounts recvOffsets : List Int)
    (recvRank : Int) : Rank α (List α) := do
  c.inDebug (c.validateGathervInput (toInt sendValues.length) (toInt recvValues.length) recvCounts
    recvOffsets recvRank)
  mpiGatherv sendValues recvValues recvCounts recvOffsets recvRank

/-- The loops with `counter` -/
def unpack [Inhabited α] (message : List α) : Nat → List Int → List (List α)
  | _, [] => []
  | counter, length :: lengths =>
    (List.range length.toNat).map (fun j => message.getD (counter + j) default) ::
      unpack message (counter + length.toNat) lengths

def prepareGathervReturn [Inhabited α] (message : List α) (lengths : List Int)
    (destinationRank : Int) : List (List α) :=
  if (c.rank : Int) = destinationRank then unpack message 0 lengths else List.replicate c.size []

/-- `Gatherv` that returns the received values -/
def gatherv [Inhabited α] (sendValues : List α) (destinationRank : Int) :
    Rank α (List (List α)) := do
  let packed ← c.prepareGathervBuffers sendValues destinationRank
  let message ← c.gathervDetail sendValues packed.message packed.lengths packed.offsets
    destinationRank
  return c.prepareGathervReturn message packed.lengths destinationRank

end Gatherv

end MPIDataCommunicator

end CoSimIO
