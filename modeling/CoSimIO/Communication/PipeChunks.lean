import CoSimIO.Basic
import CoSimIO.Communication.Pipe

/-! # The chunks in which `BidirectionalPipe` writes and reads

The size of the chunks comes from the setting `buffer_size`, which the constructor of
`BidirectionalPipe` compares with the size of the pipes.
-/

namespace CoSimIO.Pipe

set_option autoImplicit false

/-- What `fcntl(F_GETPIPE_SZ)` returns: at least a page, and an `int`. -/
structure PipeSize where
  size : Nat
  page_le : 4096 ≤ size
  lt_int : size < 2 ^ 31

/-- `int` to `std::size_t` -/
def toSizeT (n : Int32) : Nat := (n.toInt % 2 ^ 64).toNat

/-- The container is within `max_size`. -/
structure Data where
  kind : Kind
  size : Nat
  bytes_lt : size * kind.sizeDataType < 2 ^ 63

/-- The loop ends, every chunk is in order, and together they are the data. -/
def Covers (loop : Nat → Option (List (Nat × Nat))) (data : Data) (pipe : PipeSize) : Prop :=
  ∃ fuel chunks, loop fuel = some chunks ∧
    (∀ chunk ∈ chunks, 0 < chunk.2 ∧ chunk.1 + chunk.2 ≤ data.size ∧
      chunk.2 * data.kind.sizeDataType ≤ pipe.size) ∧
    chunks.flatMap (fun chunk => List.range' chunk.1 chunk.2) = List.range data.size

section Loop

variable {bufferSize dataSize done fuel : Nat} {chunks : List (Nat × Nat)}

end Loop

section Covers

variable {mBufferSize : Nat} {data : Data} {pipe : PipeSize}

end Covers

section Constructor

variable {setPipeSize : Int32 → PipeSize → PipeSize} {bufferSize : Int32}
  {pipeRead pipeWrite pipe : PipeSize} {mBufferSize : Nat}

theorem toSizeT_of_nonneg (h : 0 ≤ bufferSize.toInt) : toSizeT bufferSize = bufferSize.toInt := by
  have hLt := bufferSize.toInt_lt
  rw [toSizeT]
  omega

end Constructor

end CoSimIO.Pipe
