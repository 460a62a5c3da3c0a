import CoSimIO.Library.Collective
import Mathlib.Algebra.BigOperators.Fin

/-! # The collective operations of MPI

`Specified` is what the MPI standard says about the receive buffers of the operations that
`MPIDataCommunicator` uses. Counts and offsets are of the type `int`.
-/

namespace CoSimIO.MPI

open Collective

set_option autoImplicit false

variable {α : Type}

inductive Datatype
  | bool
  | int
  | value

abbrev Datatype.Carrier (α : Type) : Datatype → Type
  | .bool => Bool
  | .int => Int
  | .value => α

/-- The arguments of one rank in a call of the MPI library -/
inductive Request (α : Type)
  | bcast (type : Datatype) (buffer : List (type.Carrier α)) (root : Int)
  | allreduceLor (value : Bool)
  | allreduceLand (value : Bool)
  | allreduceMin (values : List Int)
  | reduceSum (value : Int) (root : Int)
  | scatter (type : Datatype) (send : List (type.Carrier α)) (count root : Int)
  | scatterv (type : Datatype) (send : List (type.Carrier α)) (counts offsets : List Int)
    (recvCount root : Int)
  | gather (type : Datatype) (send : List (type.Carrier α)) (count : Int)
    (recv : List (type.Carrier α)) (root : Int)
  | gatherv (type : Datatype) (send recv : List (type.Carrier α)) (counts offsets : List Int)
    (root : Int)

/-- The contents of the receive buffer -/
abbrev Answer : Request α → Type
  | .bcast type _ _ => List (type.Carrier α)
  | .allreduceLor _ | .allreduceLand _ => Bool
  | .allreduceMin _ => List Int
  | .reduceSum _ _ => Int
  | .scatter type _ _ _ | .scatterv type _ _ _ _ _ => List (type.Carrier α)
  | .gather type _ _ _ _ | .gatherv type _ _ _ _ _ => List (type.Carrier α)

/-- The ranges that a rank sends from or receives in -/
structure Segments {n : Nat} (lengths offsets : List Int) (length offset : Fin n → Nat) : Prop where
  lengths : ∀ i : Fin n, lengths[i.val]? = some (length i : Int)
  offsets : ∀ i : Fin n, offsets[i.val]? = some (offset i : Int)

/-- The standard of MPI, for a communicator with `n` ranks -/
structure Specified {n : Nat} (perform : Perform (Answer (α := α)) n) : Prop where
  bcast : ∀ (type : Datatype) (buffer : Fin n → List (type.Carrier α)) (root : Fin n),
    (∀ i, (buffer i).length = (buffer root).length) →
      ∀ i, perform (fun i => .bcast type (buffer i) root) i = buffer root
  allreduceLor : ∀ (value : Fin n → Bool) (i : Fin n),
    perform (fun i => .allreduceLor (value i)) i = decide (∃ j, value j = true)
  allreduceLand : ∀ (value : Fin n → Bool) (i : Fin n),
    perform (fun i => .allreduceLand (value i)) i = decide (∀ j, value j = true)
  allreduceMin : ∀ (values : Fin n → List Int) (size : Nat), (∀ i, (values i).length = size) →
    ∀ i, (perform (fun i => .allreduceMin (values i)) i).length = size ∧
      ∀ (k : Nat) (v : Int), (perform (fun i => .allreduceMin (values i)) i)[k]? = some v →
        (∃ j, (values j)[k]? = some v) ∧ ∀ (j : Fin n) (w : Int), (values j)[k]? = some w → v ≤ w
  reduceSum : ∀ (value : Fin n → Int) (root : Fin n), (∀ i, 0 ≤ value i) →
    ∑ i, value i < 2 ^ 31 → perform (fun i => .reduceSum (value i) root) root = ∑ i, value i
  scatter : ∀ (type : Datatype) (send : Fin n → List (type.Carrier α)) (count : Nat) (root : Fin n),
    n * count ≤ (send root).length → ∀ i, perform (fun i => .scatter type (send i) count root) i =
      ((send root).drop (i * count)).take count
  scatterv : ∀ (type : Datatype) (send : Fin n → List (type.Carrier α))
    (counts offsets : Fin n → List Int) (root : Fin n) (length offset : Fin n → Nat),
    Segments (counts root) (offsets root) length offset →
    (∀ i, offset i + length i ≤ (send root).length) →
      ∀ i, perform (fun i => .scatterv type (send i) (counts i) (offsets i) (length i) root) i =
        ((send root).drop (offset i)).take (length i)
  gather : ∀ (type : Datatype) (send recv : Fin n → List (type.Carrier α)) (count : Nat)
    (root : Fin n), (∀ i, (send i).length = count) → (recv root).length = n * count →
      perform (fun i => .gather type (send i) count (recv i) root) root =
        (List.ofFn send).flatten ∧
      ∀ i ≠ root, perform (fun i => .gather type (send i) count (recv i) root) i = recv i
  gatherv : ∀ (type : Datatype) (send recv : Fin n → List (type.Carrier α))
    (counts offsets : Fin n → List Int) (root : Fin n) (offset : Fin n → Nat),
    Segments (counts root) (offsets root) (fun i => (send i).length) offset →
    (∀ i, offset i + (send i).length ≤ (recv root).length) →
    (∀ i j, i ≠ j → offset i + (send i).length ≤ offset j ∨
      offset j + (send j).length ≤ offset i) →
      (perform (fun i => .gatherv type (send i) (recv i) (counts i) (offsets i) root) root).length =
        (recv root).length ∧
      (∀ i k, k < (send i).length →
        (perform (fun i => .gatherv type (send i) (recv i) (counts i) (offsets i) root) root)[
          offset i + k]? = (send i)[k]?) ∧
      ∀ i ≠ root,
        perform (fun i => .gatherv type (send i) (recv i) (counts i) (offsets i) root) i = recv i

end CoSimIO.MPI
