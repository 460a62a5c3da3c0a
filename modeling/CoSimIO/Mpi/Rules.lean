import CoSimIO.Mpi.DataCommunicator

/-! # The checks and the operations of all ranks together -/

namespace CoSimIO.MPIDataCommunicator

open Collective MPI

set_option autoImplicit false

variable {α : Type} {n : Nat} {debug : Bool}

/-- The communicator as a rank sees it -/
def onRank (n : Nat) (debug : Bool) (i : Fin n) : MPIDataCommunicator := ⟨n, i, debug⟩

@[simp] theorem onRank_size (i : Fin n) : (onRank n debug i).size = n := rfl

theorem onRank_rank_eq_iff {root : Fin n} (i : Fin n) :
    ((onRank n debug i).rank : Int) = ((root : Nat) : Int) ↔ i = root := by
  rw [onRank, Int.natCast_inj, Fin.val_inj]

/-- The ranges of the lengths at the offsets follow each other and cover the buffer exactly. -/
structure Tiled (n : Nat) (lengths offsets : List Int) (size : Nat) : Prop where
  onePerRank : lengths.length = n ∧ offsets.length = n
  nonneg : ∀ length ∈ lengths, 0 ≤ length
  consecutive : ∀ i < n, offsets[i]? = some (lengths.take i).sum
  covers : lengths.sum = size

/-- What the source or destination rank hands to `MPI_Scatterv` and `MPI_Gatherv` -/
def Tiles (n : Nat) (i : Fin n) : Request α → Prop
  | .scatterv _ send counts offsets _ root => (i : Int) = root → Tiled n counts offsets send.length
  | .gatherv _ _ recv counts offsets root => (i : Int) = root → Tiled n counts offsets recv.length
  | _ => True

abbrev Succeeds {ρ : Type} (perform : Perform (Answer (α := α)) n) (p : Fin n → Rank α ρ)
    (a : Fin n → ρ) : Prop :=
  Yields perform (Tiles n) p a

theorem toInt_of_lt {size : Nat} (hFits : size < 2 ^ 31) : toInt size = size := by
  rw [toInt, BitVec.toInt_ofNat']
  exact Int.bmod_eq_of_le (by omega) (by omega)

section Library

variable {perform : Perform (Answer (α := α)) n} (h : Specified perform)

include h

theorem succeeds_mpiBcast {type : Datatype} {buffer : Fin n → List (type.Carrier α)} {root : Fin n}
    (hLength : ∀ i, (buffer i).length = (buffer root).length) :
    Succeeds perform (fun i => mpiBcast type (buffer i) root) fun _ => buffer root :=
  yields_call (fun _ => trivial) fun i => congrArg pure (h.bcast type buffer root hLength i)

theorem succeeds_mpiAllreduceLor {value : Fin n → Bool} (hValue : ∀ i, value i = false) :
    Succeeds perform (fun i => mpiAllreduceLor (value i)) fun _ => false := by
  apply yields_call (fun _ => trivial)
  intro i
  rw [h.allreduceLor, decide_eq_false]
  rintro ⟨j, hj⟩
  nomatch (hValue j).symm.trans hj

theorem succeeds_mpiAllreduceLand {value : Fin n → Bool} (hValue : ∀ i, value i = true) :
    Succeeds perform (fun i => mpiAllreduceLand (value i)) fun _ => true :=
  yields_call (fun _ => trivial) fun i => by rw [h.allreduceLand, decide_eq_true hValue]

theorem succeeds_mpiAllreduceMin {values : List Int} :
    Succeeds perform (fun _ => mpiAllreduceMin values) fun _ => values := by
  apply yields_call (fun _ => trivial)
  intro i
  obtain ⟨hLength, hLeast⟩ := h.allreduceMin (fun _ => values) values.length (fun _ => rfl) i
  refine congrArg pure (List.ext_getElem hLength ?_)
  intro k hk hk'
  obtain ⟨⟨j, hj⟩, -⟩ := hLeast k _ (List.getElem?_eq_getElem hk)
  rw [List.getElem?_eq_getElem hk'] at hj
  exact (Option.some.inj hj).symm

theorem succeeds_mpiReduceSum (value : Fin n → Int) (root : Fin n) (hNonneg : ∀ i, 0 ≤ value i)
    (hFits : ∑ i, value i < 2 ^ 31) : ∃ total : Fin n → Int, total root = ∑ i, value i ∧
    Succeeds perform (fun i => mpiReduceSum (value i) root) total :=
  ⟨fun i => perform (fun i => .reduceSum (value i) root) i, h.reduceSum value root hNonneg hFits,
    yields_call (fun _ => trivial) fun _ => rfl⟩

theorem succeeds_mpiScatter (type : Datatype) {send : Fin n → List (type.Carrier α)} (count : Nat)
    {root : Fin n} (hEnough : n * count ≤ (send root).length) :
    Succeeds perform (fun i => mpiScatter type (send i) count root) fun i =>
      ((send root).drop (i * count)).take count :=
  yields_call (fun _ => trivial) fun i =>
    congrArg pure (h.scatter type send count root hEnough i)

theorem succeeds_mpiGather (type : Datatype) {send recv : Fin n → List (type.Carrier α)}
    (count : Nat) {root : Fin n} (hSend : ∀ i, (send i).length = count)
    (hRecv : (recv root).length = n * count) :
    Succeeds perform (fun i => mpiGather type (send i) count (recv i) root) fun i =>
      if i = root then (List.ofFn send).flatten else recv i := by
  obtain ⟨hRoot, hOthers⟩ := h.gather type send recv count root hSend hRecv
  apply yields_call (fun _ => trivial)
  intro i
  split
  · next hi => rw [hi, hRoot]
  · next hi => rw [hOthers i hi]

end Library

section Checks

variable {perform : Perform (Answer (α := α)) n} {root : Fin n}

theorem succeeds_inDebug {check : Fin n → Rank α Unit}
    (hCheck : Succeeds perform check fun _ => ()) :
    Succeeds perform (fun i => (onRank n debug i).inDebug (check i)) fun _ => () := by
  cases debug with
  | false => exact yields_pure _
  | true => exact hCheck

theorem succeeds_errorIf {condition : Fin n → Bool} {message : Fin n → Text}
    (hCondition : ∀ i, condition i = false) :
    Succeeds perform (fun i => errorIf (condition i) (message i)) fun _ => () := by
  have hPure : (fun i => (errorIf (condition i) (message i) : Rank α Unit)) =
      fun _ => pure () := by
    funext i
    rw [errorIf, hCondition i, if_neg (by decide)]
  rw [hPure]
  exact yields_pure _

variable (h : Specified perform)

include h

theorem succeeds_broadcastErrorIfTrue {condition : Fin n → Bool}
    (hCondition : condition root = false) :
    Succeeds perform (fun i => (onRank n debug i).broadcastErrorIfTrue (condition i) root)
      fun _ => false := by
  apply Yields.bind (succeeds_mpiBcast h fun _ => rfl)
  rw [hCondition]
  apply Yields.bind (succeeds_errorIf fun _ => rfl)
  exact yields_pure _

theorem succeeds_errorIfTrueOnAnyRank {condition : Fin n → Bool}
    (hCondition : ∀ i, condition i = false) :
    Succeeds perform (fun i => (onRank n debug i).errorIfTrueOnAnyRank (condition i))
      fun _ => false := by
  apply Yields.bind (succeeds_mpiAllreduceLor h hCondition)
  apply Yields.bind (succeeds_errorIf fun _ => rfl)
  exact yields_pure _

theorem succeeds_errorIfFalseOnAnyRank {condition : Fin n → Bool}
    (hCondition : ∀ i, condition i = true) :
    Succeeds perform (fun i => (onRank n debug i).errorIfFalseOnAnyRank (condition i))
      fun _ => true := by
  apply Yields.bind (succeeds_mpiAllreduceLand h hCondition)
  apply Yields.bind (succeeds_errorIf fun _ => rfl)
  exact yields_pure _

theorem succeeds_isEqualOnAllRanks (value : Int) :
    Succeeds perform (fun _ => isEqualOnAllRanks value) fun _ => true := by
  apply Yields.bind (succeeds_mpiAllreduceMin h)
  have hEqual : decide (([value, -value] : List Int).getD 0 0 =
      -([value, -value] : List Int).getD 1 0) = true := by
    simp
  rw [hEqual]
  exact yields_pure _

theorem succeeds_checkRank (operation : Text) :
    Succeeds perform (fun i => (onRank n debug i).checkRank operation root) fun _ => () := by
  have hValid : ∀ i : Fin n, (onRank n debug i).isValidRank root = true := by
    intro i
    have hRoot : (root : Nat) < n := root.isLt
    apply decide_eq_true
    simp only [onRank]
    omega
  apply Yields.bind (succeeds_errorIfFalseOnAnyRank h hValid)
  exact succeeds_errorIf fun _ => rfl

theorem succeeds_broadcast (buffer : Fin n → Int) :
    Succeeds perform (fun i => (onRank n debug i).broadcast (buffer i) root)
      fun _ => buffer root := by
  have hCheck : Succeeds perform
      (fun i => (onRank n debug i).checkBroadcast 1 root) fun _ => () := by
    apply Yields.bind (succeeds_checkRank h _)
    apply Yields.bind (succeeds_isEqualOnAllRanks h 1)
    exact succeeds_errorIf fun _ => rfl
  apply Yields.bind (succeeds_inDebug hCheck)
  apply Yields.bind (succeeds_mpiBcast h fun _ => rfl)
  exact yields_pure _

theorem succeeds_checkParts {operation : Text} (partSize : Int) {differs : Fin n → Bool}
    {partMessage rootMessage : Fin n → Text} (hDiffers : differs root = false) :
    Succeeds perform (fun i => (onRank n debug i).checkParts operation partSize (differs i) root
      (partMessage i) (rootMessage i)) fun _ => () := by
  apply Yields.bind (succeeds_checkRank h _)
  apply Yields.bind (succeeds_isEqualOnAllRanks h _)
  apply Yields.bind (succeeds_errorIf fun _ => rfl)
  apply Yields.bind (succeeds_broadcastErrorIfTrue h hDiffers)
  exact succeeds_errorIf fun _ => rfl

/-- The receive buffers have the same size, and the source rank has as many values as they need. -/
theorem succeeds_scatterDetail (type : Datatype) {send : Fin n → List (type.Carrier α)}
    (recvSize : Nat) (hFits : recvSize < 2 ^ 31)
    (hSend : toInt (send root).length = recvSize * n)
    (hEnough : n * recvSize ≤ (send root).length) :
    Succeeds perform (fun i => (onRank n debug i).scatterDetail type (send i) recvSize root)
      fun i => ((send root).drop (i * recvSize)).take recvSize := by
  have hRecv := toInt_of_lt hFits
  have hCheck : Succeeds perform (fun i =>
      (onRank n debug i).checkScatter (toInt (send i).length) (toInt recvSize) root)
      fun _ => () := by
    apply succeeds_checkParts h
    rw [decide_eq_false_iff_not, hSend, hRecv]
    exact fun hNe => hNe rfl
  apply Yields.bind (succeeds_inDebug hCheck)
  rw [hRecv]
  exact succeeds_mpiScatter h type recvSize hEnough

end Checks

end CoSimIO.MPIDataCommunicator
