import CoSimIO.Mpi.Standard
import Mathlib.Data.List.OfFn

/-! # A library that follows the standard -/

namespace CoSimIO.MPI

open Collective

set_option autoImplicit false

variable {α : Type} {n : Nat}

deriving instance DecidableEq for Datatype

def Datatype.as (type : Datatype) {sent : Datatype} (values : List (sent.Carrier α)) :
    List (type.Carrier α) :=
  if h : sent = type then cast (congrArg (fun t => List (Datatype.Carrier α t)) h) values else []

@[simp] theorem Datatype.as_self (type : Datatype) (values : List (type.Carrier α)) :
    type.as values = values :=
  dif_pos rfl

namespace Request

def sent (type : Datatype) : Request α → List (type.Carrier α)
  | .bcast _ buffer _ => type.as buffer
  | .scatter _ send _ _ | .scatterv _ send _ _ _ _ => type.as send
  | .gather _ send _ _ _ | .gatherv _ send _ _ _ _ => type.as send
  | _ => []

def flag : Request α → Bool
  | .allreduceLor value | .allreduceLand value => value
  | _ => false

def numbers : Request α → List Int
  | .allreduceMin values => values
  | .reduceSum value _ => [value]
  | _ => []

/-- The ranges of the root -/
def segment (request : Request α) (i : Nat) : Nat × Nat :=
  match request with
  | .scatterv _ _ counts offsets _ _ | .gatherv _ _ _ counts offsets _ =>
    ((offsets.getD i 0).toNat, (counts.getD i 0).toNat)
  | _ => (0, 0)

end Request

section Reference

variable (requests : Fin n → Request α)

def rootRequest (own : Request α) (root : Int) : Request α :=
  if h : root.toNat < n then requests ⟨root.toNat, h⟩ else own

theorem rootRequest_natCast (own : Request α) (root : Fin n) :
    rootRequest requests own ((root : Nat) : Int) = requests root :=
  dif_pos root.isLt

def smallest (k : Nat) : Int :=
  ((List.finRange n).map fun j => (requests j).numbers.getD k 0).min?.getD 0

/-- What `MPI_Gatherv` writes at a position of the receive buffer -/
def received {type : Datatype} (own : Request α) (k : Nat) (old : type.Carrier α) :
    type.Carrier α :=
  match (List.finRange n).find? fun j : Fin n =>
    (own.segment j).1 ≤ k ∧ k < (own.segment j).1 + (own.segment j).2 with
  | some j => ((requests j).sent type).getD (k - (own.segment j).1) old
  | none => old

def answer (i : Fin n) : (own : Request α) → Answer own
  | .bcast type buffer root => (rootRequest requests (.bcast type buffer root) root).sent type
  | .allreduceLor _ => decide (∃ j, (requests j).flag = true)
  | .allreduceLand _ => decide (∀ j, (requests j).flag = true)
  | .allreduceMin values => (List.range values.length).map (smallest requests)
  | .reduceSum _ _ => ∑ j, (requests j).numbers.headD 0
  | .scatter type send count root =>
    (((rootRequest requests (.scatter type send count root) root).sent type).drop
      (i * count.toNat)).take count.toNat
  | .scatterv type send counts offsets recvCount root =>
    let source := rootRequest requests (.scatterv type send counts offsets recvCount root) root
    ((source.sent type).drop (source.segment i).1).take (source.segment i).2
  | .gather type _ _ recv root =>
    if (i : Int) = root then (List.ofFn fun j => (requests j).sent type).flatten else recv
  | .gatherv type send recv counts offsets root =>
    if (i : Int) = root then
      recv.mapIdx (received requests (.gatherv type send recv counts offsets root))
    else recv

end Reference

def reference : Perform (Answer (α := α)) n := fun requests i => answer requests i (requests i)

section Specified

variable {requests : Fin n → Request α}

theorem find?_eq_of_unique {β : Type} {p : β → Bool} {l : List β} {b : β} (hMem : b ∈ l)
    (hb : p b = true) (hUnique : ∀ c, p c = true → c = b) : l.find? p = some b := by
  cases hFind : l.find? p with
  | none => nomatch (List.find?_eq_none.mp hFind b hMem hb)
  | some c => rw [hUnique c (List.find?_some hFind)]

theorem smallest_spec {values : Fin n → List Int} {size k : Nat}
    (hSize : ∀ i, (values i).length = size) (hk : k < size) (i : Fin n) :
    (∃ j, (values j)[k]? = some (smallest (α := α) (fun i => .allreduceMin (values i)) k)) ∧
      ∀ (j : Fin n) (w : Int), (values j)[k]? = some w →
        smallest (α := α) (fun i => .allreduceMin (values i)) k ≤ w := by
  have hAt : ∀ j, (values j)[k]? = some ((values j).getD k 0) := by
    intro j
    rw [List.getD_eq_getElem?_getD, List.getElem?_eq_getElem (by rw [hSize]; exact hk),
      Option.getD_some]
  have hSmallest : smallest (fun i => (.allreduceMin (values i) : Request α)) k =
      ((List.finRange n).map fun j => (values j).getD k 0).min?.getD 0 := rfl
  rw [hSmallest]
  cases hMin : ((List.finRange n).map fun j => (values j).getD k 0).min? with
  | none =>
    rw [List.min?_eq_none_iff, List.map_eq_nil_iff] at hMin
    nomatch hMin ▸ List.mem_finRange i
  | some m =>
    obtain ⟨hMem, hLeast⟩ := List.min?_eq_some_iff.mp hMin
    obtain ⟨j, -, hj⟩ := List.mem_map.mp hMem
    refine ⟨⟨j, (hAt j).trans (congrArg some hj)⟩, ?_⟩
    intro j' w hw
    rw [hAt, Option.some.injEq] at hw
    exact hLeast w (List.mem_map.mpr ⟨j', List.mem_finRange j', hw⟩)

theorem segment_of_segments {counts offsets : List Int} {length offset : Fin n → Nat}
    (h : Segments counts offsets length offset) (i : Fin n) :
    ((offsets.getD i 0).toNat, (counts.getD i 0).toNat) = (offset i, length i) := by
  rw [List.getD_eq_getElem?_getD, List.getD_eq_getElem?_getD, h.offsets, h.lengths]
  rfl

theorem received_gatherv {type : Datatype} {send recv : Fin n → List (type.Carrier α)}
    {counts offsets : Fin n → List Int} {root : Fin n} {offset : Fin n → Nat}
    (hSegments : Segments (counts root) (offsets root) (fun i => (send i).length) offset)
    (hApart : ∀ i j, i ≠ j → offset i + (send i).length ≤ offset j ∨
      offset j + (send j).length ≤ offset i) (i : Fin n) {k : Nat} (hk : k < (send i).length)
    (old : type.Carrier α) :
    received (fun i => .gatherv type (send i) (recv i) (counts i) (offsets i) root)
      (.gatherv type (send root) (recv root) (counts root) (offsets root) root) (offset i + k) old =
        (send i)[k] := by
  have hSegment : ∀ j : Fin n, (Request.gatherv type (send root) (recv root) (counts root)
      (offsets root) (root : Int)).segment j = (offset j, (send j).length) :=
    segment_of_segments hSegments
  have hFind : ((List.finRange n).find? fun j : Fin n =>
      ((Request.gatherv type (send root) (recv root) (counts root) (offsets root)
        (root : Int)).segment j).1 ≤ offset i + k ∧
      offset i + k < ((Request.gatherv type (send root) (recv root) (counts root) (offsets root)
        (root : Int)).segment j).1 + ((Request.gatherv type (send root) (recv root) (counts root)
        (offsets root) (root : Int)).segment j).2) = some i := by
    apply find?_eq_of_unique (List.mem_finRange i)
    · rw [hSegment]
      exact decide_eq_true ⟨Nat.le_add_right _ _, Nat.add_lt_add_left hk _⟩
    · intro j hj
      rw [hSegment, decide_eq_true_eq] at hj
      by_contra hNe
      have hDisjoint := hApart j i hNe
      omega
  rw [received, hFind]
  simp only [hSegment, Nat.add_sub_cancel_left, Request.sent, Datatype.as_self]
  rw [List.getD_eq_getElem?_getD, List.getElem?_eq_getElem hk, Option.getD_some]

theorem reference_specified : Specified (reference (α := α) (n := n)) where
  bcast type buffer root hLength i := by
    rw [reference, answer, rootRequest_natCast]
    exact type.as_self _
  allreduceLor value i := rfl
  allreduceLand value i := rfl
  allreduceMin values size hSize i := by
    constructor
    · rw [reference, answer, List.length_map, List.length_range, hSize]
    · intro k v hv
      rw [reference, answer, List.getElem?_map, hSize] at hv
      rcases Nat.lt_or_ge k size with hk | hk
      · rw [List.getElem?_range hk] at hv
        obtain rfl := Option.some.inj hv
        exact smallest_spec hSize hk i
      · rw [List.getElem?_eq_none (by rwa [List.length_range])] at hv
        nomatch hv
  reduceSum value root hNonneg hFits := rfl
  scatter type send count root hEnough i := by
    simp only [reference, answer, rootRequest_natCast, Request.sent, Datatype.as_self,
      Int.toNat_natCast]
  scatterv type send counts offsets root length offset hSegments hWithin i := by
    simp only [reference, answer, rootRequest_natCast, Request.sent, Datatype.as_self,
      Request.segment]
    obtain ⟨hOffset, hLength⟩ := Prod.mk.inj (segment_of_segments hSegments i)
    rw [hOffset, hLength]
  gather type send recv count root hSend hRecv := by
    simp only [reference, answer, Request.sent, Datatype.as_self]
    constructor
    · rw [if_pos trivial]
    · intro i hi
      rw [if_neg (mt (fun hRank => Fin.val_inj.mp (Int.natCast_inj.mp hRank)) hi)]
  gatherv type send recv counts offsets root offset hSegments hWithin hApart := by
    simp only [reference, answer]
    refine ⟨?_, ?_, ?_⟩
    · rw [if_pos trivial, List.length_mapIdx]
    · intro i k hk
      have hRecv : offset i + k < (recv root).length := by
        have hEnd := hWithin i
        omega
      rw [if_pos trivial, List.getElem?_mapIdx, List.getElem?_eq_getElem hRecv,
        List.getElem?_eq_getElem hk, Option.map_some, received_gatherv hSegments hApart i hk]
    · intro i hi
      rw [if_neg (mt (fun hRank => Fin.val_inj.mp (Int.natCast_inj.mp hRank)) hi)]

end Specified

end CoSimIO.MPI
