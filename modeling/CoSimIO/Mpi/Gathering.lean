import CoSimIO.Mpi.Reference
import CoSimIO.Mpi.Scattering

/-! # `Gatherv` of all ranks together -/

namespace CoSimIO.MPIDataCommunicator

open Collective MPI Packing

set_option autoImplicit false

variable {α : Type} {n : Nat} {debug : Bool} {perform : Perform (Answer (α := α)) n}
  {root : Fin n} {parts : Fin n → List α}

/-- What the ranks have before the operation: the destination rank room for all parts. -/
def roomOn [Inhabited α] (root : Fin n) (parts : Fin n → List α) (i : Fin n) : Packed α :=
  if i = root then ⟨List.replicate (total (List.ofFn parts)) default, counts (List.ofFn parts),
    displacements 0 (List.ofFn parts)⟩
  else ⟨[], [], []⟩

section Room

variable [Inhabited α]

theorem roomOn_self : roomOn root parts root = ⟨List.replicate (total (List.ofFn parts)) default,
    counts (List.ofFn parts), displacements 0 (List.ofFn parts)⟩ :=
  if_pos rfl

theorem allocateOnDestination_eq (i : Fin n) :
    (onRank n debug i).allocateOnDestination (roomOn root parts i).lengths root =
      pure (roomOn root parts i) := by
  rw [allocateOnDestination]
  by_cases hi : i = root
  · have hOffsets : gatherOffsets 0 (counts (List.ofFn parts)) =
        (displacements 0 (List.ofFn parts), ((0 + total (List.ofFn parts) : Nat) : Int)) :=
      gatherOffsets_eq
    rw [if_pos ((onRank_rank_eq_iff i).mpr hi), hi, roomOn_self, hOffsets, Nat.zero_add, vectorSize,
      if_neg (by omega)]
    rfl
  · rw [if_neg (mt (onRank_rank_eq_iff i).mp hi), roomOn, if_neg hi]

end Room

theorem flatten_ofFn_singleton (value : Fin n → Int) :
    (List.ofFn fun i => [value i]).flatten = List.ofFn value := by
  have hMap : (List.ofFn fun i => [value i]) = (List.ofFn value).map fun x => [x] := by
    rw [List.map_ofFn]
    rfl
  rw [hMap, ← List.flatMap_def, List.flatMap_singleton']

variable (h : Specified perform)

include h

theorem succeeds_gatherLengths [Inhabited α] (hSize : n < 2 ^ 31) :
    Succeeds perform (fun i => (onRank n debug i).gatherDetail .int [((parts i).length : Int)]
      (if ((onRank n debug i).rank : Int) = ((root : Nat) : Int) then
        List.replicate (onRank n debug i).size 0 else []) root)
      fun i => (roomOn root parts i).lengths := by
  have hOne : ∀ i, toInt ([((parts i).length : Int)] : List Int).length = ((1 : Nat) : Int) :=
    fun _ => rfl
  have hRoot : ((onRank n debug root).rank : Int) = ((root : Nat) : Int) :=
    (onRank_rank_eq_iff root).mpr rfl
  have hLengths : ∀ i, (roomOn root parts i).lengths =
      if i = root then (List.ofFn fun i => [((parts i).length : Int)]).flatten
      else if ((onRank n debug i).rank : Int) = ((root : Nat) : Int) then
        List.replicate (onRank n debug i).size 0 else [] := by
    intro i
    rw [roomOn, flatten_ofFn_singleton]
    split
    · exact List.map_ofFn ..
    · next hi => rw [if_neg (mt (onRank_rank_eq_iff i).mp hi)]
  simp only [gatherDetail, hOne]
  apply Yields.bind (succeeds_inDebug (succeeds_checkParts h _ ?_))
  · rw [funext hLengths]
    apply succeeds_mpiGather h .int 1 (fun _ => rfl)
    rw [if_pos hRoot, List.length_replicate, onRank_size, Nat.mul_one]
  · rw [decide_eq_false_iff_not, if_pos hRoot, List.length_replicate, onRank_size,
      toInt_of_lt hSize]
    omega

theorem succeeds_prepareGathervBuffers [Inhabited α] (hSize : n < 2 ^ 31)
    (hFits : total (List.ofFn parts) < 2 ^ 31) :
    Succeeds perform (fun i => (onRank n debug i).prepareGathervBuffers (parts i) root)
      (roomOn root parts) := by
  have hSend : ∀ i, toInt (parts i).length = (parts i).length := by
    intro i
    have hPart := length_le_total parts i
    exact toInt_of_lt (by omega)
  simp only [prepareGathervBuffers, hSend]
  apply (succeeds_gatherLengths h hSize).bind
  rw [funext allocateOnDestination_eq]
  exact yields_pure _

theorem succeeds_validateGathervInput [Inhabited α] (hFits : total (List.ofFn parts) < 2 ^ 31) :
    Succeeds perform (fun i => (onRank n debug i).validateGathervInput (parts i).length
      (toInt (roomOn root parts i).message.length) (roomOn root parts i).lengths
      (roomOn root parts i).offsets root) fun _ => () := by
  apply succeeds_validateInput h hFits
  · rw [roomOn_self]
  · rw [roomOn_self]
  · rw [roomOn_self, List.length_replicate, toInt_of_lt hFits]

theorem succeeds_mpiGatherv [Inhabited α] :
    Succeeds perform (fun i => mpiGatherv (parts i) (roomOn root parts i).message
      (roomOn root parts i).lengths (roomOn root parts i).offsets root)
      fun i => if i = root then (List.ofFn parts).flatten else [] := by
  have hSegments := segments_ofFn parts
  have hRoom : (roomOn root parts root).message.length = total (List.ofFn parts) := by
    rw [roomOn_self, List.length_replicate]
  obtain ⟨hLength, hEntries, hOthers⟩ := h.gatherv .value parts
    (fun i => (roomOn root parts i).message) (fun i => (roomOn root parts i).lengths)
    (fun i => (roomOn root parts i).offsets) root (fun i => start (List.ofFn parts) i)
    (by rw [roomOn_self]; exact hSegments)
    (fun i => by rw [hRoom]; exact start_add_length_le_total (getElem?_ofFn parts i))
    (fun i j hNe => by
      rcases Nat.lt_or_gt_of_ne (Fin.val_ne_of_ne hNe) with hLt | hLt
      · exact .inl (start_add_length_le_start (getElem?_ofFn parts i) hLt)
      · exact .inr (start_add_length_le_start (getElem?_ofFn parts j) hLt))
  apply yields_call
  · intro i hRoot
    obtain rfl : i = root := Fin.val_inj.mp (Int.natCast_inj.mp hRoot)
    rw [hRoom, roomOn_self]
    have hTiled := tiled_counts (List.ofFn parts)
    rwa [List.length_ofFn] at hTiled
  · intro i
    split
    · next hi =>
      refine congrArg pure ?_
      rw [hi]
      apply eq_flatten (hLength.trans hRoom)
      intro j part hPart k hk
      obtain ⟨hj, rfl⟩ := List.getElem?_eq_some_iff.mp hPart
      rw [List.length_ofFn] at hj
      rw [List.getElem_ofFn] at hk ⊢
      exact hEntries ⟨j, hj⟩ k hk
    · next hi =>
      refine congrArg pure ?_
      rw [hOthers i hi, roomOn, if_neg hi]

/-- The destination rank gets the list of the parts, the others get empty lists. -/
theorem succeeds_gatherv [Inhabited α] (hSize : n < 2 ^ 31)
    (hFits : total (List.ofFn parts) < 2 ^ 31) :
    Succeeds perform (fun i => (onRank n debug i).gatherv (parts i) root)
      fun i => if i = root then List.ofFn parts else List.replicate n [] := by
  have hSend : ∀ i, toInt (parts i).length = (parts i).length := by
    intro i
    have hPart := length_le_total parts i
    exact toInt_of_lt (by omega)
  apply (succeeds_prepareGathervBuffers h hSize hFits).bind
  simp only [gathervDetail, hSend]
  refine Yields.bind_yields (Yields.bind (succeeds_inDebug (succeeds_validateGathervInput h hFits))
    (succeeds_mpiGatherv h)) ?_
  have hReturn : ∀ i, (onRank n debug i).prepareGathervReturn
      (if i = root then (List.ofFn parts).flatten else []) (roomOn root parts i).lengths root =
      if i = root then List.ofFn parts else List.replicate n [] := by
    intro i
    rw [prepareGathervReturn]
    split
    · next hRank =>
      have hi : i = root := (onRank_rank_eq_iff i).mp hRank
      have hUnpack : unpack ([] ++ (List.ofFn parts).flatten) ([] : List α).length
          (counts (List.ofFn parts)) = List.ofFn parts :=
        unpack_eq
      rw [if_pos hi, if_pos hi, hi, roomOn_self]
      exact hUnpack
    · next hRank => rw [if_neg (mt (onRank_rank_eq_iff i).mpr hRank), onRank_size]
  simp only [hReturn]
  exact yields_pure _

omit h

/-- `Scatterv` hands out the vectors, `Gatherv` collects them, and one after the other they give the
list back. -/
theorem scatterv_gatherv [Inhabited α] {n : Nat} (hSize : n < 2 ^ 31)
    {perform : Perform (Answer (α := α)) n} (h : Specified perform) (debug : Bool) (root : Fin n)
    (parts : Fin n → List α) (hFits : total (List.ofFn parts) < 2 ^ 31)
    (inputs : Fin n → List (List α)) (hRoot : inputs root = List.ofFn parts) :
    Completes perform (Tiles n) (fun i => (onRank n debug i).scatterv (inputs i) root) parts ∧
    Completes perform (Tiles n) (fun i => (onRank n debug i).gatherv (parts i) root)
      (fun i => if i = root then List.ofFn parts else List.replicate n []) ∧
    Completes perform (Tiles n)
      (fun i => (onRank n debug i).scatterv (inputs i) root >>= fun part =>
        (onRank n debug i).gatherv part root)
      (fun i => if i = root then List.ofFn parts else List.replicate n []) := by
  have : NeZero n := ⟨Nat.ne_of_gt root.pos⟩
  have hScatterv : Succeeds perform (fun i => (onRank n debug i).scatterv (inputs i) root) parts :=
    succeeds_scatterv h hSize hRoot hFits
  have hGatherv : Succeeds perform (fun i => (onRank n debug i).gatherv (parts i) root)
      fun i => if i = root then List.ofFn parts else List.replicate n [] :=
    succeeds_gatherv h hSize hFits
  exact ⟨hScatterv.completes, hGatherv.completes, (hScatterv.bind_yields hGatherv).completes⟩

theorem scatterv_gatherv_two : Completes (reference (α := Nat)) (Tiles 2)
    (fun i => (onRank 2 true i).scatterv (if i = 0 then [[], [1, 2]] else []) 0 >>= fun part =>
      (onRank 2 true i).gatherv part 0)
    (fun i => if i = 0 then [[], [1, 2]] else [[], []]) :=
  (scatterv_gatherv (by decide) reference_specified true 0 (fun i => if i = 0 then [] else [1, 2])
    (by decide) (fun i => if i = 0 then [[], [1, 2]] else []) rfl).2.2

end CoSimIO.MPIDataCommunicator
