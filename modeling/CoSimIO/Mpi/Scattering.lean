import CoSimIO.Mpi.Buffers

/-! # `Scatterv` of all ranks together -/

namespace CoSimIO.MPIDataCommunicator

open Collective MPI Packing

set_option autoImplicit false

variable {α : Type} {n : Nat} {debug : Bool} {perform : Perform (Answer (α := α)) n}
  {root : Fin n} {parts : Fin n → List α}

/-- What the ranks have packed: the source rank all parts, the others nothing. -/
def packedOn (root : Fin n) (parts : Fin n → List α) (i : Fin n) : Packed α :=
  if i = root then
    ⟨(List.ofFn parts).flatten, counts (List.ofFn parts), displacements 0 (List.ofFn parts)⟩
  else ⟨[], [], []⟩

theorem packedOn_self : packedOn root parts root =
    ⟨(List.ofFn parts).flatten, counts (List.ofFn parts), displacements 0 (List.ofFn parts)⟩ :=
  if_pos rfl

theorem length_ofFn_flatten : (List.ofFn parts).flatten.length = total (List.ofFn parts) :=
  length_flatten_eq_total _

theorem length_le_total (parts : Fin n → List α) (i : Fin n) :
    (parts i).length ≤ total (List.ofFn parts) := by
  have hPart := start_add_length_le_total (getElem?_ofFn parts i)
  omega

theorem packOnSource_eq [Inhabited α] {inputs : Fin n → List (List α)}
    (hRoot : inputs root = List.ofFn parts) (hFits : total (List.ofFn parts) < 2 ^ 31) (i : Fin n) :
    (onRank n debug i).packOnSource (inputs i) root = pure (packedOn root parts i) := by
  rw [packOnSource, packedOn]
  by_cases hi : i = root
  · rw [if_pos ((onRank_rank_eq_iff i).mpr hi), if_pos hi, hi, hRoot,
      if_pos (List.length_ofFn.trans (onRank_size root).symm), pack_eq hFits]
  · rw [if_neg (mt (onRank_rank_eq_iff i).mp hi), if_neg hi]

theorem succeeds_vectorSize {size : Fin n → Nat} :
    Succeeds perform (fun i => vectorSize (size i : Int)) size := by
  have hPure : (fun i => (vectorSize (size i : Int) : Rank α Nat)) = fun i => pure (size i) := by
    funext i
    rw [vectorSize, if_neg (by omega), Int.toNat_natCast]
  rw [hPure]
  exact yields_pure _

variable (h : Specified perform)

include h

theorem succeeds_prepareScattervBuffers [Inhabited α] (hSize : n < 2 ^ 31)
    {inputs : Fin n → List (List α)} (hRoot : inputs root = List.ofFn parts)
    (hFits : total (List.ofFn parts) < 2 ^ 31) :
    Succeeds perform (fun i => (onRank n debug i).prepareScattervBuffers (inputs i) root)
      fun i => (packedOn root parts i, (parts i).length) := by
  have hPacked : Succeeds perform (fun i => (onRank n debug i).packOnSource (inputs i) root)
      (packedOn root parts) := by
    rw [funext (packOnSource_eq hRoot hFits)]
    exact yields_pure _
  have hLengths : (packedOn root parts root).lengths.length = n := by
    rw [packedOn_self]
    exact (length_counts _).trans List.length_ofFn
  apply hPacked.bind
  apply (succeeds_scatterDetail h .int 1 (by decide) ?_ ?_).bind
  · rw [packedOn_self]
    have hHead : ∀ i : Fin n, ((((counts (List.ofFn parts)).drop (i * 1)).take 1).headD 0 : Int) =
        ((parts i).length : Int) := by
      intro i
      rw [take_drop_counts, List.headD_cons]
    simp only [hHead]
    apply succeeds_vectorSize.bind
    exact yields_pure _
  · rw [hLengths, toInt_of_lt hSize]
    omega
  · rw [hLengths]
    omega

theorem succeeds_validateScattervInput (hFits : total (List.ofFn parts) < 2 ^ 31) :
    Succeeds perform (fun i => (onRank n debug i).validateScattervInput (packedOn root parts i).message
      (packedOn root parts i).lengths (packedOn root parts i).offsets (parts i).length root)
      fun _ => () := by
  apply succeeds_validateInput h hFits
  · rw [packedOn_self]
  · rw [packedOn_self]
  · rw [packedOn_self, length_ofFn_flatten, toInt_of_lt hFits]

theorem succeeds_mpiScatterv :
    Succeeds perform (fun i => mpiScatterv (packedOn root parts i).message
      (packedOn root parts i).lengths (packedOn root parts i).offsets (parts i).length root)
      parts := by
  apply yields_call
  · intro i hRoot
    obtain rfl : i = root := Fin.val_inj.mp (Int.natCast_inj.mp hRoot)
    rw [packedOn_self, length_ofFn_flatten]
    have hTiled := tiled_counts (List.ofFn parts)
    rwa [List.length_ofFn] at hTiled
  · intro i
    have hSegments := segments_ofFn parts
    have hWithin : ∀ j : Fin n, start (List.ofFn parts) j + (parts j).length ≤
        (packedOn root parts root).message.length := by
      intro j
      rw [packedOn_self, length_ofFn_flatten]
      exact start_add_length_le_total (getElem?_ofFn parts j)
    rw [h.scatterv .value (fun i => (packedOn root parts i).message)
      (fun i => (packedOn root parts i).lengths) (fun i => (packedOn root parts i).offsets) root
      (fun i => (parts i).length) (fun i => start (List.ofFn parts) i)
      (by rw [packedOn_self]; exact hSegments) hWithin i, packedOn_self,
      take_drop_flatten (getElem?_ofFn parts i)]

/-- The source rank is called with the list of the parts. -/
theorem succeeds_scatterv [Inhabited α] (hSize : n < 2 ^ 31) {inputs : Fin n → List (List α)}
    (hRoot : inputs root = List.ofFn parts) (hFits : total (List.ofFn parts) < 2 ^ 31) :
    Succeeds perform (fun i => (onRank n debug i).scatterv (inputs i) root) parts := by
  have hRecv : ∀ i, toInt (parts i).length = (parts i).length := by
    intro i
    have hPart := length_le_total parts i
    exact toInt_of_lt (by omega)
  apply (succeeds_prepareScattervBuffers h hSize hRoot hFits).bind
  simp only [scattervDetail, hRecv]
  apply (succeeds_inDebug (succeeds_validateScattervInput h hFits)).bind
  exact succeeds_mpiScatterv h

end CoSimIO.MPIDataCommunicator
