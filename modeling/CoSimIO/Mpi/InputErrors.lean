import CoSimIO.Mpi.Reference
import CoSimIO.Mpi.Scattering

/-! # The input errors of `Scatter` and `Scatterv` -/

namespace CoSimIO.MPIDataCommunicator

open Collective MPI Packing

set_option autoImplicit false

variable {α : Type} {n : Nat} {debug : Bool} {perform : Perform (Answer (α := α)) n}
  {root : Fin n}

section Conversion

variable {size : Nat}

theorem toInt_lt (size : Nat) : toInt size < 2 ^ 31 := BitVec.toInt_lt

theorem toInt_le (size : Nat) : toInt size ≤ size := by
  rw [toInt, BitVec.toInt_eq_toNat_cond, BitVec.toNat_ofNat]
  have hMod := Nat.mod_le size (2 ^ 32)
  split
  · omega
  · omega

end Conversion

section Scatter

variable {sends : Fin n → List α}

/-- The message of a rank can be distributed evenly. -/
abbrev Divisible (n : Nat) (values : List α) : Prop := (toInt values.length).tmod n = 0

theorem scatter_of_divisible {c : MPIDataCommunicator} {values : List α}
    (h : Divisible c.size values) (sourceRank : Int) :
    c.scatter values sourceRank = (do
      let messageSize ← c.broadcast ((toInt values.length).tdiv c.size) sourceRank
      let recvSize ← vectorSize messageSize
      c.scatterDetail .value values recvSize sourceRank) := by
  simp only [scatter, errorIfNot, decide_eq_true h]
  rfl

theorem scatter_of_not_divisible {c : MPIDataCommunicator} {values : List α}
    (h : ¬ Divisible c.size values) (sourceRank : Int) :
    c.scatter values sourceRank = .ended (.error (c.divisionError (toInt values.length))) := by
  simp only [scatter, errorIfNot, decide_eq_false h]
  rfl

theorem scatter_waits {values : List α} (i : Fin n) (h : Divisible n values) (sourceRank : Int) :
    ∃ q next, (onRank n debug i).scatter values sourceRank = .call q next := by
  rw [scatter_of_divisible h]
  cases debug with
  | false => exact ⟨_, _, rfl⟩
  | true => exact ⟨_, _, rfl⟩

theorem vectorSize_of_neg {size : Int} (h : size < 0) :
    (vectorSize size : Rank α Nat) = throw lengthError :=
  if_pos h

theorem ends_scatter (h : Specified perform) (hDivisible : ∀ i, Divisible n (sends i)) :
    ∃ outcomes,
      Ends perform (Tiles n) (fun i => (onRank n debug i).scatter (sends i) root) outcomes ∧
      ((∀ i, ∃ a, outcomes i = .ok a) ∨ ∀ i, ∃ e, outcomes i = .error e) := by
  have hBroadcast : Succeeds perform (fun i => (onRank n debug i).broadcast
      ((toInt (sends i).length).tdiv n) root) fun _ => (toInt (sends root).length).tdiv n :=
    succeeds_broadcast h _
  have hParts : (toInt (sends root).length).tdiv n * n = toInt (sends root).length :=
    Int.tdiv_mul_cancel_of_tmod_eq_zero (hDivisible root)
  have hScatter : (fun i => (onRank n debug i).scatter (sends i) root) = fun i => (do
      let messageSize ← (onRank n debug i).broadcast ((toInt (sends i).length).tdiv n) root
      let recvSize ← vectorSize messageSize
      (onRank n debug i).scatterDetail .value (sends i) recvSize root) :=
    funext fun i => scatter_of_divisible (hDivisible i) _
  rw [hScatter]
  rcases lt_or_ge ((toInt (sends root).length).tdiv n) 0 with hNeg | hNonneg
  · refine ⟨fun _ => .error lengthError, hBroadcast.bind ?_, .inr fun _ => ⟨_, rfl⟩⟩
    rw [vectorSize_of_neg hNeg]
    exact ends_throw _
  · obtain ⟨size, hSize⟩ := Int.eq_ofNat_of_zero_le hNonneg
    have hLt := toInt_lt (sends root).length
    have hLe := toInt_le (sends root).length
    have hPos : 0 < n := root.pos
    rw [hSize] at hBroadcast hParts
    have hProduct : size * n ≤ (sends root).length ∧ size * n < 2 ^ 31 := by
      omega
    have hSmall : size < 2 ^ 31 := (Nat.le_mul_of_pos_right size hPos).trans_lt hProduct.2
    refine ⟨fun i => .ok (((sends root).drop (i * size)).take size), ?_, .inl fun _ => ⟨_, rfl⟩⟩
    exact hBroadcast.bind (succeeds_vectorSize.bind
      (succeeds_scatterDetail h .value size
      hSmall hParts.symm (by rw [Nat.mul_comm]; exact hProduct.1)))

theorem scatter_collective_iff (h : Specified perform) :
    CollectiveErrors perform (fun i => (onRank n debug i).scatter (sends i) root) ↔
      (∀ i, Divisible n (sends i)) ∨ ∀ i, ¬ Divisible n (sends i) := by
  have : NeZero n := ⟨Nat.ne_of_gt root.pos⟩
  constructor
  · intro hCollective
    by_contra hMixed
    rw [not_or, not_forall, not_forall] at hMixed
    obtain ⟨⟨i, hi⟩, j, hj⟩ := hMixed
    rw [not_not] at hj
    obtain ⟨q, next, hWaiting⟩ := scatter_waits j hj root
    exact not_collective (scatter_of_not_divisible hi _) hWaiting hCollective
  · rintro (hAll | hNone)
    · obtain ⟨outcomes, hEnds, hSame⟩ := ends_scatter h hAll
      exact hEnds.collective hSame
    · have hEnds : Ends perform (Tiles n) (fun i => (onRank n debug i).scatter (sends i) root)
          fun i => .error ((onRank n debug i).divisionError (toInt (sends i).length)) := by
        simp only [fun i => scatter_of_not_divisible (c := onRank n debug i) (hNone i)]
        exact .ended _
      exact hEnds.collective (.inr fun _ => ⟨_, rfl⟩)

end Scatter

section Scatterv

variable [Inhabited α] {sends : Fin n → List (List α)}

theorem scatterv_throws (hCount : (sends root).length ≠ n) :
    (onRank n debug root).scatterv (sends root) root =
      .ended (.error ((onRank n debug root).vectorsError (sends root).length)) := by
  have hPack : (onRank n debug root).packOnSource (sends root) root =
      throw ((onRank n debug root).vectorsError (sends root).length) := by
    rw [packOnSource, if_pos ((onRank_rank_eq_iff root).mpr rfl), onRank_size, if_neg hCount]
  rw [scatterv, prepareScattervBuffers, hPack]
  rfl

theorem scatterv_waits {i : Fin n} (hi : i ≠ root) (values : List (List α)) :
    ∃ q next, (onRank n debug i).scatterv values root = .call q next := by
  have hPack : (onRank n debug i).packOnSource values root = pure ⟨[], [], []⟩ := by
    rw [packOnSource, if_neg (mt (onRank_rank_eq_iff i).mp hi)]
  rw [scatterv, prepareScattervBuffers, hPack]
  cases debug with
  | false => exact ⟨_, _, rfl⟩
  | true => exact ⟨_, _, rfl⟩

theorem length_eq_of_collective (hTwo : 2 ≤ n)
    (hCollective : CollectiveErrors perform
      (fun i => (onRank n debug i).scatterv (sends i) root)) : (sends root).length = n := by
  by_contra hCount
  have : Nontrivial (Fin n) := Fin.nontrivial_iff_two_le.mpr hTwo
  obtain ⟨i, hi⟩ := exists_ne root
  obtain ⟨q, next, hWaiting⟩ := scatterv_waits hi (sends i)
  exact not_collective (scatterv_throws hCount) hWaiting hCollective

theorem collective_of_length_eq (h : Specified perform) (hSize : n < 2 ^ 31)
    (hFits : total (sends root) < 2 ^ 31) (hCount : (sends root).length = n) :
    CollectiveErrors perform (fun i => (onRank n debug i).scatterv (sends i) root) := by
  have : NeZero n := ⟨Nat.ne_of_gt root.pos⟩
  have hParts : sends root = List.ofFn fun i : Fin n => (sends root).get (i.cast hCount.symm) := by
    apply List.ext_getElem
    · rw [List.length_ofFn, hCount]
    · intro k hk hk'
      rw [List.getElem_ofFn]
      rfl
  exact Ends.collective (succeeds_scatterv h hSize hParts (hParts ▸ hFits))
    (.inl fun _ => ⟨_, rfl⟩)

end Scatterv

/-- The errors of `Scatter` are collective where the messages of all ranks or of none can be
distributed evenly, those of `Scatterv` where the source rank has one vector for every rank. -/
theorem inputErrors_collective_iff [Inhabited α] (hTwo : 2 ≤ n) (hSize : n < 2 ^ 31)
    (h : Specified perform) (debug : Bool) (root : Fin n) :
    (∀ sends : Fin n → List α,
      CollectiveErrors perform (fun i => (onRank n debug i).scatter (sends i) root) ↔
        (∀ i, Divisible n (sends i)) ∨ ∀ i, ¬ Divisible n (sends i)) ∧
    ∀ sends : Fin n → List (List α),
      ((sends root).length ≠ n →
        ¬ CollectiveErrors perform (fun i => (onRank n debug i).scatterv (sends i) root)) ∧
      (total (sends root) < 2 ^ 31 →
        (CollectiveErrors perform (fun i => (onRank n debug i).scatterv (sends i) root) ↔
          (sends root).length = n)) := by
  refine ⟨fun _ => scatter_collective_iff h, fun sends => ⟨?_, ?_⟩⟩
  · exact fun hCount hCollective => hCount (length_eq_of_collective hTwo hCollective)
  · exact fun hFits => ⟨length_eq_of_collective hTwo, collective_of_length_eq h hSize hFits⟩

theorem inputErrors_two : CollectiveErrors (reference (α := Nat))
    (fun i => (onRank 2 true i).scatterv (if i = 0 then [[7], []] else []) 0) :=
  (((inputErrors_collective_iff (by decide) (by decide) reference_specified true 0).2 _).2
    (by decide)).mpr rfl

/-- Rank 1 waits in the next operation. -/
theorem inputErrors_not_collective :
    ¬ CollectiveErrors (reference (α := Nat))
      (fun i => (onRank 2 true i).scatter (if i = 0 then [7, 8, 9] else []) 0) ∧
    ¬ CollectiveErrors (reference (α := Nat))
      (fun i => (onRank 2 true i).scatterv (if i = 0 then [[7]] else []) 0) := by
  constructor
  · exact not_collective (i := 0) (j := 1) rfl rfl
  · exact not_collective (i := 0) (j := 1) rfl rfl

end CoSimIO.MPIDataCommunicator
