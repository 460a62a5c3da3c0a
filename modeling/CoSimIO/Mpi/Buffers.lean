import CoSimIO.Library.Packing
import CoSimIO.Mpi.Rules

/-! # The buffers of `Scatterv` and `Gatherv` -/

namespace CoSimIO.MPIDataCommunicator

open Packing

set_option autoImplicit false

variable {α : Type} {parts : List (List α)}

/-- The lengths of the parts as numbers of the type `int` -/
def counts (parts : List (List α)) : List Int := parts.map fun part => (part.length : Int)

/-- The positions of the parts behind others, as numbers of the type `int` -/
def displacements (before : Nat) (parts : List (List α)) : List Int :=
  (List.range parts.length).map fun i => ((before + start parts i : Nat) : Int)

theorem displacements_cons (before : Nat) (part : List α) (parts : List (List α)) :
    displacements before (part :: parts) =
      (before : Int) :: displacements (before + part.length) parts := by
  rw [displacements, List.length_cons, List.range_succ_eq_map, List.map_cons, start_zero,
    Nat.add_zero, displacements, List.map_map]
  refine congrArg _ (List.map_congr_left ?_)
  intro i _
  rw [Function.comp_apply, start_cons_succ, Nat.add_assoc]

section Pack

theorem packLengths_eq {messageSize : Nat} (hFits : messageSize + total parts < 2 ^ 31) :
    packLengths messageSize parts =
      (counts parts, displacements messageSize parts, messageSize + total parts) := by
  induction parts generalizing messageSize with
  | nil => rfl
  | cons part parts ih =>
    rw [total_cons] at hFits
    have hPart : unsigned part.length = part.length := Nat.mod_eq_of_lt (by omega)
    have hSize : unsigned (messageSize + part.length) = messageSize + part.length :=
      Nat.mod_eq_of_lt (by omega)
    rw [packLengths, hPart, hSize, ih (by omega), toInt_of_lt (by omega), toInt_of_lt (by omega),
      displacements_cons, total_cons, Nat.add_assoc]
    rfl

theorem copyValues_eq {before old after values : List α} (h : old.length = values.length) :
    copyValues (before ++ old ++ after) before.length values = before ++ values ++ after := by
  induction values generalizing before old with
  | nil =>
    obtain rfl := List.eq_nil_of_length_eq_zero h
    rfl
  | cons value values ih =>
    cases old with
    | nil => nomatch h
    | cons first old =>
      have hSet : (before ++ first :: old ++ after).set before.length value =
          before ++ [value] ++ old ++ after := by
        simp
      have hLength : before.length + 1 = (before ++ [value]).length := by simp
      rw [copyValues, hSet, hLength, ih (Nat.succ.inj h)]
      simp

theorem copyMessage_eq {before old after : List α} (h : old.length = total parts) :
    copyMessage (before ++ old ++ after) before.length parts = before ++ parts.flatten ++ after := by
  induction parts generalizing before old with
  | nil =>
    obtain rfl := List.eq_nil_of_length_eq_zero h
    rfl
  | cons part parts ih =>
    rw [total_cons] at h
    have hSplit : before ++ old ++ after =
        before ++ old.take part.length ++ (old.drop part.length ++ after) := by
      rw [← List.append_assoc, List.append_assoc before (old.take _), List.take_append_drop]
    have hLength : before.length + part.length = (before ++ part).length := by simp
    rw [copyMessage, hSplit, copyValues_eq (by rw [List.length_take]; omega), hLength,
      ← List.append_assoc, ih (by rw [List.length_drop]; omega)]
    simp

theorem pack_eq [Inhabited α] (hFits : total parts < 2 ^ 31) :
    pack parts = ⟨parts.flatten, counts parts, displacements 0 parts⟩ := by
  have hLengths : packLengths 0 parts =
      (counts parts, displacements 0 parts, 0 + total parts) :=
    packLengths_eq (by rwa [Nat.zero_add])
  have hCopy : copyMessage ([] ++ List.replicate (total parts) (default : α) ++ []) 0 parts =
      [] ++ parts.flatten ++ [] :=
    copyMessage_eq List.length_replicate
  rw [List.nil_append, List.append_nil, List.nil_append, List.append_nil] at hCopy
  rw [Nat.zero_add] at hLengths
  rw [pack, hLengths, hCopy]

end Pack

section Gather

theorem gatherOffsets_eq {messageSize : Nat} :
    gatherOffsets messageSize (counts parts) =
      (displacements messageSize parts, ((messageSize + total parts : Nat) : Int)) := by
  induction parts generalizing messageSize with
  | nil => rfl
  | cons part parts ih =>
    have hSize : (messageSize : Int) + part.length = ((messageSize + part.length : Nat) : Int) := by
      push_cast
      rfl
    rw [counts, List.map_cons, gatherOffsets, hSize, ← counts, ih, displacements_cons, total_cons,
      Nat.add_assoc]

theorem unpack_eq [Inhabited α] {before : List α} :
    unpack (before ++ parts.flatten) before.length (counts parts) = parts := by
  induction parts generalizing before with
  | nil => rfl
  | cons part parts ih =>
    have hPart : (List.range part.length).map (fun j =>
        (before ++ (part :: parts).flatten).getD (before.length + j) default) = part := by
      apply List.ext_getElem?
      intro k
      rcases Nat.lt_or_ge k part.length with hk | hk
      · rw [List.getElem?_map, List.getElem?_range hk, List.getElem?_eq_getElem hk, Option.map_some,
          List.getD_eq_getElem?_getD, List.getElem?_append_right (Nat.le_add_right _ _),
          Nat.add_sub_cancel_left, List.flatten_cons, List.getElem?_append_left hk,
          List.getElem?_eq_getElem hk, Option.getD_some]
      · rw [List.getElem?_eq_none (by simpa using hk), List.getElem?_eq_none hk]
    have hLength : before.length + part.length = (before ++ part).length := by simp
    rw [counts, List.map_cons, unpack, Int.toNat_natCast, hPart, ← counts, hLength,
      List.flatten_cons, ← List.append_assoc, ih]

end Gather

section Ranges

theorem pastEnd_displacements {before k : Nat} {messageSize : Int}
    (h : ((before + total parts : Nat) : Int) ≤ messageSize) :
    pastEnd messageSize (displacements before parts) (counts parts) k = none := by
  induction parts generalizing before k with
  | nil => rfl
  | cons part parts ih =>
    rw [total_cons, ← Nat.add_assoc] at h
    have hEnd : ¬ (before : Int) + part.length > messageSize := by omega
    rw [displacements_cons, counts, List.map_cons, pastEnd, if_neg hEnd, ← counts, ih h]

theorem length_counts (parts : List (List α)) : (counts parts).length = parts.length :=
  List.length_map _

theorem length_displacements (before : Nat) (parts : List (List α)) :
    (displacements before parts).length = parts.length := by
  rw [displacements, List.length_map, List.length_range]

theorem getElem?_displacements {i : Nat} (h : i < parts.length) :
    (displacements 0 parts)[i]? = some (start parts i : Int) := by
  rw [displacements, List.getElem?_map, List.getElem?_range h, Option.map_some, Nat.zero_add]

theorem sum_take_counts (parts : List (List α)) (i : Nat) :
    ((counts parts).take i).sum = (start parts i : Int) := by
  induction parts generalizing i with
  | nil => simp [counts, start]
  | cons part parts ih =>
    cases i with
    | zero => rfl
    | succ i =>
      rw [counts, List.map_cons, List.take_succ_cons, List.sum_cons, ← counts, ih,
        start_cons_succ]
      push_cast
      rfl

theorem tiled_counts (parts : List (List α)) :
    Tiled parts.length (counts parts) (displacements 0 parts) (total parts) where
  onePerRank := ⟨length_counts parts, length_displacements 0 parts⟩
  nonneg length hLength := by
    obtain ⟨part, -, rfl⟩ := List.mem_map.mp hLength
    exact Int.natCast_nonneg _
  consecutive i hi := by rw [getElem?_displacements hi, sum_take_counts]
  covers := by
    rw [← start_length, ← sum_take_counts, List.take_of_length_le (length_counts parts).le]

end Ranges

section Ranks

variable {n : Nat} (parts : Fin n → List α)

theorem getElem?_ofFn (i : Fin n) : (List.ofFn parts)[i.val]? = some (parts i) := by
  rw [List.getElem?_eq_getElem (by rw [List.length_ofFn]; exact i.isLt), List.getElem_ofFn]

theorem segments_ofFn : MPI.Segments (counts (List.ofFn parts)) (displacements 0 (List.ofFn parts))
    (fun i => (parts i).length) fun i : Fin n => start (List.ofFn parts) i where
  lengths i := by rw [counts, List.getElem?_map, getElem?_ofFn, Option.map_some]
  offsets i := getElem?_displacements (by rw [List.length_ofFn]; exact i.isLt)

theorem sum_length_eq_total : ∑ i, ((parts i).length : Int) = total (List.ofFn parts) := by
  rw [total, List.map_ofFn, List.sum_ofFn]
  push_cast
  rfl

theorem take_drop_counts (i : Fin n) :
    ((counts (List.ofFn parts)).drop (i * 1)).take 1 = [((parts i).length : Int)] := by
  have hAt : (counts (List.ofFn parts))[i.val]? = some ((parts i).length : Int) :=
    (segments_ofFn parts).lengths i
  obtain ⟨hLt, hEq⟩ := List.getElem?_eq_some_iff.mp hAt
  rw [Nat.mul_one, List.drop_eq_getElem_cons hLt, List.take_succ_cons, List.take_zero, hEq]

end Ranks

section Validation

open Collective MPI

variable {n : Nat} {debug : Bool} {perform : Perform (Answer (α := α)) n} {root : Fin n}
  {parts : Fin n → List α}

/-- The local sizes are those of the parts, and the root has the buffer for them. -/
theorem succeeds_validateInput (h : Specified perform) (hFits : total (List.ofFn parts) < 2 ^ 31)
    {operation : Text} {messageSize : Fin n → Int} {lengths offsets : Fin n → List Int}
    {countError sizeError : Fin n → Int → Text} {endError : Fin n → Nat → Text}
    (hLengths : lengths root = counts (List.ofFn parts))
    (hOffsets : offsets root = displacements 0 (List.ofFn parts))
    (hMessage : messageSize root = total (List.ofFn parts)) :
    Succeeds perform (fun i => (onRank n debug i).validateInput operation (parts i).length
      (messageSize i) (lengths i) (offsets i) root (countError i) (sizeError i) (endError i))
      fun _ => () := by
  apply (succeeds_checkRank h _).bind
  apply (succeeds_mpiScatter h .int 1 ?_).bind
  · have hHead : ∀ i : Fin n, ((((lengths root).drop (i * 1)).take 1).headD 0 : Int) =
        ((parts i).length : Int) := by
      intro i
      rw [hLengths, take_drop_counts, List.headD_cons]
    simp only [hHead]
    apply (succeeds_errorIfTrueOnAnyRank h ?_).bind
    · apply (succeeds_errorIf fun _ => rfl).bind
      obtain ⟨sum, hSum, hReduce⟩ := succeeds_mpiReduceSum h (fun i => ((parts i).length : Int)) root
        (fun i => Int.natCast_nonneg _) (by rw [sum_length_eq_total]; omega)
      apply hReduce.bind
      apply (succeeds_broadcastErrorIfTrue h ?_).bind
      · apply (succeeds_errorIf fun _ => rfl).bind
        apply (succeeds_broadcastErrorIfTrue h ?_).bind
        · exact succeeds_errorIf fun _ => rfl
        · rw [if_pos ((onRank_rank_eq_iff root).mpr rfl), hMessage, hLengths, hOffsets,
            pastEnd_displacements (by rw [Nat.zero_add])]
          rfl
      · rw [decide_eq_false_iff_not, hSum, sum_length_eq_total, hMessage]
        omega
    · intro i
      rw [decide_eq_false_iff_not]
      exact fun hNe => hNe rfl
  · rw [hLengths, length_counts, List.length_ofFn]
    omega

end Validation

end CoSimIO.MPIDataCommunicator
