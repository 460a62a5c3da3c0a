import CoSimIO.ModelPart.Restoring

/-! # Where the nodes and elements of a part are loaded

The objects of the part that is loaded into are used again as long as there are some, in the
order of their vector. The others are new.
-/

namespace CoSimIO

open Restore Restore.Writer Sequences Serializer

set_option autoImplicit false

section Placed

variable {v old : List Nat} {fresh : Nat}

/-- The place of an object of the vector `v` that is loaded into `old` -/
def placed (v old : List Nat) (fresh ref : Nat) : Nat :=
  old[v.idxOf ref]?.getD (fresh + (v.idxOf ref - old.length))

theorem placed_eq (hNodup : v.Nodup) {i x : Nat} (h : v[i]? = some x) :
    placed v old fresh x = old[i]?.getD (fresh + (i - old.length)) := by
  have hIndex : v.idxOf x = i := by
    obtain ⟨hLt, rfl⟩ := List.getElem?_eq_some_iff.mp h
    exact hNodup.idxOf_getElem i hLt
  rw [placed, hIndex]

theorem placed_cases (hNodup : v.Nodup) {i x : Nat} (h : v[i]? = some x) (old : List Nat)
    (fresh : Nat) :
    (i < old.length ∧ old[i]? = some (placed v old fresh x)) ∨
    (old[i]? = none ∧ old.length ≤ i ∧ placed v old fresh x = fresh + (i - old.length)) := by
  rw [placed_eq hNodup h]
  rcases Nat.lt_or_ge i old.length with hLt | hGe
  · rw [List.getElem?_eq_getElem hLt]
    exact .inl ⟨hLt, rfl⟩
  · rw [List.getElem?_eq_none hGe]
    exact .inr ⟨rfl, hGe, rfl⟩

theorem placed_injective (hNodup : v.Nodup) (hOldNodup : old.Nodup)
    (hBound : ∀ ref ∈ old, ref < fresh) :
    ∀ x ∈ v, ∀ y ∈ v, placed v old fresh x = placed v old fresh y → x = y := by
  intro x hx y hy hEq
  obtain ⟨i, hi⟩ := List.getElem?_of_mem hx
  obtain ⟨j, hj⟩ := List.getElem?_of_mem hy
  suffices hIndex : i = j by
    subst hIndex
    exact Option.some.inj (hi.symm.trans hj)
  rcases placed_cases hNodup hi old fresh with ⟨hI, hOldI⟩ | ⟨-, hI, hNewI⟩
  · rcases placed_cases hNodup hj old fresh with ⟨hJ, hOldJ⟩ | ⟨-, hJ, hNewJ⟩
    · exact (List.getElem?_inj hI hOldNodup).mp (hOldI.trans ((congrArg some hEq).trans hOldJ.symm))
    · have hBelow := hBound _ (List.mem_of_getElem? hOldI)
      omega
  · rcases placed_cases hNodup hj old fresh with ⟨hJ, hOldJ⟩ | ⟨-, hJ, hNewJ⟩
    · have hBelow := hBound _ (List.mem_of_getElem? hOldJ)
      omega
    · omega

theorem placed_lt (hNodup : v.Nodup) (hBound : ∀ ref ∈ old, ref < fresh) {x : Nat} (hx : x ∈ v) :
    placed v old fresh x < fresh + (v.length - old.length) := by
  obtain ⟨i, hi⟩ := List.getElem?_of_mem hx
  have hLength := (List.getElem?_eq_some_iff.mp hi).1
  rcases placed_cases hNodup hi old fresh with ⟨-, hOld⟩ | ⟨-, hGe, hNew⟩
  · have hBelow := hBound _ (List.mem_of_getElem? hOld)
    omega
  · omega

theorem eq_placed_iff (hNodup : v.Nodup) (hOldNodup : old.Nodup) {x y : Nat} (hx : x ∈ v)
    (hy : y < fresh) : y = placed v old fresh x ↔ old.idxOf? y = v.idxOf? x := by
  obtain ⟨i, hi⟩ := List.getElem?_of_mem hx
  rw [(idxOf?_eq_some_iff_of_nodup hNodup).mpr hi, idxOf?_eq_some_iff_of_nodup hOldNodup]
  rcases placed_cases hNodup hi old fresh with ⟨-, hOld⟩ | ⟨hNone, hGe, hNew⟩
  · rw [hOld]
    exact ⟨fun h => congrArg some h.symm, fun h => (Option.some.inj h).symm⟩
  · rw [hNone]
    constructor
    · intro hEq
      omega
    · intro hEq
      cases hEq

/-- Objects are the places of others exactly if they are at the same positions. -/
theorem eq_map_placed_iff (hNodup : v.Nodup) (hOldNodup : old.Nodup) {xs ys : List Nat}
    (hxs : ∀ x ∈ xs, x ∈ v) (hys : ∀ y ∈ ys, y < fresh) :
    ys = xs.map (placed v old fresh) ↔ ys.map old.idxOf? = xs.map v.idxOf? := by
  induction ys generalizing xs with
  | nil =>
    cases xs with
    | nil => exact ⟨fun _ => rfl, fun _ => rfl⟩
    | cons x xs => exact ⟨nofun, nofun⟩
  | cons y ys ih =>
    cases xs with
    | nil => exact ⟨nofun, nofun⟩
    | cons x xs =>
      have hHead := eq_placed_iff hNodup hOldNodup (hxs x List.mem_cons_self)
        (hys y List.mem_cons_self)
      have hTail := ih (fun x hx => hxs x (List.mem_cons_of_mem _ hx))
        fun y hy => hys y (List.mem_cons_of_mem _ hy)
      rw [List.map_cons, List.map_cons, List.map_cons, List.cons.injEq, List.cons.injEq, hHead,
        hTail]

variable {β : Type} {source f f' : Nat → β}

/-- The objects of the vector up to `i` are at their places. -/
def AtPlaces (v old : List Nat) (fresh : Nat) (source : Nat → β) (i : Nat) (f : Nat → β) : Prop :=
  ∀ j x, j < i → v[j]? = some x → f (placed v old fresh x) = source x

theorem AtPlaces.next {i x : Nat} (h : AtPlaces v old fresh source i f) (hNodup : v.Nodup)
    (hOldNodup : old.Nodup) (hBound : ∀ ref ∈ old, ref < fresh) (hx : v[i]? = some x)
    (hHere : f' (placed v old fresh x) = source x)
    (hOthers : ∀ ref, ref ≠ placed v old fresh x → f' ref = f ref) :
    AtPlaces v old fresh source (i + 1) f' := by
  intro j y hj hy
  rcases Nat.lt_succ_iff_lt_or_eq.mp hj with hEarlier | rfl
  · have hNe : placed v old fresh y ≠ placed v old fresh x := by
      intro hEq
      obtain rfl := placed_injective hNodup hOldNodup hBound y (List.mem_of_getElem? hy) x
        (List.mem_of_getElem? hx) hEq
      have hLt := (List.getElem?_eq_some_iff.mp hy).1
      have hIndex := (List.getElem?_inj hLt hNodup).mp (hy.trans hx.symm)
      omega
    rw [hOthers _ hNe]
    exact h j y hEarlier hy
  · obtain rfl := Option.some.inj (hx.symm.trans hy)
    exact hHere

theorem AtPlaces.mem (h : AtPlaces v old fresh source v.length f) {x : Nat} (hx : x ∈ v) :
    f (placed v old fresh x) = source x := by
  obtain ⟨j, hj⟩ := List.getElem?_of_mem hx
  exact h j x (List.getElem?_eq_some_iff.mp hj).1 hj

end Placed

section Nodes

variable {cfg : Config} {v old : List Nat} {source : Nat → Node} {heap₀ heap : Heap}

structure NodesLoaded (v old : List Nat) (source : Nat → Node) (heap₀ : Heap) (i : Nat)
    (heap : Heap) : Prop where
  nodes : AtPlaces v old heap₀.nextNode source i heap.nodes
  nextNode : heap.nextNode = heap₀.nextNode + (i - old.length)
  nextElement : heap.nextElement = heap₀.nextElement
  nextModelPart : heap.nextModelPart = heap₀.nextModelPart

theorem NodesLoaded.next {i x : Nat} (h : NodesLoaded v old source heap₀ i heap)
    (hNodup : v.Nodup) (hOldNodup : old.Nodup) (hBound : ∀ ref ∈ old, ref < heap₀.nextNode)
    (hx : v[i]? = some x) {made : Nat × Heap}
    (hMade : made = Memory.made (nodePointee cfg).create old[i]? heap) :
    made.1 = placed v old heap₀.nextNode x ∧
      NodesLoaded v old source heap₀ (i + 1)
        (made.2.setNode (placed v old heap₀.nextNode x) (source x)) := by
  rcases placed_cases hNodup hx old heap₀.nextNode with ⟨hLt, hOld⟩ | ⟨hNone, hGe, hPlace⟩
  · rw [hOld] at hMade
    subst hMade
    refine ⟨rfl, ?_, ?_, h.nextElement, h.nextModelPart⟩
    · exact h.nodes.next hNodup hOldNodup hBound hx (if_pos rfl) fun ref hNe => if_neg hNe
    · have hNext : heap.nextNode = heap₀.nextNode + (i - old.length) := h.nextNode
      change heap.nextNode = _
      omega
  · rw [hNone] at hMade
    subst hMade
    have hNext := h.nextNode
    refine ⟨hNext.trans hPlace.symm, ?_, ?_, h.nextElement, h.nextModelPart⟩
    · refine h.nodes.next hNodup hOldNodup hBound hx (if_pos rfl) ?_
      intro ref hNe
      have hFresh : ref ≠ heap.nextNode := by omega
      exact (if_neg hNe).trans (if_neg hFresh)
    · change heap.nextNode + 1 = _
      omega

end Nodes

section Elements

variable {cfg : Config} {v old : List Nat} {source : Nat → Element} {heap₀ heap : Heap}

structure ElementsLoaded (v old : List Nat) (source : Nat → Element) (heap₀ : Heap) (i : Nat)
    (heap : Heap) : Prop where
  elements : AtPlaces v old heap₀.nextElement source i heap.elements
  nextElement : heap.nextElement = heap₀.nextElement + (i - old.length)
  nodes : heap.nodes = heap₀.nodes
  nextNode : heap.nextNode = heap₀.nextNode
  nextModelPart : heap.nextModelPart = heap₀.nextModelPart

theorem ElementsLoaded.next {i x : Nat} (h : ElementsLoaded v old source heap₀ i heap)
    (hNodup : v.Nodup) (hOldNodup : old.Nodup) (hBound : ∀ ref ∈ old, ref < heap₀.nextElement)
    (hx : v[i]? = some x) {made : Nat × Heap}
    (hMade : made = Memory.made (elementPointee cfg).create old[i]? heap) :
    made.1 = placed v old heap₀.nextElement x ∧
      ElementsLoaded v old source heap₀ (i + 1)
        (made.2.setElement (placed v old heap₀.nextElement x) (source x)) := by
  rcases placed_cases hNodup hx old heap₀.nextElement with ⟨hLt, hOld⟩ | ⟨hNone, hGe, hPlace⟩
  · rw [hOld] at hMade
    subst hMade
    refine ⟨rfl, ?_, ?_, h.nodes, h.nextNode, h.nextModelPart⟩
    · exact h.elements.next hNodup hOldNodup hBound hx (if_pos rfl) fun ref hNe => if_neg hNe
    · have hNext : heap.nextElement = heap₀.nextElement + (i - old.length) := h.nextElement
      change heap.nextElement = _
      omega
  · rw [hNone] at hMade
    subst hMade
    have hNext := h.nextElement
    refine ⟨hNext.trans hPlace.symm, ?_, ?_, h.nodes, h.nextNode, h.nextModelPart⟩
    · refine h.elements.next hNodup hOldNodup hBound hx (if_pos rfl) ?_
      intro ref hNe
      have hFresh : ref ≠ heap.nextElement := by omega
      exact (if_neg hNe).trans (if_neg hFresh)
    · change heap.nextElement + 1 = _
      omega

end Elements

section Vectors

variable {cfg : Config} {heap : Heap} {layout : Object → BitVec 64} {s₀ : List (BitVec 64)}
  {m₀ : Memory Heap} {v old : IndexedVector}

/-- The vector of all nodes of a part, none of which is in the stream yet. -/
theorem reads_nodes (hFaithful : ∀ ref ∈ v.data, (heap.nodes ref).Faithful cfg)
    (hLength : v.data.length < 2 ^ 64) (hIds : (v.data.map heap.nodeId).Nodup)
    (hAddresses : (v.data.map fun ref => layout (.node ref)).Nodup)
    (hOldNodup : old.data.Nodup) (hOldBound : ∀ ref ∈ old.data, ref < m₀.heap.nextNode)
    (hNew : ∀ ref ∈ v.data, layout (.node ref) ∉ s₀ ∧
      m₀.loadedPointers (layout (.node ref)) = none) :
    Reads (Ready cfg) (v.save cfg "mNodes".toList (saveNodePointer cfg heap layout))
      (old.load cfg "mNodes".toList (nodePointee cfg) Heap.nodeId)
      (fun s m => s = s₀ ∧ m = m₀)
      fun w s m => ModelPart.Renamed (placed v.data old.data m₀.heap.nextNode) m.heap.nodeId v w ∧
        LoadedVector (placed v.data old.data m₀.heap.nextNode) (fun ref => layout (.node ref))
          v.data s₀ m₀ s m ∧
        NodesLoaded v.data old.data heap.nodes m₀.heap v.data.length m.heap := by
  have hNodup : v.data.Nodup := List.Nodup.of_map heap.nodeId hIds
  apply ModelPart.reads_indexedVector (by decide)
  · refine reads_vector_new (by decide) hLength hAddresses hNew ?_ ?_
    · exact ⟨nofun, (Nat.zero_sub _).symm ▸ rfl, rfl, rfl⟩
    · intro i x hx current hLoaded made hMade
      obtain ⟨hPlace, hNext⟩ := hLoaded.next hNodup hOldNodup hOldBound hx hMade
      refine ⟨hPlace, ?_⟩
      intro s m _ _ hHeap
      apply (reads_node (hFaithful x (List.mem_of_getElem? hx))).conseq fun _ _ h => h
      rintro _ s' m' ⟨rfl, rfl⟩
      refine ⟨rfl, ⟨rfl, Nat.le_refl _, fun _ _ => rfl⟩, ?_⟩
      rw [hHeap]
      exact hNext
  · rintro s m ⟨-, hLoaded⟩ ref hRef
    exact congrArg Node.id (hLoaded.nodes.mem hRef)
  · exact hIds

/-- The vector of all elements of a part, whose nodes are loaded already. -/
theorem reads_elements {place : Nat → Nat}
    (hSize : ∀ ref ∈ v.data, (heap.elements ref).nodes.length < 2 ^ 64)
    (hLength : v.data.length < 2 ^ 64) (hIds : (v.data.map heap.elementId).Nodup)
    (hAddresses : (v.data.map fun ref => layout (.element ref)).Nodup)
    (hOldNodup : old.data.Nodup) (hOldBound : ∀ ref ∈ old.data, ref < m₀.heap.nextElement)
    (hNew : ∀ ref ∈ v.data, layout (.element ref) ∉ s₀ ∧
      m₀.loadedPointers (layout (.element ref)) = none)
    (hKnown : ∀ ref ∈ v.data, ∀ n ∈ (heap.elements ref).nodes,
      layout (.node n) ∈ s₀ ∧ m₀.Holds (layout (.node n)) (place n)) :
    Reads (Ready cfg) (v.save cfg "mElements".toList (saveElementPointer cfg heap layout))
      (old.load cfg "mElements".toList (elementPointee cfg) Heap.elementId)
      (fun s m => s = s₀ ∧ m = m₀)
      fun w s m => ModelPart.Renamed (placed v.data old.data m₀.heap.nextElement) m.heap.elementId v w ∧
        LoadedVector (placed v.data old.data m₀.heap.nextElement)
          (fun ref => layout (.element ref)) v.data s₀ m₀ s m ∧
        ElementsLoaded v.data old.data
          (fun ref => { heap.elements ref with nodes := (heap.elements ref).nodes.map place })
          m₀.heap v.data.length m.heap := by
  have hNodup : v.data.Nodup := List.Nodup.of_map heap.elementId hIds
  apply ModelPart.reads_indexedVector (by decide)
  · refine reads_vector_new (by decide) hLength hAddresses hNew ?_ ?_
    · exact ⟨nofun, (Nat.zero_sub _).symm ▸ rfl, rfl, rfl, rfl⟩
    · intro i x hx current hLoaded made hMade
      have hMem := List.mem_of_getElem? hx
      obtain ⟨hPlace, hNext⟩ := hLoaded.next hNodup hOldNodup hOldBound hx hMade
      refine ⟨hPlace, ?_⟩
      intro s m hSaved hHolds hHeap
      have hNodes : ∀ n ∈ (heap.elements x).nodes,
          layout (.node n) ∈ s ∧ m.Holds (layout (.node n)) (place n) := by
        intro n hn
        obtain ⟨hOld, hHeld⟩ := hKnown x hMem n hn
        exact ⟨hSaved _ hOld, hHolds _ _ hHeld⟩
      apply (reads_element (hSize x hMem) hNodes).conseq fun _ _ h => h
      rintro _ s' m' ⟨rfl, hLater, hHeap'⟩
      refine ⟨rfl, hLater, ?_⟩
      rw [hHeap', hHeap]
      exact hNext
  · rintro s m ⟨-, hLoaded⟩ ref hRef
    exact congrArg Element.id (hLoaded.elements.mem hRef)
  · exact hIds

end Vectors

end CoSimIO
