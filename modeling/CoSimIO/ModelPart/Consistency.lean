import CoSimIO.ModelPart.Preservation

/-! # The state of a `ModelPart` after any sequence of calls -/

namespace CoSimIO.ModelPart

open Sequences

set_option autoImplicit false

variable {s s' : State} {l g : Nat × ModelPart}

/-- The creations of the loop that do not throw. -/
def createdOf (s : State) : List Creation → List Creation
  | [] => []
  | creation :: creations => match create s creation with
    | (s', .ok ()) => creation :: createdOf s' creations
    | (_, .error _) => []

/-- What a call creates one after the other, if its checks pass. -/
def creations (s : State) : Op → List Creation
  | .create creation => [creation]
  | .createNewNodes ids xs ys zs => (newNodes s ids xs ys zs).toOption.getD []
  | .createNewGhostNodes ids xs ys zs partitionIndices =>
    (newGhostNodes s ids xs ys zs partitionIndices).toOption.getD []
  | .createNewElements ids types connectivities =>
    (newElements s ids types connectivities).toOption.getD []
  | .clear => []

/-- What was created since the last `Clear`. -/
def logAfter (s : State) (log : List Creation) : Op → List Creation
  | .clear => []
  | op => log ++ createdOf s (creations s op)

def logOf (s : State) (log : List Creation) : List Op → List Creation
  | [] => log
  | op :: ops => logOf (apply s op).1 (logAfter s log op) ops

def Op.Fits : Op → Prop
  | .create creation => creation.Fits
  | _ => True

/-- The lists of nodes and elements hold exactly what was created, in this order. -/
structure Logged (s : State) (log : List Creation) : Prop where
  nodeIds : nodeIds s = log.filterMap Creation.nodeId
  elementIds : elementIds s = log.filterMap Creation.elementId

theorem Created.logged {creation : Creation} {log : List Creation} (h : Created s s' creation)
    (hLog : Logged s log) : Logged s' (log ++ [creation]) where
  nodeIds := by
    rw [h.nodeIds, hLog.nodeIds, List.filterMap_append]
    cases creation <;> rfl
  elementIds := by
    rw [h.elementIds, hLog.elementIds, List.filterMap_append]
    cases creation <;> rfl

theorem Invariant.createEach (h : Invariant s l g) {log : List Creation} (hLog : Logged s log)
    (todo : List Creation) :
    ∃ l' g', Invariant (createEach s todo).1 l' g' ∧
      Logged (createEach s todo).1 (log ++ createdOf s todo) ∧
      ((∀ creation ∈ todo, creation.Fits) → Complete s → Complete (createEach s todo).1) := by
  induction todo generalizing s l g log with
  | nil => exact ⟨l, g, h, by rwa [createdOf, List.append_nil], fun _ hComplete => hComplete⟩
  | cons creation todo ih =>
    rcases h.create creation with ⟨message, hThrows⟩ | ⟨s', l', g', hCreate, h', hCreated⟩
    · rw [ModelPart.createEach, createdOf, hThrows, List.append_nil]
      exact ⟨l, g, h, hLog, fun _ hComplete => hComplete⟩
    · obtain ⟨l'', g'', h'', hLog'', hComplete''⟩ := ih h' (hCreated.logged hLog)
      rw [ModelPart.createEach, createdOf, hCreate]
      rw [List.append_assoc, List.singleton_append] at hLog''
      refine ⟨l'', g'', h'', hLog'', ?_⟩
      rintro hFits hComplete
      apply hComplete'' fun other hOther => hFits other (List.mem_cons_of_mem creation hOther)
      exact hCreated.complete (hFits creation List.mem_cons_self) hComplete

theorem createAll_fst (todo : Except Text (List Creation)) :
    (createAll s todo).1 = (createEach s (todo.toOption.getD [])).1 := by
  cases todo <;> rfl

theorem createEach_singleton (creation : Creation) :
    (createEach s [creation]).1 = (create s creation).1 := by
  rw [createEach]
  rcases create s creation with ⟨s', message | _⟩ <;> rfl

theorem apply_fst {op : Op} (hOp : op ≠ .clear) :
    (apply s op).1 = (createEach s (creations s op)).1 := by
  cases op with
  | create creation => exact (createEach_singleton creation).symm
  | createNewNodes ids xs ys zs => exact createAll_fst _
  | createNewGhostNodes ids xs ys zs partitionIndices => exact createAll_fst _
  | createNewElements ids types connectivities => exact createAll_fst _
  | clear => exact absurd rfl hOp

theorem fits_elementData (ids : List Int64) (types : List ElementType)
    (connectivities : List Int64) :
    ∀ creation ∈ elementData ids types connectivities, creation.Fits := by
  induction ids generalizing types connectivities with
  | nil => nofun
  | cons id ids ih =>
    cases types with
    | nil => nofun
    | cons type types =>
      rintro creation hCreation
      rcases List.mem_cons.mp hCreation with rfl | hLater
      · rintro hCount
        have hType := numberOfNodes_lt_int type
        have hLength := List.length_take_le type.numberOfNodes connectivities
        omega
      · exact ih types _ creation hLater

theorem ok_of_mem {todo : Except Text (List Creation)} {creation : Creation}
    (h : creation ∈ todo.toOption.getD []) : ∃ list, todo = .ok list ∧ creation ∈ list := by
  cases todo with
  | error message => nomatch h
  | ok list => exact ⟨list, rfl, h⟩

theorem Op.Fits.creations {op : Op} (hOp : op.Fits) (s : State) :
    ∀ creation ∈ ModelPart.creations s op, creation.Fits := by
  cases op with
  | create creation =>
    rintro other hOther
    obtain rfl := List.mem_singleton.mp hOther
    exact hOp
  | createNewNodes ids xs ys zs =>
    rintro creation hCreation
    obtain ⟨list, hList, hMem⟩ := ok_of_mem hCreation
    simp only [newNodes, ite_eq_iff, reduceCtorEq, and_false, false_or, Except.ok.injEq] at hList
    obtain ⟨-, -, -, -, rfl⟩ := hList
    obtain ⟨data, -, rfl⟩ := List.mem_map.mp hMem
    trivial
  | createNewGhostNodes ids xs ys zs partitionIndices =>
    rintro creation hCreation
    obtain ⟨list, hList, hMem⟩ := ok_of_mem hCreation
    simp only [newGhostNodes, ite_eq_iff, reduceCtorEq, and_false, false_or,
      Except.ok.injEq] at hList
    obtain ⟨-, -, -, -, -, rfl⟩ := hList
    obtain ⟨data, -, rfl⟩ := List.mem_map.mp hMem
    trivial
  | createNewElements ids types connectivities =>
    rintro creation hCreation
    obtain ⟨list, hList, hMem⟩ := ok_of_mem hCreation
    simp only [newElements, ite_eq_iff, reduceCtorEq, and_false, false_or,
      Except.ok.injEq] at hList
    obtain ⟨-, -, -, rfl⟩ := hList
    exact fits_elementData ids types connectivities creation hMem
  | clear => nofun

theorem Invariant.apply (h : Invariant s l g) {log : List Creation} (hLog : Logged s log)
    (op : Op) : ∃ l' g', Invariant (apply s op).1 l' g' ∧
      Logged (ModelPart.apply s op).1 (logAfter s log op) ∧
      (op.Fits → Complete s → Complete (ModelPart.apply s op).1) := by
  rcases eq_or_ne op .clear with rfl | hOp
  · obtain ⟨l', g', h'⟩ := Invariant.clear s
    exact ⟨l', g', h', ⟨rfl, rfl⟩, nofun⟩
  · obtain ⟨l', g', h', hLog', hComplete⟩ := h.createEach hLog (creations s op)
    rw [apply_fst hOp]
    refine ⟨l', g', h', ?_, fun hFits => hComplete (hFits.creations s)⟩
    cases op with
    | clear => exact absurd rfl hOp
    | _ => exact hLog'

theorem Invariant.run (h : Invariant s l g) {log : List Creation} (hLog : Logged s log)
    (ops : List Op) : ∃ l' g', Invariant (run s ops) l' g' ∧
      Logged (ModelPart.run s ops) (logOf s log ops) ∧
      ((∀ op ∈ ops, op.Fits) → Complete s → Complete (ModelPart.run s ops)) := by
  induction ops generalizing s l g log with
  | nil => exact ⟨l, g, h, hLog, fun _ hComplete => hComplete⟩
  | cons op ops ih =>
    obtain ⟨l', g', h', hLog', hComplete⟩ := h.apply hLog op
    obtain ⟨l'', g'', h'', hLog'', hComplete'⟩ := ih h' hLog'
    refine ⟨l'', g'', h'', hLog'', ?_⟩
    rintro hFits hStart
    apply hComplete' fun other hOther => hFits other (List.mem_cons_of_mem op hOther)
    exact hComplete (hFits op List.mem_cons_self) hStart

theorem Internal.parts_eq {heap : Heap} {name : Text} {part : ModelPart}
    (h : Internal heap name part) : part.parts = [part] := by
  rw [ModelPart.parts_eq, h.noLocal, h.noGhost, h.noPartitions]
  rfl

theorem Partition.parts_eq {heap : Heap} {entry : Int32 × Nat × ModelPart}
    (h : Partition heap entry) :
    entry.2.2.parts = [entry.2.2, internal "local".toList, internal "ghost".toList] := by
  obtain ⟨owner, hLocal, hGhost⟩ := h.inner
  rw [ModelPart.parts_eq, hLocal, hGhost, h.noPartitions]
  rfl

theorem Invariant.forall_parts (h : Invariant s l g) {P : ModelPart → Prop} (hTop : P s.part)
    (hLocal : P l.2) (hGhost : P g.2)
    (hPartitions : ∀ entry ∈ s.part.partitionModelParts, P entry.2.2)
    (hInternal : ∀ name ∈ ["local".toList, "ghost".toList], P (internal name)) :
    ∀ part ∈ s.part.parts, P part := by
  rw [ModelPart.parts_eq, h.isLocal, h.isGhost, partsOf, partsOf, h.localPart.parts_eq,
    h.ghostPart.parts_eq, partsOfPartitions_eq]
  rintro part hPart
  rcases List.mem_cons.mp hPart with rfl | hPart
  · exact hTop
  rcases List.mem_append.mp hPart with hOwned | hPartition
  · rcases List.mem_append.mp hOwned with hMem | hMem
    · obtain rfl := List.mem_singleton.mp hMem
      exact hLocal
    · obtain rfl := List.mem_singleton.mp hMem
      exact hGhost
  · obtain ⟨entry, hEntry, hInner⟩ := List.mem_flatMap.mp hPartition
    rw [(h.partitions entry hEntry).parts_eq] at hInner
    simp only [List.mem_cons, List.not_mem_nil, or_false] at hInner
    rcases hInner with rfl | rfl | rfl
    · exact hPartitions entry hEntry
    · exact hInternal _ List.mem_cons_self
    · exact hInternal _ (List.mem_cons_of_mem _ List.mem_cons_self)

theorem Invariant.sound (h : Invariant s l g) : ∀ part ∈ s.part.parts,
    part.nodes.Sound s.heap.nodeId s.heap.nextNode ∧
      part.elements.Sound s.heap.elementId s.heap.nextElement := by
  refine h.forall_parts (P := fun part => part.nodes.Sound s.heap.nodeId s.heap.nextNode ∧
    part.elements.Sound s.heap.elementId s.heap.nextElement) ?_ ?_ ?_ ?_ ?_
  · exact ⟨h.nodes, h.elements⟩
  · exact ⟨h.localPart.nodes, h.localPart.elements⟩
  · exact ⟨h.ghostPart.nodes, h.ghostPart.elements⟩
  · intro entry hEntry
    have hPartition := h.partitions entry hEntry
    exact ⟨hPartition.nodes, hPartition.elements ▸ IndexedVector.sound_empty⟩
  · intro name _
    exact ⟨IndexedVector.sound_empty, IndexedVector.sound_empty⟩

theorem Invariant.objects_subset (h : Invariant s l g) : ∀ part ∈ s.part.parts,
    part.nodes.data ⊆ s.part.nodes.data ∧ part.elements.data ⊆ s.part.elements.data := by
  refine h.forall_parts (P := fun part => part.nodes.data ⊆ s.part.nodes.data ∧
    part.elements.data ⊆ s.part.elements.data) ?_ ?_ ?_ ?_ ?_
  · exact ⟨List.Subset.refl _, List.Subset.refl _⟩
  · rw [h.localElements]
    exact ⟨h.localNodes_subset, List.Subset.refl _⟩
  · rw [h.ghostElements]
    exact ⟨h.ghostNodes_subset, nofun⟩
  · intro entry hEntry
    rw [(h.partitions entry hEntry).elements]
    exact ⟨h.partitionNodes_subset hEntry, nofun⟩
  · intro name _
    exact ⟨nofun, nofun⟩

/-- The parts fit together: `log` is what was created since the last `Clear`. -/
structure Consistent (s : State) (log : List Creation) : Prop where
  indexed : ∀ part ∈ s.part.parts,
    Indexes s.heap.nodeId part.nodes.data part.nodes.accessMap ∧
      Indexes s.heap.elementId part.elements.data part.elements.accessMap
  nodeIds : (nodeIds s).Nodup ∧ ∀ id ∈ nodeIds s, 1 ≤ id
  elementIds : (elementIds s).Nodup ∧ ∀ id ∈ elementIds s, 1 ≤ id
  getNode : ∀ id, (id ∈ log.filterMap Creation.nodeId →
      ∃ ref ∈ s.part.nodes.data, pGetNode s.part id = .ok ref ∧ s.heap.nodeId ref = id) ∧
    (id ∉ log.filterMap Creation.nodeId → pGetNode s.part id = .error (nodeMissingError id))
  getElement : ∀ id, (id ∈ log.filterMap Creation.elementId →
      ∃ ref ∈ s.part.elements.data,
        pGetElement s.part id = .ok ref ∧ s.heap.elementId ref = id) ∧
    (id ∉ log.filterMap Creation.elementId →
      pGetElement s.part id = .error (elementMissingError id))
  merged : ∃ l g, s.part.localModelPart = some l ∧ s.part.ghostModelPart = some g ∧
    Interleaves l.2.nodes.data g.2.nodes.data s.part.nodes.data ∧
    l.2.nodes.data.Disjoint g.2.nodes.data ∧
    (partitionNodes s.part).Perm g.2.nodes.data ∧ (partitionNodes s.part).Nodup ∧
    l.2.elements.data = s.part.elements.data
  elementNodes : ∀ ref ∈ s.part.elements.data,
    (s.heap.elements ref).nodes.length = (s.heap.elements ref).type.numberOfNodes ∧
      (s.heap.elements ref).nodes ⊆ s.part.nodes.data
  throwing : ∀ creation message, (create s creation).2 = .error message →
    (create s creation).1 = s

theorem pGetNode_spec (h : Invariant s l g) (id : Int64) :
    (id ∈ nodeIds s → ∃ ref ∈ s.part.nodes.data,
      pGetNode s.part id = .ok ref ∧ s.heap.nodeId ref = id) ∧
    (id ∉ nodeIds s → pGetNode s.part id = .error (nodeMissingError id)) := by
  constructor
  · rintro hId
    obtain ⟨ref, hRef, hEq⟩ := List.mem_map.mp hId
    refine ⟨ref, hRef, ?_, hEq⟩
    rw [pGetNode, (h.nodes.find_iff id ref).mpr ⟨hRef, hEq⟩]
  · rintro hId
    rw [pGetNode, (h.nodes.find_eq_none_iff id).mpr hId]

theorem pGetElement_spec (h : Invariant s l g) (id : Int64) :
    (id ∈ elementIds s → ∃ ref ∈ s.part.elements.data,
      pGetElement s.part id = .ok ref ∧ s.heap.elementId ref = id) ∧
    (id ∉ elementIds s → pGetElement s.part id = .error (elementMissingError id)) := by
  constructor
  · rintro hId
    obtain ⟨ref, hRef, hEq⟩ := List.mem_map.mp hId
    refine ⟨ref, hRef, ?_, hEq⟩
    rw [pGetElement, (h.elements.find_iff id ref).mpr ⟨hRef, hEq⟩]
  · rintro hId
    rw [pGetElement, (h.elements.find_eq_none_iff id).mpr hId]

theorem Invariant.consistent (h : Invariant s l g) {log : List Creation} (hLog : Logged s log)
    (hComplete : Complete s) : Consistent s log where
  indexed part hPart := ⟨(h.sound part hPart).1.indexes, (h.sound part hPart).2.indexes⟩
  nodeIds := by
    refine ⟨h.nodes.indexes.nodup, ?_⟩
    rintro id hId
    obtain ⟨ref, hRef, rfl⟩ := List.mem_map.mp hId
    exact h.nodes.positive ref hRef
  elementIds := by
    refine ⟨h.elements.indexes.nodup, ?_⟩
    rintro id hId
    obtain ⟨ref, hRef, rfl⟩ := List.mem_map.mp hId
    exact h.elements.positive ref hRef
  getNode id := hLog.nodeIds ▸ pGetNode_spec h id
  getElement id := hLog.elementIds ▸ pGetElement_spec h id
  merged := by
    have hNodup : g.2.nodes.data.Nodup := h.ghostPart.nodes.nodup
    exact ⟨l, g, h.isLocal, h.isGhost, h.interleaves, h.interleaves.disjoint h.nodes.nodup,
      h.ghostNodes, h.ghostNodes.nodup_iff.mpr hNodup, h.localElements⟩
  elementNodes ref hRef := ⟨hComplete ref hRef, (h.elementNodes ref hRef).1⟩
  throwing creation message hThrows := by
    rcases h.create creation with ⟨other, hCreate⟩ | ⟨s', _, _, hCreate, -⟩
    · rw [hCreate]
    · rw [hCreate] at hThrows
      nomatch hThrows

theorem invariant_new {heap : Heap} {name : Text} {start : Heap × ModelPart}
    (hNew : new heap name = .ok start) : ∃ l g, Invariant ⟨start.1, start.2⟩ l g ∧
      Logged ⟨start.1, start.2⟩ [] ∧ Complete ⟨start.1, start.2⟩ := by
  rcases new_cases heap name with ⟨message, hThrows⟩ | ⟨-, -, hStart⟩
  · rw [hThrows] at hNew
    nomatch hNew
  · rw [hStart] at hNew
    obtain rfl := Except.ok.inj hNew
    exact ⟨_, _, invariant_initialize heap (internal name) rfl rfl rfl, ⟨rfl, rfl⟩, nofun⟩

/-- After any sequence of calls in which the cast of no number of connectivities to `int`
hides that it is wrong. -/
theorem consistent_run (heap : Heap) (name : Text) (start : Heap × ModelPart) (ops : List Op)
    (hNew : new heap name = .ok start) (hFits : ∀ op ∈ ops, op.Fits) :
    Consistent (run ⟨start.1, start.2⟩ ops) (logOf ⟨start.1, start.2⟩ [] ops) := by
  obtain ⟨l, g, h, hLog, hComplete⟩ := invariant_new hNew
  obtain ⟨l', g', h', hLog', hComplete'⟩ := h.run hLog ops
  exact h'.consistent hLog' (hComplete' hFits hComplete)

def emptyHeap : Heap where
  nodes _ := ⟨0, 0, 0, 0⟩
  elements _ := ⟨0, .point2D, []⟩
  nextNode := 0
  nextElement := 0
  nextModelPart := 0

/-- A new `ModelPart` with the name `mp` -/
def started : Heap × ModelPart :=
  initializeInternalModelParts emptyHeap (internal "mp".toList)

theorem consistent_run_line : Consistent
    (run ⟨started.1, started.2⟩ [.create (.node ⟨1, 0, 0, 0⟩),
      .create (.ghostNode ⟨2, 0, 0, 0⟩ 3 ⟨id, fun _ => .refl _⟩),
      .create (.element 1 .line2D2 [1, 2] (by decide))])
    (logOf ⟨started.1, started.2⟩ [] [.create (.node ⟨1, 0, 0, 0⟩),
      .create (.ghostNode ⟨2, 0, 0, 0⟩ 3 ⟨id, fun _ => .refl _⟩),
      .create (.element 1 .line2D2 [1, 2] (by decide))]) := by
  apply consistent_run emptyHeap "mp".toList started
  · rfl
  · rintro op hOp
    simp only [List.mem_cons, List.not_mem_nil, or_false] at hOp
    rcases hOp with rfl | rfl | rfl
    · trivial
    · trivial
    · rintro -
      rfl

theorem nodesOf_replicate {part : ModelPart} {id : Int64} {ref : Nat}
    (h : pGetNode part id = .ok ref) (count : Nat) :
    nodesOf part (List.replicate count id) = .ok (List.replicate count ref) := by
  induction count with
  | zero => rfl
  | succ count ih =>
    rw [List.replicate_succ, nodesOf, h, ih]
    rfl

/-- The part `mp` with one node. -/
def oneNode : State :=
  (apply ⟨started.1, started.2⟩ (.create (.node ⟨1, 0, 0, 0⟩))).1

theorem run_cons (s : State) (op : Op) (ops : List Op) :
    run s (op :: ops) = run (apply s op).1 ops := rfl

theorem create_point {count : Nat} (hCount : 1 ≤ count)
    (hCast : Int32.ofNat 1 = Int32.ofNat count) (hSize : (List.replicate count 1).length < 2 ^ 64) :
    create oneNode (.element 1 .point2D (List.replicate count 1) hSize) =
      (withElement oneNode (0, pushNode 0 1 (internal "local".toList))
        ⟨1, .point2D, List.replicate count 0⟩, .ok ()) := by
  have hNodes : nodesOf oneNode.part (List.replicate count 1) = .ok (List.replicate count 0) :=
    nodesOf_replicate rfl count
  have hLength : ¬ (List.replicate count 0).length < 1 := by
    rw [List.length_replicate]
    omega
  have hCast' : ¬ Int32.ofNat ElementType.point2D.numberOfNodes ≠
      Int32.ofNat (List.replicate count 0).length := by
    rw [List.length_replicate]
    exact not_not.mpr hCast
  have hElement : Element.new 1 .point2D (List.replicate count 0) =
      .ok ⟨1, .point2D, List.replicate count 0⟩ := by
    rw [Element.new, if_neg (by decide), if_neg hLength, if_neg hCast']
  have hMissing : ¬ oneNode.part.elements.contains 1 = true := by decide
  rw [create, createNewElement, if_neg hMissing, hNodes]
  dsimp only
  rw [hElement]
  rfl

theorem not_consistent_point {count : Nat} (hCount : 1 < count)
    (hCast : Int32.ofNat 1 = Int32.ofNat count) (hSize : (List.replicate count 1).length < 2 ^ 64)
    (log : List Creation) : ¬ Consistent
      (run oneNode [.create (.element 1 .point2D (List.replicate count 1) hSize)]) log := by
  rintro ⟨-, -, -, -, -, -, hNodes, -⟩
  rw [run, run, apply, create_point (Nat.le_of_lt hCount) hCast hSize] at hNodes
  have hLength := (hNodes 0 (List.mem_singleton.mpr rfl)).1
  change (List.replicate count 0).length = 1 at hLength
  rw [List.length_replicate] at hLength
  omega

/-- With `2 ^ 32 + 1` connectivities a point passes the check. -/
theorem overlong_point_inconsistent : ¬ Consistent
    (run ⟨started.1, started.2⟩ [.create (.node ⟨1, 0, 0, 0⟩),
      .create (.element 1 .point2D (List.replicate (2 ^ 32 + 1) 1)
        (by rw [List.length_replicate]; decide))])
    (logOf ⟨started.1, started.2⟩ [] [.create (.node ⟨1, 0, 0, 0⟩),
      .create (.element 1 .point2D (List.replicate (2 ^ 32 + 1) 1)
        (by rw [List.length_replicate]; decide))]) := by
  rw [run_cons]
  have hCast : Int32.ofNat 1 = Int32.ofNat (2 ^ 32 + 1) := by decide
  have hSize : (List.replicate (2 ^ 32 + 1) (1 : Int64)).length < 2 ^ 64 := by
    rw [List.length_replicate]
    decide
  exact not_consistent_point (by decide) hCast hSize _

end CoSimIO.ModelPart
