import CoSimIO.ModelPart.Loadable

/-! # What `load` makes of the model part it is called for -/

namespace CoSimIO.ModelPart

open Restore Restore.Writer Sequences Serializer

set_option autoImplicit false

/-- The objects that pointers of the part point to -/
def objects (s : State) : List Object :=
  s.part.nodes.data.map .node ++ s.part.elements.data.map .element ++
    s.part.owners.map .modelPart

/-- Objects that are alive at the same time have different addresses. -/
def Distinct (layout : Object → BitVec 64) (s : State) : Prop :=
  ∀ a ∈ objects s, ∀ b ∈ objects s, layout a = layout b → a = b

def places (s t : State) : Renaming where
  node := placed s.part.nodes.data t.part.nodes.data t.heap.nextNode
  element := placed s.part.elements.data t.part.elements.data t.heap.nextElement

section Addresses

variable {s : State} {l g : Nat × ModelPart} {layout : Object → BitVec 64}

theorem node_mem {ref : Nat} (h : ref ∈ s.part.nodes.data) : .node ref ∈ objects s :=
  List.mem_append_left _ (List.mem_append_left _ (List.mem_map_of_mem h))

theorem element_mem {ref : Nat} (h : ref ∈ s.part.elements.data) : .element ref ∈ objects s :=
  List.mem_append_left _ (List.mem_append_right _ (List.mem_map_of_mem h))

theorem modelPart_mem {owner : Nat} (h : owner ∈ s.part.owners) : .modelPart owner ∈ objects s :=
  List.mem_append_right _ (List.mem_map_of_mem h)

theorem Distinct.nodes (h : Distinct layout s) (hNodup : s.part.nodes.data.Nodup) :
    (s.part.nodes.data.map fun ref => layout (.node ref)).Nodup := by
  apply hNodup.map_on
  intro a ha b hb hEq
  exact Object.node.inj (h _ (node_mem ha) _ (node_mem hb) hEq)

theorem Distinct.elements (h : Distinct layout s) (hNodup : s.part.elements.data.Nodup) :
    (s.part.elements.data.map fun ref => layout (.element ref)).Nodup := by
  apply hNodup.map_on
  intro a ha b hb hEq
  exact Object.element.inj (h _ (element_mem ha) _ (element_mem hb) hEq)

theorem Distinct.modelParts (h : Distinct layout s) (hNodup : s.part.owners.Nodup) :
    (s.part.owners.map fun owner => layout (.modelPart owner)).Nodup := by
  apply hNodup.map_on
  intro a ha b hb hEq
  exact Object.modelPart.inj (h _ (modelPart_mem ha) _ (modelPart_mem hb) hEq)

theorem Distinct.element_ne_node (h : Distinct layout s) {ref : Nat}
    (hRef : ref ∈ s.part.elements.data) :
    layout (.element ref) ∉ s.part.nodes.data.map fun ref => layout (.node ref) := by
  intro hMem
  obtain ⟨node, hNode, hEq⟩ := List.mem_map.mp hMem
  nomatch h _ (node_mem hNode) _ (element_mem hRef) hEq

theorem Distinct.modelPart_ne_node (h : Distinct layout s) {owner : Nat}
    (hOwner : owner ∈ s.part.owners) :
    layout (.modelPart owner) ∉ s.part.nodes.data.map fun ref => layout (.node ref) := by
  intro hMem
  obtain ⟨node, hNode, hEq⟩ := List.mem_map.mp hMem
  nomatch h _ (node_mem hNode) _ (modelPart_mem hOwner) hEq

theorem Distinct.modelPart_ne_element (h : Distinct layout s) {owner : Nat}
    (hOwner : owner ∈ s.part.owners) :
    layout (.modelPart owner) ∉ s.part.elements.data.map fun ref => layout (.element ref) := by
  intro hMem
  obtain ⟨element, hElement, hEq⟩ := List.mem_map.mp hMem
  nomatch h _ (element_mem hElement) _ (modelPart_mem hOwner) hEq

end Addresses

section Load

variable {cfg : Config} {rehash : Rehash} {layout : Object → BitVec 64} {s t : State}
  {l g : Nat × ModelPart} {depth : Nat} {result : ModelPart} {heap heap' : Heap}
  {nodes elements : IndexedVector} {saved : List (BitVec 64)} {m : Memory Heap}

/-- The objects have their values at their new places. -/
structure Values (s t : State) (heap : Heap) : Prop where
  nodes : ∀ ref ∈ s.part.nodes.data, heap.nodes ((places s t).node ref) = s.heap.nodes ref
  elements : ∀ ref ∈ s.part.elements.data, heap.elements ((places s t).element ref) =
    { s.heap.elements ref with nodes := (s.heap.elements ref).nodes.map (places s t).node }

/-- Objects have been created for all places. -/
structure Allocated (s t : State) (heap : Heap) : Prop where
  nodes : ∀ ref ∈ s.part.nodes.data, (places s t).node ref < heap.nextNode
  elements : ∀ ref ∈ s.part.elements.data, (places s t).element ref < heap.nextElement
  nextNode : t.heap.nextNode ≤ heap.nextNode
  nextElement : t.heap.nextElement ≤ heap.nextElement

/-- The nodes and elements of the part are loaded. -/
structure ObjectsLoaded (layout : Object → BitVec 64) (s t : State)
    (nodes elements : IndexedVector) (saved : List (BitVec 64)) (m : Memory Heap) : Prop where
  nodes : Renamed (places s t).node m.heap.nodeId s.part.nodes nodes
  elements : Renamed (places s t).element m.heap.elementId s.part.elements elements
  values : Values s t m.heap
  allocated : Allocated s t m.heap
  known : Known layout s.part (places s t) m.heap s.part.owners saved m

theorem reads_top_nodes (h : Invariant s l g) (h' : Loadable t)
    (hFaithful : ∀ ref ∈ s.part.nodes.data, (s.heap.nodes ref).Faithful cfg)
    (hLayout : Distinct layout s) :
    Reads (Ready cfg) (s.part.nodes.save cfg "mNodes".toList (saveNodePointer cfg s.heap layout))
      (t.part.nodes.load cfg "mNodes".toList (nodePointee cfg) Heap.nodeId)
      (fun saved m => saved = [] ∧ m = startMemory t.heap)
      fun w saved m => Renamed (places s t).node m.heap.nodeId s.part.nodes w ∧
        LoadedVector (places s t).node (fun ref => layout (.node ref)) s.part.nodes.data []
          (startMemory t.heap) saved m ∧
        NodesLoaded s.part.nodes.data t.part.nodes.data s.heap.nodes t.heap
          s.part.nodes.data.length m.heap := by
  have hCount := h.nodes.length_lt
  exact reads_nodes hFaithful (by omega) h.nodes.indexes.nodup (hLayout.nodes h.nodes.nodup)
    h'.nodes.nodup h'.nodes.bounded fun _ _ => ⟨List.not_mem_nil, rfl⟩

theorem allocated_of_loaded (h : Invariant s l g) (h' : Loadable t) {loaded : Heap}
    (hNodes : NodesLoaded s.part.nodes.data t.part.nodes.data s.heap.nodes t.heap
      s.part.nodes.data.length loaded) {source : Nat → Element}
    (hElements : ElementsLoaded s.part.elements.data t.part.elements.data source loaded
      s.part.elements.data.length heap) :
    Allocated s t heap where
  nodes ref hRef := by
    rw [hElements.nextNode, hNodes.nextNode]
    exact placed_lt h.nodes.nodup h'.nodes.bounded hRef
  elements ref hRef := by
    rw [hElements.nextElement, hNodes.nextElement]
    exact placed_lt h.elements.nodup h'.elements.bounded hRef
  nextNode := by
    rw [hElements.nextNode, hNodes.nextNode]
    exact Nat.le_add_right _ _
  nextElement := by
    rw [hElements.nextElement, hNodes.nextElement]
    exact Nat.le_add_right _ _

theorem reads_top_elements (h : Invariant s l g) (h' : Loadable t)
    (hLayout : Distinct layout s) (nodes : IndexedVector) :
    Reads (Ready cfg)
      (s.part.elements.save cfg "mElements".toList (saveElementPointer cfg s.heap layout))
      (t.part.elements.load cfg "mElements".toList (elementPointee cfg) Heap.elementId)
      (fun saved m => Renamed (places s t).node m.heap.nodeId s.part.nodes nodes ∧
        LoadedVector (places s t).node (fun ref => layout (.node ref)) s.part.nodes.data []
          (startMemory t.heap) saved m ∧
        NodesLoaded s.part.nodes.data t.part.nodes.data s.heap.nodes t.heap
          s.part.nodes.data.length m.heap)
      fun elements => ObjectsLoaded layout s t nodes elements := by
  apply Reads.pointwise
  rintro saved₀ m₀ ⟨hNodes, hVector, hLoaded⟩
  have hCount := h.elements.length_lt
  have hPlace : (places s t).element =
      placed s.part.elements.data t.part.elements.data m₀.heap.nextElement := by
    rw [hLoaded.nextElement]
    rfl
  have hKnown : ∀ ref ∈ s.part.elements.data, ∀ n ∈ (s.heap.elements ref).nodes,
      layout (.node n) ∈ saved₀ ∧ m₀.Holds (layout (.node n)) ((places s t).node n) := by
    intro ref hRef n hn
    have hMem := (h.elementNodes ref hRef).1 hn
    exact ⟨(hVector.saved _).mpr (.inr (List.mem_map_of_mem hMem)), hVector.holds n hMem⟩
  have hNew : ∀ ref ∈ s.part.elements.data, layout (.element ref) ∉ saved₀ ∧
      m₀.loadedPointers (layout (.element ref)) = none := by
    intro ref hRef
    have hNe := hLayout.element_ne_node hRef
    constructor
    · rw [hVector.saved]
      exact not_or.mpr ⟨List.not_mem_nil, hNe⟩
    · rw [hVector.others _ hNe]
      rfl
  refine (reads_elements (fun ref hRef => (h.elementNodes ref hRef).2) (by omega)
    h.elements.indexes.nodup (hLayout.elements h.elements.nodup) h'.elements.nodup
    (fun ref hRef => hLoaded.nextElement ▸ h'.elements.bounded ref hRef) hNew hKnown).conseq
    (fun _ _ h => h) ?_
  rw [← hPlace]
  rintro elements saved m ⟨hElements, hVector', hLoaded'⟩
  have hIds : m.heap.nodeId = m₀.heap.nodeId := by
    funext ref
    rw [Heap.nodeId, hLoaded'.nodes]
    rfl
  refine ⟨hIds ▸ hNodes, hElements, ⟨?_, ?_⟩, allocated_of_loaded h h' hLoaded hLoaded',
    ⟨?_, ?_, ?_, hLayout.modelParts h.owners, .refl _⟩⟩
  · intro ref hRef
    rw [hLoaded'.nodes]
    exact hLoaded.nodes.mem hRef
  · intro ref hRef
    rw [hPlace]
    exact hLoaded'.elements.mem hRef
  · intro ref hRef
    exact ⟨(hVector'.saved _).mpr (.inl ((hVector.saved _).mpr (.inr (List.mem_map_of_mem hRef)))),
      hVector'.keeps _ _ (hVector.holds ref hRef)⟩
  · intro ref hRef
    exact ⟨(hVector'.saved _).mpr (.inr (List.mem_map_of_mem hRef)), hVector'.holds ref hRef⟩
  · intro owner hOwner
    have hNode := hLayout.modelPart_ne_node hOwner
    have hElement := hLayout.modelPart_ne_element hOwner
    constructor
    · rw [hVector'.saved, hVector.saved]
      exact not_or.mpr ⟨not_or.mpr ⟨List.not_mem_nil, hNode⟩, hElement⟩
    · rw [hVector'.others _ hElement, hVector.others _ hNode]
      rfl

/-- There are no more keys than values of their type. -/
theorem length_lt_of_keys {ks : List Int32} (hNodup : ks.Nodup) : ks.length < 2 ^ 64 := by
  have hMapped : (ks.map fun key => (key.toInt + 2 ^ 31).toNat).Nodup := by
    apply hNodup.map_on
    intro a _ b _ hEq
    apply Int32.toInt_inj.mp
    have hA := a.le_toInt
    have hB := b.le_toInt
    omega
  have hSubset : (ks.map fun key => (key.toInt + 2 ^ 31).toNat) ⊆ List.range (2 ^ 32) := by
    intro n hn
    obtain ⟨key, -, rfl⟩ := List.mem_map.mp hn
    have hLower := key.le_toInt
    have hUpper := key.toInt_lt
    rw [List.mem_range]
    omega
  have hLength := hMapped.length_le_of_subset hSubset
  rw [List.length_map, List.length_range] at hLength
  omega

/-- The part `t` after the part `s` was loaded into it. -/
structure Overwritten (s t : State) (result : ModelPart) (heap : Heap) : Prop where
  name : result.name = s.part.name
  nodes : Renamed (places s t).node heap.nodeId s.part.nodes result.nodes
  elements : Renamed (places s t).element heap.elementId s.part.elements result.elements
  values : Values s t heap
  allocated : Allocated s t heap
  localPart : SameOwned (places s t) heap.nodeId heap.elementId s.part.localModelPart
    result.localModelPart
  ghostPart : SameOwned (places s t) heap.nodeId heap.elementId s.part.ghostModelPart
    result.ghostModelPart
  entries : EntriesLoaded t.part.partitionModelParts s.part.partitionModelParts (places s t) heap
    s.part.partitionModelParts.length result.partitionModelParts

theorem Values.keepsIds (h : Values s t heap) : KeepsIds s.part (places s t) s.heap heap where
  nodes ref hRef := congrArg Node.id (h.nodes ref hRef)
  elements ref hRef := by
    have hId := congrArg Element.id (h.elements ref hRef)
    exact hId

theorem Overwritten.congr (h : Overwritten s t result heap) (hObjects : heap.SameObjects heap') :
    Overwritten s t result heap' := by
  obtain ⟨nodes, elements, nextNode, nextElement, nextModelPart⟩ := heap
  obtain ⟨nodes', elements', nextNode', nextElement', nextModelPart'⟩ := heap'
  obtain ⟨rfl, rfl, rfl, rfl⟩ := hObjects
  exact ⟨h.name, h.nodes, h.elements, ⟨h.values.nodes, h.values.elements⟩,
    ⟨h.allocated.nodes, h.allocated.elements, h.allocated.nextNode, h.allocated.nextElement⟩,
    h.localPart, h.ghostPart, h.entries⟩

theorem reads_top_inner (h : Invariant s l g) (h' : Loadable t)
    (nodes elements : IndexedVector) :
    Reads (Ready cfg) (saveInner cfg s.heap layout s.part)
      (loadInner cfg rehash (depth + 2) t.part s.part.name nodes elements)
      (ObjectsLoaded layout s t nodes elements)
      fun result _ m => Overwritten s t result m.heap := by
  apply Reads.pointwise
  intro saved₀ m₀ hTop
  obtain ⟨l', hLocal', hLeafLocal⟩ := h'.localPart
  obtain ⟨g', hGhost', hLeafGhost⟩ := h'.ghostPart
  have hIds := hTop.values.keepsIds
  have hOwners : s.part.owners =
      l.1 :: g.1 :: (ownersOfPartitions s.part.partitionModelParts ++ []) := by
    rw [owners_eq, h.isLocal, h.isGhost, ownersOf, ownersOf, h.localPart.leaf.owners_eq,
      h.ghostPart.leaf.owners_eq, List.append_nil]
    rfl
  have hLocalPart : Reads (Ready cfg)
      (saveOwned cfg s.heap layout "mpLocalModelPart".toList s.part.localModelPart)
      (loadOwned cfg (load cfg rehash (depth + 2)) "mpLocalModelPart".toList
        t.part.localModelPart)
      (Known layout s.part (places s t) m₀.heap
        (l.1 :: g.1 :: (ownersOfPartitions s.part.partitionModelParts ++ [])))
      fun result saved m => SameOwned (places s t) m₀.heap.nodeId m₀.heap.elementId
        (some l) result ∧ Known layout s.part (places s t) m₀.heap
          (g.1 :: (ownersOfPartitions s.part.partitionModelParts ++ [])) saved m := by
    rw [h.isLocal, hLocal']
    refine reads_owned_leaf hIds h.localPart faithful_local h.localNodes_subset ?_ (by decide) ?_
    · rw [h.localElements]
      exact List.Subset.refl _
    · intro o ho
      obtain rfl := Option.some.inj ho
      exact hLeafLocal
  have hGhostPart : Reads (Ready cfg)
      (saveOwned cfg s.heap layout "mpGhostModelPart".toList s.part.ghostModelPart)
      (loadOwned cfg (load cfg rehash (depth + 2)) "mpGhostModelPart".toList
        t.part.ghostModelPart)
      (Known layout s.part (places s t) m₀.heap
        (g.1 :: (ownersOfPartitions s.part.partitionModelParts ++ [])))
      fun result saved m => SameOwned (places s t) m₀.heap.nodeId m₀.heap.elementId
        (some g) result ∧ Known layout s.part (places s t) m₀.heap
          (ownersOfPartitions s.part.partitionModelParts ++ []) saved m := by
    rw [h.isGhost, hGhost']
    refine reads_owned_leaf hIds h.ghostPart faithful_ghost h.ghostNodes_subset ?_ (by decide) ?_
    · rw [h.ghostElements]
      nofun
    · intro o ho
      obtain rfl := Option.some.inj ho
      exact hLeafGhost
  have hEntries : Reads (Ready cfg)
      (saveEntries cfg s.heap layout s.part.partitionModelParts)
      ((List.range s.part.partitionModelParts.length).foldlM
        (fun entries _ => loadEntry cfg rehash (load cfg rehash (depth + 2)) entries)
        t.part.partitionModelParts)
      (Known layout s.part (places s t) m₀.heap
        (ownersOfPartitions s.part.partitionModelParts ++ []))
      fun entries saved m => EntriesLoaded t.part.partitionModelParts s.part.partitionModelParts
        (places s t) m₀.heap s.part.partitionModelParts.length entries ∧
        Known layout s.part (places s t) m₀.heap [] saved m :=
    reads_entries hIds h.keys h.partitions fun entry hEntry => h.partitionNodes_subset hEntry
  have hSize : s.part.partitionModelParts.length < 2 ^ 64 := by
    have hKeys := length_lt_of_keys h.keys
    rwa [List.length_map] at hKeys
  refine (reads_inner s.part.name nodes elements hLocalPart hGhostPart hSize hEntries).conseq ?_ ?_
  · rintro saved m ⟨rfl, rfl⟩
    exact hOwners ▸ hTop.known
  · rintro result saved m ⟨⟨hName, rfl, rfl, hLocal, hGhost, hLoaded⟩, hKnown⟩
    have hResult : Overwritten s t result m₀.heap := ⟨hName, hTop.nodes, hTop.elements, hTop.values,
      hTop.allocated, by rw [h.isLocal]; exact hLocal, by rw [h.isGhost]; exact hGhost, hLoaded⟩
    exact hResult.congr hKnown.objects

theorem reads_top (h : Invariant s l g) (h' : Loadable t)
    (hName : Faithful cfg .string s.part.name)
    (hFaithful : ∀ ref ∈ s.part.nodes.data, (s.heap.nodes ref).Faithful cfg)
    (hLayout : Distinct layout s) :
    Reads (Ready cfg) (s.part.save cfg s.heap layout) (load cfg rehash (depth + 3) t.part)
      (fun saved m => saved = [] ∧ m = startMemory t.heap)
      fun result _ m => Overwritten s t result m.heap :=
  reads_part hName (reads_top_nodes h h' hFaithful hLayout) (reads_top_elements h h' hLayout)
    (reads_top_inner h h')

theorem loadObject_saveObject (h : Invariant s l g) (h' : Loadable t)
    (hName : Faithful cfg .string s.part.name)
    (hFaithful : ∀ ref ∈ s.part.nodes.data, (s.heap.nodes ref).Faithful cfg)
    (hLayout : Distinct layout s) (rehash : Rehash) (hDepth : 3 ≤ depth) {data : Text}
    (hWrite : writeAll cfg (saveObject cfg layout s) = .ok data) :
    ∃ r, loadObject cfg rehash depth t data = .ok r ∧ Overwritten s t r.part r.heap := by
  obtain ⟨depth, rfl⟩ := Nat.exists_eq_add_of_le hDepth
  rw [Nat.add_comm]
  have hReads : Reads (Ready cfg)
      ((emit (tracePoint cfg "object".toList)).andThen (s.part.save cfg s.heap layout))
      (do
        loadPoint cfg "object".toList
        load cfg rehash (depth + 3) t.part : Loader Heap ModelPart)
      (fun saved m => saved = [] ∧ m = startMemory t.heap)
      fun result _ m => Overwritten s t result m.heap := by
    apply (reads_point (by decide)).bind
    intro _
    exact reads_top h h' hName hFaithful hLayout
  obtain ⟨result, input, m, hRun, -, hOverwritten⟩ := hReads [] (streamSerializer data)
    (startMemory t.heap) [] (by rw [List.append_nil]; exact ready_streamSerializer hWrite)
    ⟨rfl, rfl⟩
  refine ⟨⟨m.heap, result⟩, ?_, hOverwritten⟩
  rw [loadObject, hRun]
  rfl

end Load

end CoSimIO.ModelPart
