import CoSimIO.ModelPart.Meshes
import CoSimIO.Vtk.Sections

/-! # What `ReadVtk` makes of what `WriteVtk` wrote -/

namespace CoSimIO.Vtk

open Serializer ModelPart

set_option autoImplicit false

section Positions

/-- The position of a node in the file -/
def position (nodeIds : List Int64) (id : Int64) : Int64 := Int64.ofNat (nodeIds.idxOf id)

theorem idMap_of_notMem {nodes : List Node} {id : Int64} (h : id ∉ nodes.map Node.id)
    (vtkId : Int64) (ids : Int64 → Option Int64) : idMap nodes vtkId ids id = ids id := by
  induction nodes generalizing vtkId ids with
  | nil => rfl
  | cons node nodes ih =>
    rw [List.map_cons, List.mem_cons, not_or] at h
    rw [idMap, ih h.2, if_neg h.1]

theorem idMap_of_mem {nodes : List Node} {id : Int64} (hNodup : (nodes.map Node.id).Nodup)
    (h : id ∈ nodes.map Node.id) (k : Nat) (ids : Int64 → Option Int64) :
    idMap nodes (Int64.ofNat k) ids id =
      some (Int64.ofNat (k + (nodes.map Node.id).idxOf id)) := by
  induction nodes generalizing k ids with
  | nil => nomatch h
  | cons node nodes ih =>
    rw [List.map_cons, List.nodup_cons] at hNodup
    rw [List.map_cons] at h ⊢
    have hNext : Int64.ofNat k + 1 = Int64.ofNat (k + 1) := (Int64.ofNat_add k 1).symm
    rw [idMap, hNext]
    rcases eq_or_ne id node.id with rfl | hNe
    · rw [idMap_of_notMem hNodup.1, if_pos rfl, List.idxOf_cons_self]
      rfl
    · have hRest := (List.mem_cons.mp h).resolve_left hNe
      rw [ih hNodup.2 hRest, List.idxOf_cons_ne _ hNe.symm]
      exact congrArg (fun n => some (Int64.ofNat n)) (by omega)

theorem vtkIds_positions {nodes : List Node} (hNodup : (nodes.map Node.id).Nodup)
    {used : List Node} (hUsed : used.map Node.id ⊆ nodes.map Node.id) (elementId : Int64) :
    vtkIds (idMap nodes 0 fun _ => none) elementId used =
      .ok ((used.map Node.id).map (position (nodes.map Node.id))) := by
  induction used with
  | nil => rfl
  | cons node used ih =>
    obtain ⟨hFirst, hRest⟩ := List.cons_subset.mp hUsed
    have hId := idMap_of_mem hNodup hFirst 0 fun _ => none
    rw [Nat.zero_add] at hId
    rw [vtkIds, show (0 : Int64) = Int64.ofNat 0 from rfl, hId]
    dsimp only
    rw [show (Int64.ofNat 0) = 0 from rfl, ih hRest]
    rfl

theorem originalIds_positions {nodeIds ids : List Int64} (hSize : nodeIds.length < 2 ^ 63)
    (hIds : ids ⊆ nodeIds) : originalIds nodeIds (ids.map (position nodeIds)) = some ids := by
  induction ids with
  | nil => rfl
  | cons id ids ih =>
    obtain ⟨hFirst, hRest⟩ := List.cons_subset.mp hIds
    have hIndex := List.idxOf_lt_length_of_mem hFirst
    have hInt : (position nodeIds id).toInt = nodeIds.idxOf id :=
      Int64.toInt_ofNat_of_lt (by omega)
    have hSign : ¬ position nodeIds id < 0 := by
      rw [Int64.lt_iff_toInt_lt, hInt]
      simp
    rw [List.map_cons, originalIds, if_neg hSign, hInt, ih hRest, Int.toNat_natCast,
      List.getElem?_eq_getElem hIndex, List.getElem_idxOf]
    rfl

end Positions

section Writing

variable {s : State}

def connectivities (s : State) : List (List Int64) :=
  (meshElements s).map fun element => element.nodes.map (position (nodeIds s))

theorem cellLines_positions {heap : Heap} {nodes : List Node}
    (hNodup : (nodes.map Node.id).Nodup) {elements : List Element}
    (hNodes : ∀ element ∈ elements, (element.data heap).nodes ⊆ nodes.map Node.id) :
    cellLines heap (idMap nodes 0 fun _ => none) elements =
      .ok ((elements.map fun element => (element.data heap).nodes.map
        (position (nodes.map Node.id))).flatMap cellLine) := by
  induction elements with
  | nil => rfl
  | cons element elements ih =>
    have hData : (element.nodes.map heap.nodes).map Node.id = (element.data heap).nodes := by
      rw [List.map_map]
      rfl
    have hFirst := vtkIds_positions hNodup (hData ▸ hNodes element List.mem_cons_self) element.id
    have hRest := ih fun other hOther => hNodes other (List.mem_cons_of_mem element hOther)
    rw [hData] at hFirst
    rw [cellLines, hFirst, hRest]
    rfl

theorem cellTypeLines_codes {elements : List Element}
    (hTypes : ∀ element ∈ elements, element.type.vtkCellType.isSome = true) :
    ∃ codes : List Int, cellTypeLines elements =
      .ok ((codes.map integerText).flatMap fun line => line ++ ['\n']) := by
  induction elements with
  | nil => exact ⟨[], rfl⟩
  | cons element elements ih =>
    obtain ⟨codes, hRest⟩ := ih fun other hOther => hTypes other (List.mem_cons_of_mem _ hOther)
    obtain ⟨code, hCode⟩ := Option.isSome_iff_exists.mp (hTypes element List.mem_cons_self)
    refine ⟨code :: codes, ?_⟩
    rw [cellTypeLines, hCode]
    dsimp only
    rw [hRest, List.map_cons, List.flatMap_cons, List.append_assoc]
    rfl

end Writing

section Filling

theorem getElem?_coordinates {nodes : List Node} {i : Nat} {node : Node}
    (h : nodes[i]? = some node) :
    (nodes.flatMap coordinates)[i * 3]? = some node.x ∧
      (nodes.flatMap coordinates)[i * 3 + 1]? = some node.y ∧
      (nodes.flatMap coordinates)[i * 3 + 2]? = some node.z := by
  induction nodes generalizing i with
  | nil => nomatch h
  | cons first nodes ih =>
    cases i with
    | zero =>
      obtain rfl := Option.some.inj h
      exact ⟨rfl, rfl, rfl⟩
    | succ i =>
      have hRest := ih h
      rw [Nat.succ_mul]
      exact hRest

variable {grid : Grid}

theorem forEach_createNode {nodes : List Node} (t : State)
    (hIds : grid.nodalIds = nodes.map Node.id)
    (hCoords : grid.nodalCoords = nodes.flatMap coordinates) :
    forEach (createNode grid) (List.range grid.nodalIds.length) t =
      some (createEach t (nodes.map nodeCreation)) := by
  have hCount : grid.nodalIds.length = (nodes.map nodeCreation).length := by
    rw [hIds, List.length_map, List.length_map]
  rw [List.range_eq_range', hCount]
  apply forEach_eq_createEach
  intro i call hCall s
  rw [List.getElem?_map, Option.map_eq_some_iff] at hCall
  obtain ⟨node, hNode, rfl⟩ := hCall
  obtain ⟨hX, hY, hZ⟩ := getElem?_coordinates hNode
  have hId : grid.nodalIds[i]? = some node.id := by rw [hIds, List.getElem?_map, hNode]; rfl
  rw [Nat.zero_add, createNode, hId, hCoords, hX, hY, hZ]
  rfl

theorem forEach_createElement {elements : List ElementData} (t : State)
    (hSize : ∀ element ∈ elements, element.nodes.length < 2 ^ 64)
    (hCount : grid.nodalIds.length < 2 ^ 63)
    (hNodes : ∀ element ∈ elements, element.nodes ⊆ grid.nodalIds)
    (hIds : grid.elementIds = elements.map ElementData.id)
    (hTypes : grid.elementTypes = elements.map ElementData.type)
    (hConns : grid.elementConnectivities =
      elements.map fun element => element.nodes.map (position grid.nodalIds)) :
    forEach (createElement grid) (List.range grid.elementIds.length) t =
      some (createEach t (elements.pmap elementCreation hSize)) := by
  have hLength : grid.elementIds.length = (elements.pmap elementCreation hSize).length := by
    rw [hIds, List.length_map, List.length_pmap]
  rw [List.range_eq_range', hLength]
  apply forEach_eq_createEach
  intro i call hCall s
  rw [List.getElem?_pmap] at hCall
  obtain ⟨element, _, hElement, rfl⟩ := Option.pmap_eq_some_iff.mp hCall
  have hOriginal := originalIds_positions hCount (hNodes element (List.mem_of_getElem? hElement))
  rw [Nat.zero_add, createElement, hConns, hIds, hTypes, List.getElem?_map, List.getElem?_map,
    List.getElem?_map, hElement]
  dsimp only [Option.map_some, bind, Option.bind]
  rw [hOriginal]
  rfl

end Filling

section RoundTrip

variable {text : CoordinateText} {s : State} {l g : Nat × ModelPart}

/-- Every section was read once, with the numbers of the mesh. -/
structure Grid.Describes (grid : Grid) (s : State) : Prop where
  read : grid.read = [.points, .cells, .nodeId, .elementId, .elementType]
  nodalCoords : grid.nodalCoords = (meshNodes s).flatMap coordinates
  nodalIds : grid.nodalIds = (meshNodes s).map Node.id
  elementIds : grid.elementIds = (meshElements s).map ElementData.id
  elementTypes : grid.elementTypes = (meshElements s).map ElementData.type
  elementConnectivities : grid.elementConnectivities =
    (meshElements s).map fun element => element.nodes.map (position grid.nodalIds)

theorem nodes_subset (h : Invariant s l g) :
    ∀ element ∈ meshElements s, element.nodes ⊆ nodeIds s := by
  intro element hElement
  obtain ⟨ref, hRef, rfl⟩ := List.mem_map.mp hElement
  exact List.map_subset _ (h.elementNodes ref hRef).1

theorem nodes_length (h : Invariant s l g) :
    ∀ element ∈ meshElements s, element.nodes.length < 2 ^ 64 := by
  intro element hElement
  obtain ⟨ref, hRef, rfl⟩ := List.mem_map.mp hElement
  rw [Element.data, List.length_map]
  exact (h.elementNodes ref hRef).2

theorem nodes_positive (h : Invariant s l g) : ∀ node ∈ meshNodes s, 1 ≤ node.id := by
  intro node hNode
  obtain ⟨ref, hRef, rfl⟩ := List.mem_map.mp hNode
  exact h.nodes.positive ref hRef

theorem length_nodeIds_lt (h : Invariant s l g) : (nodeIds s).length < 2 ^ 63 := by
  rw [nodeIds, List.length_map]
  exact h.nodes.length_lt

theorem readGrid_writeVtk (h : Invariant s l g)
    (hAccepted : ∀ element ∈ meshElements s, element.Accepted)
    (hTypes : ∀ element ∈ meshElements s, element.type.vtkCellType.isSome = true)
    (hReadsBack : ∀ node ∈ meshNodes s, ∀ v ∈ coordinates node, text.ReadsBack v) :
    ∃ file grid, writeVtk text s = .ok file ∧ readGrid text file = some (.ok grid) ∧
      grid.Describes s := by
  have hNodup : ((meshNodes s).map Node.id).Nodup := by
    rw [map_id_meshNodes]
    exact h.nodes.indexes.nodup
  have hNodeCount : (meshNodes s).length < 2 ^ 64 := by
    have hCount := length_nodeIds_lt h
    rw [← map_id_meshNodes, List.length_map] at hCount
    omega
  have hElementCount : (s.part.elements.data.map s.heap.elements).length < 2 ^ 64 := by
    have hCount := h.elements.length_lt
    rw [List.length_map]
    omega
  have hData : (s.part.elements.data.map s.heap.elements).map (Element.data s.heap) =
      meshElements s := List.map_map
  have hOf : ∀ element ∈ s.part.elements.data.map s.heap.elements,
      element.data s.heap ∈ meshElements s := by
    intro element hElement
    rw [← hData]
    exact List.mem_map_of_mem hElement
  have hCells := cellLines_positions hNodup fun element hElement => by
    rw [map_id_meshNodes]
    exact nodes_subset h _ (hOf element hElement)
  obtain ⟨codes, hCodes⟩ := cellTypeLines_codes fun element hElement =>
    hTypes _ (hOf element hElement)
  have hConns : ∀ ids ∈ (s.part.elements.data.map s.heap.elements).map fun element =>
      (element.data s.heap).nodes.map (position ((meshNodes s).map Node.id)),
      ids ≠ [] ∧ ids.length < 2 ^ 64 := by
    intro ids hIds
    obtain ⟨element, hElement, rfl⟩ := List.mem_map.mp hIds
    have hSome := (hAccepted _ (hOf element hElement)).nodes
    constructor
    · intro hNil
      rw [List.map_eq_nil_iff] at hNil
      rw [hNil] at hSome
      nomatch hSome
    · rw [List.length_map]
      exact nodes_length h _ (hOf element hElement)
  have hGrid := readGrid_sections codes hNodeCount hElementCount hReadsBack
    (List.length_map _) hConns
  refine ⟨_, _, ?_, hGrid, ?_⟩
  · unfold writeVtk
    dsimp only
    rw [← meshNodes, hCells, hCodes]
    rfl
  · constructor
    · rfl
    · rfl
    · rfl
    · rw [← hData]
      conv_rhs => rw [List.map_map]
      rfl
    · rw [← hData]
      conv_rhs => rw [List.map_map]
      rfl
    · rw [← hData]
      conv_rhs => rw [List.map_map]
      rfl

theorem fillModelPart_mesh (h : Invariant s l g)
    (hAccepted : ∀ element ∈ meshElements s, element.Accepted) {grid : Grid}
    (hGrid : grid.Describes s) {t : State} {l' g' : Nat × ModelPart} (h' : Invariant t l' g')
    (hNoNodes : t.part.nodes.data = []) (hNoElements : t.part.elements.data = []) :
    ∃ t' l'', fillModelPart grid t = some (t', .ok ()) ∧ Invariant t' l'' g' ∧
      meshNodes t' = meshNodes s ∧ meshElements t' = meshElements s ∧
      l''.2.nodes.data = t'.part.nodes.data := by
  have hIds : (meshNodes s).map Node.id = nodeIds s := map_id_meshNodes s
  obtain ⟨t₁, t', l'', hFirst, hSecond, hInvariant, hNodes, hElements, hLocal⟩ :=
    build_mesh h' hNoNodes hNoElements (nodes_positive h)
      (by rw [hIds]; exact h.nodes.indexes.nodup)
      (by rw [map_id_meshElements]; exact h.elements.indexes.nodup)
      hAccepted (nodes_length h) (by rw [hIds]; exact nodes_subset h)
  have hGridIds : grid.nodalIds = nodeIds s := hGrid.nodalIds.trans hIds
  have hCreateNodes := forEach_createNode t hGrid.nodalIds hGrid.nodalCoords
  have hCreateElements := forEach_createElement t₁ (nodes_length h)
    (by rw [hGridIds]; exact length_nodeIds_lt h) (by rw [hGridIds]; exact nodes_subset h)
    hGrid.elementIds hGrid.elementTypes hGrid.elementConnectivities
  refine ⟨t', l'', ?_, hInvariant, hNodes, hElements, hLocal⟩
  rw [fillModelPart, hCreateNodes, hFirst]
  dsimp only
  rw [hCreateElements, hSecond]

/-- The file of a mesh is read into an empty part as the same mesh, with local nodes only. -/
theorem readVtk_writeVtk (text : CoordinateText) (s t : State) (hSource : Reachable s)
    (hTarget : Reachable t) (hNoNodes : t.part.nodes.data = [])
    (hNoElements : t.part.elements.data = [])
    (hTypes : ∀ element ∈ meshElements s, element.type.vtkCellType.isSome = true)
    (hReadsBack : ∀ node ∈ meshNodes s, ∀ v ∈ coordinates node, text.ReadsBack v) :
    ∃ file grid t' localPart, writeVtk text s = .ok file ∧
      readGrid text file = some (.ok grid) ∧ grid.Describes s ∧
      readVtk text file t = some (t', .ok ()) ∧
      meshNodes t' = meshNodes s ∧ meshElements t' = meshElements s ∧
      t'.part.localModelPart = some localPart ∧
      localPart.2.nodes.data = t'.part.nodes.data := by
  obtain ⟨l, g, h⟩ := hSource.invariant
  obtain ⟨l', g', h'⟩ := hTarget.invariant
  obtain ⟨file, grid, hWrite, hRead, hGrid⟩ :=
    readGrid_writeVtk h hSource.accepted hTypes hReadsBack
  obtain ⟨t', localPart, hFill, hFilled, hNodes, hElements, hLocal⟩ :=
    fillModelPart_mesh h hSource.accepted hGrid h' hNoNodes hNoElements
  refine ⟨file, grid, t', localPart, hWrite, hRead, hGrid, ?_, hNodes, hElements,
    hFilled.isLocal, hLocal⟩
  rw [readVtk, hRead]
  exact hFill

def zeroDigits : Text := "0.000000000000e+00".toList

def parseZero (text : Text) : (BitVec 64 × Bool) × Text :=
  if zeroDigits.isPrefixOf text then ((0, true), text.drop 18) else ((0, false), text)

/-- Zero is the only number that is used. -/
def zeroText : CoordinateText := ⟨fun _ => zeroDigits, parseZero, 0⟩

theorem zeroText_readsBack : zeroText.ReadsBack 0 where
  head := ⟨'0', ".000000000000e+00".toList, rfl, rfl⟩
  parse c rest _ := by
    have hPrefix : zeroDigits.isPrefixOf (zeroDigits ++ c :: rest) = true :=
      List.isPrefixOf_iff_prefix.mpr (List.prefix_append _ _)
    have hDrop : (zeroDigits ++ c :: rest).drop 18 = c :: rest := List.drop_left' (by decide)
    change parseZero (zeroDigits ++ c :: rest) = _
    rw [parseZero, if_pos hPrefix, hDrop]

/-- Two nodes, the one with the larger id first, and a line -/
def lineMesh : List Op := [.create (.node ⟨5, 0, 0, 0⟩), .create (.node ⟨2, 0, 0, 0⟩),
  .create (.element 7 .line2D2 [5, 2] (by decide))]

theorem readVtk_writeVtk_lineMesh : ∃ file grid t' localPart,
    writeVtk zeroText (run ⟨started.1, started.2⟩ lineMesh) = .ok file ∧
      readGrid zeroText file = some (.ok grid) ∧
      grid.Describes (run ⟨started.1, started.2⟩ lineMesh) ∧
      readVtk zeroText file ⟨started.1, started.2⟩ = some (t', .ok ()) ∧
      meshNodes t' = meshNodes (run ⟨started.1, started.2⟩ lineMesh) ∧
      meshElements t' = meshElements (run ⟨started.1, started.2⟩ lineMesh) ∧
      t'.part.localModelPart = some localPart ∧
      localPart.2.nodes.data = t'.part.nodes.data := by
  have hElements : meshElements (run ⟨started.1, started.2⟩ lineMesh) =
    [⟨7, .line2D2, [5, 2]⟩] := by decide
  have hNodes : meshNodes (run ⟨started.1, started.2⟩ lineMesh) =
    [⟨5, 0, 0, 0⟩, ⟨2, 0, 0, 0⟩] := by decide
  apply readVtk_writeVtk
  · exact ⟨emptyHeap, "mp".toList, started, lineMesh, rfl, rfl⟩
  · exact ⟨emptyHeap, "mp".toList, started, [], rfl, rfl⟩
  · rfl
  · rfl
  · rw [hElements]
    decide
  · rw [hNodes]
    intro node hNode v hv
    have hZero : v = 0 := by
      simp only [List.mem_cons, List.not_mem_nil, or_false] at hNode
      rcases hNode with rfl | rfl
      · simpa [coordinates] using hv
      · simpa [coordinates] using hv
    rw [hZero]
    exact zeroText_readsBack

end RoundTrip

end CoSimIO.Vtk
